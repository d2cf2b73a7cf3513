import SimCampaign.Proofs.Metric.Shape
import SimCampaign.Proofs.Metric.Window
import SimCampaign.Proofs.Trace.Entities

/-! Metrics of each entity, which is the metric of the packets that the entity sent. -/

namespace SimCampaign.Metric
open Param (Assignment)

section Windows
variable {n : ℕ}

theorem Window.counted_fromEntity (w : Window) (warmup : Float) (t : PacketTrace) (e : Entity) :
    w.counted warmup (t.fromEntity e) = (w.counted warmup t).fromEntity e := by
  cases w with
  | full => rfl
  | skipFirstInterval => exact PacketTrace.sentAfter_fromEntity t e warmup

theorem Window.perm_counted (hn : n ≤ 2 ^ 53) (w : Window) (warmup : Float) (t : PacketTrace) :
    ((List.range (n + 1)).flatMap fun k => w.counted warmup (t.fromEntity ⟨k⟩)).Perm
      ((w.counted warmup t).filter fun p => decide (∃ k ≤ n, p.SentBy k)) := by
  simp only [Window.counted_fromEntity]
  exact PacketTrace.perm_fromEntity hn _

end Windows

section Entries
variable {r : Run} {t : PacketTrace} {n : ℕ} {w : Window}

theorem compute_throughput (ht : packets r = .ok t) {x : Float}
    (hx : w.throughput t r.params = .ok x) : (throughput w).compute r = .ok (.scalar x) :=
  bind_eq_ok_iff.2 ⟨t, ht, bind_eq_ok_iff.2 ⟨x, hx, rfl⟩⟩

theorem compute_entityDelay (ht : packets r = .ok t)
    (hn : r.params.count Name.stations = .ok n) :
    entityDelay.compute r =
      .ok (.vector ((List.range (n + 1)).map fun k => meanDelay (t.fromEntity ⟨k⟩))) := by
  have hdelays : entityDelays t r.params =
      .ok ((List.range (n + 1)).map fun k => meanDelay (t.fromEntity ⟨k⟩)) := by
    rw [entityDelays, entities_of_count hn, Entity.upTo]
    exact congrArg Except.ok List.map_map
  exact bind_eq_ok_iff.2 ⟨t, ht, bind_eq_ok_iff.2 ⟨_, hdelays, rfl⟩⟩

theorem entityThroughputs_eq_ok_iff {params : Assignment}
    (hn : params.count Name.stations = .ok n) {xs : List Float} :
    entityThroughputs w t params = .ok xs ↔
      List.Forall₂ (fun k x => w.throughput (t.fromEntity ⟨k⟩) params = .ok x)
        (List.range (n + 1)) xs := by
  have hentities : entityThroughputs w t params =
      (Entity.upTo n).mapM fun e => w.throughput (t.fromEntity e) params := by
    rw [entityThroughputs, entities_of_count hn]
    rfl
  rw [hentities, mapM_eq_ok_iff, Entity.upTo, List.forall₂_map_left_iff]

theorem compute_entityThroughput_iff (ht : packets r = .ok t)
    (hn : r.params.count Name.stations = .ok n) {v : Value} :
    (entityThroughput w).compute r = .ok v ↔ ∃ xs, v = .vector xs ∧
      List.Forall₂ (fun k x => w.throughput (t.fromEntity ⟨k⟩) r.params = .ok x)
        (List.range (n + 1)) xs := by
  constructor
  · intro h
    obtain ⟨t', ht', h⟩ := bind_eq_ok_iff.1 h
    obtain rfl : t = t' := Except.ok.inj (ht.symm.trans ht')
    obtain ⟨xs, hxs, h⟩ := bind_eq_ok_iff.1 h
    exact ⟨xs, (Except.ok.inj h).symm, (entityThroughputs_eq_ok_iff hn).1 hxs⟩
  · rintro ⟨xs, rfl, hxs⟩
    have hcompute := (entityThroughputs_eq_ok_iff hn).2 hxs
    exact bind_eq_ok_iff.2 ⟨t, ht, bind_eq_ok_iff.2 ⟨xs, hcompute, rfl⟩⟩

theorem Window.Reads.compute_entityThroughput {time : Float} {us : ℕ}
    (h : w.Reads r.params time us) (ht : packets r = .ok t)
    (hn : r.params.count Name.stations = .ok n) :
    (entityThroughput w).compute r = .ok (.vector
      ((List.range (n + 1)).map fun k => w.rate time (warmup us) (t.fromEntity ⟨k⟩))) := by
  refine (compute_entityThroughput_iff ht hn).2 ⟨_, rfl, ?_⟩
  rw [List.forall₂_map_right_iff, List.forall₂_same]
  exact fun k _ => h.throughput_eq _

/-- The numbers of the entities `0` to `n` in a run with the packets `t`, each of which is that of
the packets of one entity. -/
structure EntityWise (r : Run) (t : PacketTrace) (n : ℕ) : Prop where
  delays : entityDelay.compute r =
    .ok (.vector ((List.range (n + 1)).map fun k => meanDelay (t.fromEntity ⟨k⟩)))
  throughputs : ∀ w v, (entityThroughput w).compute r = .ok v ↔ ∃ xs, v = .vector xs ∧
    List.Forall₂ (fun k x => w.throughput (t.fromEntity ⟨k⟩) r.params = .ok x)
      (List.range (n + 1)) xs
  total : ∀ w time us, w.Reads r.params time us →
    (throughput w).compute r = .ok (.scalar (w.rate time (warmup us) t))
  rates : ∀ w time us, w.Reads r.params time us → (entityThroughput w).compute r =
    .ok (.vector ((List.range (n + 1)).map fun k => w.rate time (warmup us) (t.fromEntity ⟨k⟩)))

/-- Entities whose numbers differ as traces hold them divide a trace and what any window counts of
it, and the metrics of the entities are those of their own packets. -/
theorem divided_of_apart (hn : Entity.Apart n) (t : PacketTrace) :
    t.Divided n ∧
    (∀ e secs, (t.fromEntity e).sentAfter secs = (t.sentAfter secs).fromEntity e) ∧
    (∀ w warmup,
      ((List.range (n + 1)).flatMap fun k => Window.counted w warmup (t.fromEntity ⟨k⟩)).Perm
        ((w.counted warmup t).filter fun p => decide (∃ k ≤ n, p.SentBy k))) ∧
    ∀ r, packets r = .ok t → r.params.count Name.stations = .ok n → EntityWise r t n := by
  have hle := Entity.apart_iff.1 hn
  refine ⟨PacketTrace.divided hle t, PacketTrace.sentAfter_fromEntity t,
    fun w warmup => w.perm_counted hle warmup t, fun r ht hr => ?_⟩
  exact {
    delays := compute_entityDelay ht hr
    throughputs := fun w v => compute_entityThroughput_iff ht hr
    total := fun w time us h => compute_throughput ht (h.throughput_eq t)
    rates := fun w time us h => h.compute_entityThroughput ht hr }

/-- A run of two stations whose packets are one of the second station, the same packet again, one of
the access point, which is sent by negative zero, and two that nobody sent. -/
def strayPackets : Run where
  id := "run"
  repetition := 0
  params := .ofPairs [(Name.stations, .int 2), (Name.simulationTime, .int 1)]
  artifacts :=
    [(PacketTrace.artifact,
      "SrcNodeId,TxTimestamp_ns,RxTimestamp_ns,PktSize_B\n" ++
        "2,5,10,1000\n2,5,10,1000\n-0,20,30,500\n1.5,20,30,500\nnan,20,30,500\n")]

theorem divided_of_apart_strayPackets :
    ∃ t, packets strayPackets = .ok t ∧ t.length = 5 ∧ t.Divided 2 ∧
      EntityWise strayPackets t 2 := by
  have hlength : (packets strayPackets).map List.length = .ok 5 := by decide +kernel
  obtain ⟨t, ht, hlength⟩ := map_eq_ok_iff.1 hlength
  have hstations : strayPackets.params.count Name.stations = .ok 2 := rfl
  have hapart : Entity.Apart 2 := Entity.apart_iff.2 (by decide)
  obtain ⟨hdivided, -, -, hentries⟩ := divided_of_apart hapart t
  exact ⟨t, ht, hlength, hdivided, hentries _ ht hstations⟩

end Entries
end SimCampaign.Metric
