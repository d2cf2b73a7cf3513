import SimCampaign.Proofs.Binary64.Arithmetic
import SimCampaign.Proofs.Metric.Shape
import SimCampaign.Proofs.Param.Equality
import SimCampaign.Proofs.Trace.Scant

/-! Metrics of runs whose packet traces are too short to hold packets. What those traces do hold
does not show in any of them. -/

namespace SimCampaign.Metric
open Param (Assignment)

inductive OfPackets : Reducer → Prop
  | throughput (w : Window) : OfPackets (throughput w)
  | normalizedThroughput (w : Window) (o : OfferedLoad) : OfPackets (normalizedThroughput w o)
  | delay : OfPackets delay
  | delayDeviation : OfPackets delayDeviation
  | delayVariation : OfPackets delayVariation
  | entityThroughput (w : Window) : OfPackets (entityThroughput w)
  | entityDelay : OfPackets entityDelay
  | fairness (w : Window) : OfPackets (fairness w)

structure AlikeButPackets (r r' : Run) : Prop where
  id : r.id = r'.id
  params : r.params.same r'.params = true
  artifacts : ∀ name ≠ PacketTrace.artifact, r.artifact? name = r'.artifact? name

/-- Whether the packet trace of a run is too short to hold packets. -/
def Silent (r : Run) : Prop :=
  ∃ text, r.artifact? PacketTrace.artifact = some text ∧ PacketTrace.Scant text

theorem packets_of_silent {r : Run} (h : Silent r) : packets r = .ok [] := by
  obtain ⟨text, htext, hscant⟩ := h
  rw [packets, htext]
  exact congrArg ofTable (PacketTrace.parse_of_scant hscant)

section Load
variable {a b : Assignment} {x y : Float}

/-- Loads that are equal as parameters give throughputs of nothing that are the same double. -/
theorem zero_div_load (h : Binary64.same x y = true) (c n : Float) :
    0.0 / (n * (x * c / n)) = 0.0 / (n * (y * c / n)) := by
  rcases Binary64.unpack_eq_or_void_of_same h with heq | ⟨hx, hy⟩
  · rw [Binary64.mul_congr_unpack heq]
  · have hzero {z : Float} (hz : Binary64.Void z) : 0.0 / (n * (z * c / n)) = 0.0 / 0.0 :=
      (((hz.mul_right c).div_right n).mul_left n).zero_div
    rw [hzero hx, hzero hy]

/-- The offered loads of equal parameters fail alike, and make the same of a throughput of zero. -/
theorem map_total_of_same (o : OfferedLoad) (h : a.same b = true) :
    (o.total a).map (0.0 / ·) = (o.total b).map (0.0 / ·) := by
  cases o with
  | applicationRate =>
    rw [OfferedLoad.total, OfferedLoad.total]
    simp only [Assignment.count_of_same h, Assignment.text_of_same h]
  | physicalShare =>
    rw [OfferedLoad.total, OfferedLoad.total]
    simp only [Assignment.count_of_same h, Assignment.text_of_same h]
    rcases Assignment.float_of_same h Name.normalizedLoad with heq | ⟨x, y, hx, hy, hxy⟩
    · rw [heq]
    · rw [hx, hy]
      cases b.count Name.stations with
      | error e => simp only [ofParam, Except.mapError, bind, Except.bind]
      | ok n =>
        cases b.text Name.scheme with
        | error e => simp only [ofParam, Except.mapError, bind, Except.bind]
        | ok s =>
          simp only [ofParam, Except.mapError, bind, Except.bind, stationRate]
          cases Modulation.rate? s with
          | none => simp only
          -- The rates differ if the loads are zeros of different signs, but their quotients do not.
          | some r => simp only [Except.map, zero_div_load hxy]

end Load

section Nothing
variable {r : Run} (h : packets r = .ok [])

theorem throughput_nil (w : Window) (params : Assignment) : w.throughput [] params = .ok 0.0 := rfl

theorem entityThroughputs_nil (w : Window) (params : Assignment) :
    entityThroughputs w [] params = (entities params).map fun es => es.map fun _ => 0.0 := by
  have hzeros (es : List Entity) :
      es.mapM (fun e => w.throughput (PacketTrace.fromEntity [] e) params) =
        .ok (es.map fun _ => 0.0) := by
    rw [mapM_eq_ok_iff, List.forall₂_map_right_iff, List.forall₂_same]
    exact fun e _ => throughput_nil w params
  rw [entityThroughputs]
  cases entities params with
  | error e => rfl
  | ok es => exact hzeros es

theorem entityDelays_nil (params : Assignment) :
    entityDelays [] params = (entities params).map fun es => es.map fun _ => Statistics.nan := by
  rw [entityDelays]
  cases entities params <;> rfl

include h

theorem compute_throughput_nil (w : Window) :
    (throughput w).compute r = .ok (.scalar 0.0) := by
  simp only [throughput, h, throughput_nil, bind, Except.bind]

theorem compute_normalizedThroughput_nil (w : Window) (o : OfferedLoad) :
    (normalizedThroughput w o).compute r = ((o.total r.params).map (0.0 / ·)).map .scalar := by
  simp only [normalizedThroughput, h, throughput_nil, bind, Except.bind]
  cases o.total r.params <;> rfl

theorem compute_delay_nil : delay.compute r = .ok (.scalar Statistics.nan) := by
  simp only [delay, h, bind, Except.bind, meanDelay, List.isEmpty_nil, if_true]

theorem compute_delayDeviation_nil :
    delayDeviation.compute r = .ok (.scalar Statistics.nan) := by
  simp only [delayDeviation, h, bind, Except.bind, List.isEmpty_nil, if_true]

theorem compute_delayVariation_nil :
    delayVariation.compute r = .ok (.scalar Statistics.nan) := by
  simp only [delayVariation, h, bind, Except.bind]
  rfl

theorem compute_entityThroughput_nil (w : Window) : (entityThroughput w).compute r =
    (entities r.params).map fun es => .vector (es.map fun _ => 0.0) := by
  simp only [entityThroughput, h, bind, Except.bind, entityThroughputs_nil]
  cases entities r.params <;> rfl

theorem compute_entityDelay_nil : entityDelay.compute r =
    (entities r.params).map fun es => .vector (es.map fun _ => Statistics.nan) := by
  simp only [entityDelay, h, bind, Except.bind, entityDelays_nil]
  cases entities r.params <;> rfl

theorem compute_fairness_nil (w : Window) : (fairness w).compute r =
    (entities r.params >>= fun es => fairnessStations r es.length >>= fun stations =>
      stations.mapM (pick (es.map fun _ => 0.0)) >>= fun xs =>
        .ok (.scalar (Statistics.fairness xs))) := by
  simp only [fairness, h, bind, Except.bind, entityThroughputs_nil]
  cases entities r.params with
  | error e => rfl
  | ok es => simp only [Except.map, List.length_map]

end Nothing

section Alike
variable {r r' : Run}

theorem AlikeButPackets.entities (h : AlikeButPackets r r') :
    entities r.params = entities r'.params := by
  rw [Metric.entities, Metric.entities, Assignment.count_of_same h.params]

theorem AlikeButPackets.fairnessStations (h : AlikeButPackets r r') (n : ℕ) :
    fairnessStations r n = fairnessStations r' n := by
  have hschedule := h.artifacts Schedule.artifact (by decide)
  rw [Metric.fairnessStations, Metric.fairnessStations, Assignment.int_of_same h.params, hschedule]

theorem compute_eq_of_nil {reducer : Reducer} (hreducer : OfPackets reducer)
    (ha : AlikeButPackets r r') (h : packets r = .ok []) (h' : packets r' = .ok []) :
    reducer.compute r = reducer.compute r' := by
  cases hreducer with
  | throughput w => rw [compute_throughput_nil h, compute_throughput_nil h']
  | normalizedThroughput w o =>
    rw [compute_normalizedThroughput_nil h, compute_normalizedThroughput_nil h',
      map_total_of_same o ha.params]
  | delay => rw [compute_delay_nil h, compute_delay_nil h']
  | delayDeviation => rw [compute_delayDeviation_nil h, compute_delayDeviation_nil h']
  | delayVariation => rw [compute_delayVariation_nil h, compute_delayVariation_nil h']
  | entityThroughput w =>
    rw [compute_entityThroughput_nil h, compute_entityThroughput_nil h', ha.entities]
  | entityDelay => rw [compute_entityDelay_nil h, compute_entityDelay_nil h', ha.entities]
  | fairness w =>
    rw [compute_fairness_nil h, compute_fairness_nil h', ha.entities]
    simp only [ha.fairnessStations]

theorem warnUnless_eq_of_nil (ha : AlikeButPackets r r') (h : packets r = .ok [])
    (h' : packets r' = .ok []) (enough : PacketTrace → Bool) :
    warnUnless enough r = warnUnless enough r' := by
  rw [warnUnless, warnUnless, h, h', ha.id]

theorem warnings_eq_of_nil {reducer : Reducer} (hreducer : OfPackets reducer)
    (ha : AlikeButPackets r r') (h : packets r = .ok []) (h' : packets r' = .ok []) :
    reducer.warnings r = reducer.warnings r' := by
  cases hreducer with
  | delay => exact warnUnless_eq_of_nil ha h h' _
  | delayDeviation => exact warnUnless_eq_of_nil ha h h' _
  | delayVariation => exact warnUnless_eq_of_nil ha h h' _
  | entityDelay =>
    simp only [entityDelay, h, h', bind, Except.bind, entityDelays_nil, ha.entities, ha.id]
  | throughput => rfl
  | normalizedThroughput => rfl
  | entityThroughput => rfl
  | fairness => rfl

theorem exists_pick_of_length {xs ys : List Float} (hlen : xs.length = ys.length) {e : Entity}
    {x : Float} (h : pick xs e = .ok x) : ∃ y, pick ys e = .ok y := by
  rw [pick] at h
  cases hx : xs[e.id]? with
  | none =>
    rw [hx] at h
    cases h
  | some z =>
    have hlt : e.id < ys.length := hlen ▸ (List.getElem?_eq_some_iff.1 hx).1
    exact ⟨ys[e.id], by rw [pick, List.getElem?_eq_getElem hlt]⟩

theorem exists_mapM_pick {xs ys zs : List Float} (hlen : xs.length = ys.length)
    {stations : List Entity} (h : stations.mapM (pick xs) = .ok zs) :
    ∃ zs', stations.mapM (pick ys) = .ok zs' := by
  obtain ⟨zs', hzs⟩ := exists_forall₂ (R := fun e y => pick ys e = .ok y) fun e he => by
    obtain ⟨x, hx⟩ := exists_of_mapM_eq_ok h he
    exact exists_pick_of_length hlen hx
  exact ⟨zs', mapM_eq_ok_iff.2 hzs⟩

/-- A trace without packets is no reason for a metric to fail: it has a value as soon as it has one
for any other packets. -/
theorem exists_ok_of_nil {reducer : Reducer} (hreducer : OfPackets reducer)
    (ha : AlikeButPackets r r') (h : packets r = .ok []) {v : Value}
    (hv : reducer.compute r' = .ok v) : ∃ v', reducer.compute r = .ok v' := by
  cases hreducer with
  | throughput w => exact ⟨_, compute_throughput_nil h w⟩
  | normalizedThroughput w o =>
    obtain ⟨t, -, hv⟩ := bind_eq_ok_iff.1 hv
    obtain ⟨x, -, hv⟩ := bind_eq_ok_iff.1 hv
    obtain ⟨load, hload, -⟩ := bind_eq_ok_iff.1 hv
    have htotal := map_total_of_same o ha.params
    rw [compute_normalizedThroughput_nil h, htotal, hload]
    exact ⟨_, rfl⟩
  | delay => exact ⟨_, compute_delay_nil h⟩
  | delayDeviation => exact ⟨_, compute_delayDeviation_nil h⟩
  | delayVariation => exact ⟨_, compute_delayVariation_nil h⟩
  | entityThroughput w =>
    obtain ⟨k, hk, -⟩ := (countsEntities_entityThroughput w).2 r' v hv
    rw [compute_entityThroughput_nil h, ha.entities, entities_of_count hk]
    exact ⟨_, rfl⟩
  | entityDelay =>
    obtain ⟨k, hk, -⟩ := countsEntities_entityDelay.2 r' v hv
    rw [compute_entityDelay_nil h, ha.entities, entities_of_count hk]
    exact ⟨_, rfl⟩
  | fairness w =>
    obtain ⟨t, -, hv⟩ := bind_eq_ok_iff.1 hv
    obtain ⟨xs, hxs, hv⟩ := bind_eq_ok_iff.1 hv
    obtain ⟨stations, hstations, hv⟩ := bind_eq_ok_iff.1 hv
    obtain ⟨zs, hzs, -⟩ := bind_eq_ok_iff.1 hv
    obtain ⟨es, hes, hxs⟩ := bind_eq_ok_iff.1 hxs
    have hlen : es.length = xs.length := (mapM_eq_ok_iff.1 hxs).length_eq
    have hzeros : xs.length = (es.map fun _ => (0.0 : Float)).length := by
      rw [List.length_map, hlen]
    -- There are as many zeros, so that the stations that are in range stay so.
    obtain ⟨zs', hzs'⟩ := exists_mapM_pick hzeros hzs
    refine ⟨.scalar (Statistics.fairness zs'), ?_⟩
    rw [compute_fairness_nil h, ha.entities]
    refine bind_eq_ok_iff.2 ⟨es, hes, bind_eq_ok_iff.2 ⟨stations, ?_, ?_⟩⟩
    · rw [ha.fairnessStations, hlen, hstations]
    · exact bind_eq_ok_iff.2 ⟨zs', hzs', rfl⟩

/-- What stands in a packet trace of two filled lines at most does not show in any metric: not in
its value, its error or its warnings, and no metric fails because of it. -/
theorem compute_of_silent {reducer : Reducer} (hreducer : OfPackets reducer)
    (ha : AlikeButPackets r r') (h : Silent r) :
    (Silent r' → reducer.compute r = reducer.compute r' ∧
      reducer.warnings r = reducer.warnings r') ∧
    ∀ v, reducer.compute r' = .ok v → ∃ v', reducer.compute r = .ok v' := by
  have hnone := packets_of_silent h
  refine ⟨fun h' => ?_, fun v => exists_ok_of_nil hreducer ha hnone⟩
  have hnone' := packets_of_silent h'
  exact ⟨compute_eq_of_nil hreducer ha hnone hnone', warnings_eq_of_nil hreducer ha hnone hnone'⟩

/-- A run of one station with some packet trace. -/
def tracedBy (text : String) : Run where
  id := "run"
  repetition := 0
  params := .ofPairs
    [(Name.stations, .int 1), (Name.simulationTime, .int 1), (Name.allocationPeriod, .int 0)]
  artifacts := [(PacketTrace.artifact, text)]

theorem alikeButPackets_tracedBy (text text' : String) :
    AlikeButPackets (tracedBy text) (tracedBy text') := by
  refine ⟨rfl, rfl, fun name hname => ?_⟩
  have hne : (name == PacketTrace.artifact) = false := beq_false_of_ne hname
  simp only [Run.artifact?, tracedBy, List.lookup_cons, hne]

/-- A stray line under a header of other columns is like no text at all, and no reason to fail where
two packets are none. -/
theorem compute_of_silent_strayLine :
    (fairness .full).compute (tracedBy "Node;Time\n\n\nxyzzy") =
        (fairness .full).compute (tracedBy "") ∧
      ∃ v, (fairness .full).compute (tracedBy "Node;Time\n\n\nxyzzy") = .ok v := by
  have hstray : Silent (tracedBy "Node;Time\n\n\nxyzzy") := ⟨_, rfl, by decide⟩
  have hempty : Silent (tracedBy "") := ⟨_, rfl, by decide⟩
  have hpackets := (rfl : (fairness .full).compute (tracedBy
    "SrcNodeId,TxTimestamp_ns,RxTimestamp_ns,PktSize_B\n1,5,10,1000\n1,20,30,1000\n") = .ok _)
  obtain ⟨heq, -⟩ := compute_of_silent (.fairness .full) (alikeButPackets_tracedBy _ "") hstray
  obtain ⟨-, hok⟩ := compute_of_silent (.fairness .full) (alikeButPackets_tracedBy _ _) hstray
  exact ⟨(heq hempty).1, hok _ hpackets⟩

end Alike

end SimCampaign.Metric
