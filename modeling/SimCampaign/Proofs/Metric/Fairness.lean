import Mathlib.Order.Bounds.Defs
import SimCampaign.Proofs.First
import SimCampaign.Proofs.Metric.Shape
import SimCampaign.Proofs.Trace.Schedule

/-! Fairness among all stations, or among the stations that a schedule grants periods. -/

namespace SimCampaign.Metric

section Picking
variable {n k : ℕ} {t : ℕ → Float}

theorem pick_of_lt (hk : k < n) : pick ((List.range n).map t) ⟨k⟩ = .ok (t k) := by
  simp [pick, hk]

theorem pick_of_le (hk : n ≤ k) :
    pick ((List.range n).map t) ⟨k⟩ = .error (.entityOutOfRange ⟨k⟩) := by
  simp [pick, hk]

theorem mapM_pick_of_lt {ks : List ℕ} (h : ∀ k ∈ ks, k < n) :
    (ks.map Entity.mk).mapM (pick ((List.range n).map t)) = .ok (ks.map t) := by
  rw [mapM_eq_ok_iff, List.forall₂_map_left_iff, List.forall₂_map_right_iff, List.forall₂_same]
  exact fun k hk => pick_of_lt (h k hk)

theorem mapM_pick_of_isLeast {S : Finset ℕ} {m : ℕ} (h : IsLeast {k | k ∈ S ∧ n ≤ k} m) :
    (S.sort.map Entity.mk).mapM (pick ((List.range n).map t)) = .error (.entityOutOfRange ⟨m⟩) := by
  obtain ⟨⟨hm, hle⟩, hleast⟩ := h
  obtain ⟨i, hi⟩ := List.mem_iff_getElem?.1 ((Finset.mem_sort (· ≤ ·)).2 hm)
  have hfirst : First (fun e => ∃ err, pick ((List.range n).map t) e = .error err)
      (S.sort.map Entity.mk) i ⟨m⟩ := by
    refine ⟨by rw [List.getElem?_map, hi]; rfl, ⟨_, pick_of_le hle⟩, fun j hj e he => ?_⟩
    rw [List.getElem?_map, Option.map_eq_some_iff] at he
    obtain ⟨k, hk, rfl⟩ := he
    -- The list ascends, so what comes before the least one out of range is in range.
    have hkm : k < m := by
      obtain ⟨_, rfl⟩ := List.getElem?_eq_some_iff.1 hi
      obtain ⟨_, rfl⟩ := List.getElem?_eq_some_iff.1 hk
      exact S.sortedLT_sort.getElem_lt_getElem_of_lt hj
    have hkn : k < n := by
      by_contra hnk
      have := hleast ⟨(Finset.mem_sort (· ≤ ·)).1 (List.mem_of_getElem? hk), not_lt.1 hnk⟩
      omega
    rintro ⟨err, herr⟩
    rw [pick_of_lt hkn] at herr
    cases herr
  exact hfirst.mapM_eq_error (pick_of_le hle)

end Picking

/-- Whether two runs have the same parameters and the same packets. -/
def SameTraffic (r r' : Run) : Prop :=
  r'.params = r.params ∧ r'.artifact? PacketTrace.artifact = r.artifact? PacketTrace.artifact

/-- Whether a run has the parameters and the packets of another, and a schedule that grants `S`. -/
structure Scheduled (r : Run) (S : Finset ℕ) (r' : Run) : Prop where
  traffic : SameTraffic r r'
  schedule : ∃ text, r'.artifact? Schedule.artifact = some text ∧ Schedule.Grants text S

section Stations
variable {r : Run} {p : Int64} {S : Finset ℕ}

theorem fairnessStations_contention (hp : r.params.int Name.allocationPeriod = .ok 0) (n : ℕ) :
    fairnessStations r (n + 1) = .ok (((List.range n).map (· + 1)).map Entity.mk) := by
  rw [fairnessStations, hp, List.map_map]
  rfl

theorem fairnessStations_scheduled {text : String}
    (hp : r.params.int Name.allocationPeriod = .ok p) (h : p ≠ 0)
    (htext : r.artifact? Schedule.artifact = some text) (hS : Schedule.Grants text S) (n : ℕ) :
    fairnessStations r n = .ok (S.sort.map Entity.mk) := by
  rw [fairnessStations, hp, htext]
  change (if p = 0 then _ else _) = _
  rw [if_neg h, Schedule.stations_of_grants hS]
  rfl

end Stations

section Fairness
variable {w : Window} {r r' : Run} {n : ℕ} {t : ℕ → Float} {ks : List ℕ}
  (hx : (entityThroughput w).compute r = .ok (.vector ((List.range (n + 1)).map t)))
  (hr : SameTraffic r r')
  (hks : fairnessStations r' (n + 1) = .ok (ks.map Entity.mk))
include hx hr hks

theorem compute_fairness :
    (fairness w).compute r' =
      ((ks.map Entity.mk).mapM (pick ((List.range (n + 1)).map t)) >>= fun xs =>
        .ok (.scalar (Statistics.fairness xs))) := by
  obtain ⟨trace, htrace, hx⟩ := bind_eq_ok_iff.1 hx
  obtain ⟨xs, hxs, hx⟩ := bind_eq_ok_iff.1 hx
  obtain rfl : xs = (List.range (n + 1)).map t := Value.vector.inj (Except.ok.inj hx)
  have htrace' : packets r' = .ok trace := by rwa [packets, hr.2, ← packets]
  change (packets r' >>= fun trace => entityThroughputs w trace r'.params >>= fun xs => _) = _
  rw [htrace', hr.1]
  change (entityThroughputs w trace r.params >>= fun xs => _) = _
  rw [hxs]
  change (fairnessStations r' ((List.range (n + 1)).map t).length >>= fun stations => _) = _
  rw [List.length_map, List.length_range, hks]
  rfl

theorem compute_fairness_of_le (h : ∀ k ∈ ks, k ≤ n) :
    (fairness w).compute r' = .ok (.scalar (Statistics.fairness (ks.map t))) := by
  rw [compute_fairness hx hr hks, mapM_pick_of_lt fun k hk => Nat.lt_succ_of_le (h k hk)]
  rfl

end Fairness

section Schedules
variable {w : Window} {r : Run} {xs : List Float} {p : Int64}

/-- Fairness is among all stations whatever the schedule is, or it depends on the schedule through
the set of the stations that are granted a period only. -/
theorem fairness_of_schedule (hx : (entityThroughput w).compute r = .ok (.vector xs))
    (hp : r.params.int Name.allocationPeriod = .ok p) :
    ∃ n t, r.params.count Name.stations = .ok n ∧ xs = (List.range (n + 1)).map t ∧
      (p = 0 → ∀ r', SameTraffic r r' → (fairness w).compute r' =
        .ok (.scalar (Statistics.fairness ((List.range n).map fun i => t (i + 1))))) ∧
      (p ≠ 0 → ∀ S,
        (∀ r', Scheduled r S r' →
          ((∀ k ∈ S, k ≤ n) → (fairness w).compute r' =
            .ok (.scalar (Statistics.fairness (S.sort.map t)))) ∧
          ∀ m, IsLeast {k | k ∈ S ∧ n < k} m →
            (fairness w).compute r' = .error (.entityOutOfRange ⟨m⟩)) ∧
        ∀ r₁ r₂, Scheduled r S r₁ → Scheduled r S r₂ →
          (fairness w).compute r₁ = (fairness w).compute r₂) := by
  obtain ⟨n, hn, hlen⟩ := (countsEntities_entityThroughput w).2 r _ hx
  obtain ⟨t, rfl⟩ : ∃ t, xs = (List.range (n + 1)).map t := by
    have hlen : xs.length = n + 1 := Option.some.inj hlen
    refine ⟨fun i => xs[i]!, List.ext_getElem (by simpa using hlen) fun i hi _ => ?_⟩
    simp [hi]
  refine ⟨n, t, hn, rfl, ?_, fun h S => ?_⟩
  · rintro rfl r' hr
    have hks := fairnessStations_contention (hr.1.symm ▸ hp) n
    have hle : ∀ k ∈ (List.range n).map (· + 1), k ≤ n := by
      intro k hk
      obtain ⟨i, hi, rfl⟩ := List.mem_map.1 hk
      exact List.mem_range.1 hi
    rw [compute_fairness_of_le hx hr hks hle, List.map_map]
    rfl
  · have hks r' (hr : Scheduled r S r') :
        fairnessStations r' (n + 1) = .ok (S.sort.map Entity.mk) := by
      obtain ⟨text, htext, hS⟩ := hr.schedule
      exact fairnessStations_scheduled (hr.traffic.1.symm ▸ hp) h htext hS _
    refine ⟨fun r' hr => ⟨fun hS => ?_, fun m hm => ?_⟩, fun r₁ r₂ h₁ h₂ => ?_⟩
    · exact compute_fairness_of_le hx hr.traffic (hks r' hr) (by simpa using hS)
    · rw [compute_fairness hx hr.traffic (hks r' hr), mapM_pick_of_isLeast hm]
      rfl
    · rw [compute_fairness hx h₁.traffic (hks r₁ h₁), compute_fairness hx h₂.traffic (hks r₂ h₂)]

/-- A run of two stations, of which the second one sends, in allocated periods. -/
def twoStations (schedule : String) : Run where
  id := "run"
  repetition := 0
  params := .ofPairs
    [(Name.stations, .int 2), (Name.simulationTime, .int 1), (Name.allocationPeriod, .int 1)]
  artifacts :=
    [(PacketTrace.artifact,
        "SrcNodeId,TxTimestamp_ns,RxTimestamp_ns,PktSize_B\n2,5,10,1000\n2,20,30,1000\n"),
      (Schedule.artifact, schedule)]

theorem scheduled_twoStations (text : String) (ks : List ℕ) {ids : List Float} {S : Finset ℕ}
    (h : Schedule.Lists text ids)
    (hks : List.Forall₂ (fun x k => Schedule.entity? x = some ⟨k⟩) ids ks)
    (hS : {k ∈ ks.toFinset | k ≠ 0 ∧ k ≠ 255} = S) :
    Scheduled (twoStations "") S (twoStations text) := by
  have hnames := hks.imp fun _ _ he => Schedule.entity?_eq_some_iff.1 he
  exact ⟨⟨rfl, rfl⟩, text, rfl, hS ▸ Schedule.grants_of_names h hnames⟩

/-- A third station that was granted a period, and the periods of two in either order. -/
theorem fairness_of_schedule_twoStations :
    ∃ xs, (entityThroughput .full).compute (twoStations "") = .ok (.vector xs) ∧
      (twoStations "").params.int Name.allocationPeriod = .ok 1 ∧
      (fairness .full).compute (twoStations "SrcNodeId,T\n0,0\n3,1\n255,2\n1,3\n3,4\n") =
        .error (.entityOutOfRange ⟨3⟩) ∧
      (fairness .full).compute (twoStations "SrcNodeId,T\n2,0\n1,0\n") =
        (fairness .full).compute (twoStations "T,SrcNodeId\n0,1\n0,2\n") := by
  have hx := (rfl : (entityThroughput .full).compute (twoStations "") = .ok (.vector _))
  have hp : (twoStations "").params.int Name.allocationPeriod = .ok 1 := rfl
  obtain ⟨n, t, hn, -, -, hscheduled⟩ := fairness_of_schedule hx hp
  obtain rfl : 2 = n := Except.ok.inj hn
  have hs := hscheduled (by decide)
  have hthird : Scheduled _ {1, 3} _ :=
    scheduled_twoStations "SrcNodeId,T\n0,0\n3,1\n255,2\n1,3\n3,4\n" [0, 3, 255, 1, 3]
      ⟨_, rfl, by decide +kernel, rfl⟩ (by decide +kernel) (by decide)
  have hboth : Scheduled _ {1, 2} _ :=
    scheduled_twoStations "SrcNodeId,T\n2,0\n1,0\n" [2, 1]
      ⟨_, rfl, by decide +kernel, rfl⟩ (by decide +kernel) (by decide)
  have hswapped : Scheduled _ {1, 2} _ :=
    scheduled_twoStations "T,SrcNodeId\n0,1\n0,2\n" [1, 2]
      ⟨_, rfl, by decide +kernel, rfl⟩ (by decide +kernel) (by decide)
  refine ⟨_, hx, hp, ((hs _).1 _ hthird).2 3 ⟨by simp, ?_⟩, (hs _).2 _ _ hboth hswapped⟩
  rintro k ⟨hk, hlt⟩
  rcases Finset.mem_insert.1 hk with rfl | hk
  · omega
  · exact (Finset.mem_singleton.1 hk).ge

end Schedules

end SimCampaign.Metric
