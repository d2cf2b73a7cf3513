import SimCampaign.Proofs.Table.Outcome
import SimCampaign.Proofs.Trace.Schedule

/-! Which schedules are accepted: those all of whose sources are natural numbers. Of the others the
first source that is none is told. -/

namespace SimCampaign.Schedule
variable {x : Float} {ids : List Float} {text : String}

theorem entityAt_eq_error_iff {row : ℕ} {cause : TableError} :
    entityAt x row = .error cause ↔
      ¬ IsNatural x ∧ cause = .notNumeric PacketTrace.sourceColumn row (Decimal.plain x) := by
  rw [← isSome_entity?_iff, entityAt]
  cases entity? x with
  | some e =>
    refine iff_of_false (fun h => ?_) fun h => h.1 rfl
    cases h
  | none =>
    have hnone : ¬ (none : Option Entity).isSome = true := Bool.false_ne_true
    rw [and_iff_right hnone, Except.error.injEq, eq_comm]

theorem stations_of_first {row : ℕ} (h : Lists text ids)
    (hx : First (fun x => ¬ IsNatural x) ids row x) :
    stations text = .error (.notNumeric PacketTrace.sourceColumn row (Decimal.plain x)) := by
  have hrow : entityAt x row = .error (.notNumeric PacketTrace.sourceColumn row (Decimal.plain x)) :=
    entityAt_eq_error_iff.2 ⟨hx.holds, rfl⟩
  have hfirst : First (fun p : Float × ℕ => ∃ cause, entityAt p.1 p.2 = .error cause) ids.zipIdx row
      (x, row) := hx.zipIdx.congr fun p _ => by simp [entityAt_eq_error_iff]
  rw [stations_of_lists h, hfirst.mapM_eq_error hrow]
  rfl

theorem exists_stations (h : Lists text ids) (hall : ∀ x ∈ ids, IsNatural x) :
    ∃ S : Finset ℕ, stations text = .ok (S.sort.map Entity.mk) ∧
      ∀ k, k ∈ S ↔ k ≠ 0 ∧ k ≠ 255 ∧ ∃ x ∈ ids, Names x k := by
  obtain ⟨ks, hks⟩ := exists_forall₂ fun x hx => isNatural_iff_names.1 (hall x hx)
  refine ⟨_, stations_of_grants (grants_of_names h hks), fun k => ?_⟩
  rw [Finset.mem_filter, List.mem_toFinset, mem_iff_of_names hks, and_comm, and_assoc]

theorem stations_of_few
    (h : (({} : Table.Format).data (({} : Table.Format).lines text)).length < 2) :
    stations text = .ok [] := by
  rw [stations, Table.parse_of_few rfl (Nat.lt_succ_iff.1 h)]
  rfl

/-- A schedule of at least two rows is accepted if and only if all its sources are natural numbers.
It then grants periods to the set of the entities that they name, except the access point and the
contention periods. If one is no natural number, the first such row is told. -/
theorem stations_of_rows (text : String) :
    ((({} : Table.Format).data (({} : Table.Format).lines text)).length < 2 →
      stations text = .ok []) ∧
    ∀ ids, Lists text ids →
      ((∃ es, stations text = .ok es) ↔ ∀ x ∈ ids, IsNatural x) ∧
      (∀ es, stations text = .ok es → ∃ S : Finset ℕ, es = S.sort.map Entity.mk ∧
        ∀ k, k ∈ S ↔ k ≠ 0 ∧ k ≠ 255 ∧ ∃ x ∈ ids, Names x k) ∧
      ((∃ x ∈ ids, ¬ IsNatural x) → ∃ row x, First (fun x => ¬ IsNatural x) ids row x ∧
        stations text = .error (.notNumeric PacketTrace.sourceColumn row (Decimal.plain x))) := by
  refine ⟨stations_of_few, fun ids h => ?_⟩
  by_cases hall : ∀ x ∈ ids, IsNatural x
  · obtain ⟨S, hstations, hS⟩ := exists_stations h hall
    refine ⟨iff_of_true ⟨_, hstations⟩ hall, fun es hes => ⟨S, ?_, hS⟩, fun ⟨x, hx, hn⟩ => ?_⟩
    · exact Except.ok.inj (hes.symm.trans hstations)
    · exact absurd (hall x hx) hn
  · obtain ⟨x, hx, hn⟩ : ∃ x ∈ ids, ¬ IsNatural x := by simpa using hall
    obtain ⟨row, x, hfirst⟩ := First.exists_of_mem (p := fun x => ¬ IsNatural x) hx hn
    have herror := stations_of_first h hfirst
    refine ⟨iff_of_false (fun ⟨es, hes⟩ => ?_) hall, fun es hes => ?_, fun _ => ?_⟩
    · cases herror.symm.trans hes
    · cases herror.symm.trans hes
    · exact ⟨row, x, hfirst, herror⟩

/-- Negative zero, a contention period and a number beyond 64 bits; then a source that is no number
after a reserved one and before a negative one; then a single row of another column. -/
theorem stations_of_rows_mixed :
    Lists "SrcNodeId\n-0\n1e30\n255\n3\n1e30\n" [-0.0, 1e30, 255, 3, 1e30] ∧
      stations "SrcNodeId\n-0\n1e30\n255\n3\n1e30\n" = .ok [⟨3⟩, ⟨maxUInt64⟩] ∧
      Lists "T,SrcNodeId\n1,255\n2,NaN\n3,-1\n" [255, 0.0 / 0.0, -1] ∧
      stations "T,SrcNodeId\n1,255\n2,NaN\n3,-1\n" =
        .error (.notNumeric PacketTrace.sourceColumn 1 "NaN") ∧
      stations "T\n-0.5\n" = .ok [] := by
  have hmixed : Lists "SrcNodeId\n-0\n1e30\n255\n3\n1e30\n" [-0.0, 1e30, 255, 3, 1e30] :=
    ⟨_, rfl, by decide +kernel, rfl⟩
  have hfault : Lists "T,SrcNodeId\n1,255\n2,NaN\n3,-1\n" [255, 0.0 / 0.0, -1] :=
    ⟨_, rfl, by decide +kernel, rfl⟩
  have hfew : (({} : Table.Format).data (({} : Table.Format).lines "T\n-0.5\n")).length < 2 := by
    decide +kernel
  refine ⟨hmixed, ?_, hfault, ?_, (stations_of_rows _).1 hfew⟩
  · obtain ⟨hok, hset, -⟩ := (stations_of_rows _).2 _ hmixed
    obtain ⟨es, hes⟩ := hok.2 (by decide +kernel)
    obtain ⟨S, rfl, hS⟩ := hset es hes
    have hks : List.Forall₂ Names [-0.0, 1e30, 255, 3, 1e30] [0, maxUInt64, 255, 3, maxUInt64] := by
      have he : List.Forall₂ (fun x k => entity? x = some ⟨k⟩) [-0.0, 1e30, 255, 3, 1e30]
          [0, maxUInt64, 255, 3, maxUInt64] := by decide +kernel
      exact he.imp fun _ _ => entity?_eq_some_iff.1
    have hmem : ∀ k, Entity.mk k ∈ [Entity.mk 3, ⟨maxUInt64⟩] ↔ k ∈ S := by
      intro k
      have hmax : maxUInt64 = 18446744073709551615 := rfl
      rw [hS, ← mem_iff_of_names hks]
      simp only [List.mem_cons, List.not_mem_nil, Entity.mk.injEq, or_false]
      omega
    rw [hes, ← foldr_insert_eq hmem]
    rfl
  · obtain ⟨-, -, herror⟩ := (stations_of_rows _).2 _ hfault
    obtain ⟨row, x, hfirst, h⟩ := herror (by decide +kernel)
    have hle : row ≤ 1 := by
      by_contra hlt
      exact hfirst.before 1 (not_le.1 hlt) _ rfl (by decide +kernel)
    have hne : row ≠ 0 := by
      rintro rfl
      obtain rfl : 255 = x := Option.some.inj hfirst.getElem?
      exact hfirst.holds (by decide +kernel)
    obtain rfl : row = 1 := by omega
    obtain rfl : 0.0 / 0.0 = x := Option.some.inj hfirst.getElem?
    exact h

end SimCampaign.Schedule
