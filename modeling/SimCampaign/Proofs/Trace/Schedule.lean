import Mathlib.Data.Finset.Sort
import SimCampaign.Proofs.Binary64.Fraction
import SimCampaign.Proofs.Except
import SimCampaign.Trace.Schedule

/-! The stations of a schedule: the set of the numbers of its rows, in ascending order. -/

namespace SimCampaign.Schedule

section Insertion
variable {d e : Entity} {ds es : List Entity}

theorem mem_insert : d ∈ insert e ds ↔ d = e ∨ d ∈ ds := by
  induction ds with
  | nil => simp [insert]
  | cons c ds ih =>
    rw [insert]
    split_ifs with hlt heq
    · exact List.mem_cons
    · obtain rfl : e = c := congrArg Entity.mk heq
      simp
    · rw [List.mem_cons, ih, List.mem_cons, or_left_comm]

def Ascending (ds : List Entity) : Prop := ds.Pairwise (·.id < ·.id)

theorem ascending_insert (h : Ascending ds) : Ascending (insert e ds) := by
  induction ds with
  | nil => exact List.pairwise_singleton ..
  | cons c ds ih =>
    obtain ⟨hc, hds⟩ := List.pairwise_cons.1 h
    rw [insert]
    split_ifs with hlt heq
    · refine List.pairwise_cons.2 ⟨fun d hd => ?_, h⟩
      rcases List.mem_cons.1 hd with rfl | hd
      · exact hlt
      · exact hlt.trans (hc d hd)
    · exact h
    · refine List.pairwise_cons.2 ⟨fun d hd => ?_, ih hds⟩
      rcases mem_insert.1 hd with rfl | hd
      · omega
      · exact hc d hd

theorem mem_foldr_insert : d ∈ es.foldr insert [] ↔ d ∈ es := by
  induction es with
  | nil => rfl
  | cons e es ih => rw [List.foldr_cons, mem_insert, ih, List.mem_cons]

theorem ascending_foldr_insert : Ascending (es.foldr insert []) := by
  induction es with
  | nil => exact List.Pairwise.nil
  | cons e es ih => exact ascending_insert ih

/-- A set of entities is inserted in ascending order, however often and in whatever order its
elements come. -/
theorem foldr_insert_eq {S : Finset ℕ} (h : ∀ k, Entity.mk k ∈ es ↔ k ∈ S) :
    es.foldr insert [] = S.sort.map Entity.mk := by
  have hids : (es.foldr insert []).map Entity.id = S.sort := by
    have hlt : ((es.foldr insert []).map Entity.id).SortedLT :=
      (List.pairwise_map.2 ascending_foldr_insert).sortedLT
    refine hlt.eq_of_mem_iff S.sortedLT_sort fun k => ?_
    rw [Finset.mem_sort, ← h, List.mem_map]
    constructor
    · rintro ⟨d, hd, rfl⟩
      exact mem_foldr_insert.1 hd
    · intro hk
      exact ⟨_, mem_foldr_insert.2 hk, rfl⟩
  rw [← hids, List.map_map]
  exact (List.map_id _).symm

end Insertion

section Rows
variable {x : Float} {ids : List Float} {es : List Entity} {text : String} {k : ℕ} {S : Finset ℕ}

/-- Whether a number is finite, not negative and an integer. Negative zero is zero. -/
def IsNatural (x : Float) : Prop := ∃ n : ℕ, (Binary64.ofFloat x).value? = some (n : ℚ)

/-- Whether a number is a natural number that names the entity `k`. Entities are numbered in 64 bits;
larger numbers name the last one. -/
def Names (x : Float) (k : ℕ) : Prop :=
  ∃ n : ℕ, (Binary64.ofFloat x).value? = some (n : ℚ) ∧ k = min n maxUInt64

theorem isNatural_iff_names : IsNatural x ↔ ∃ k, Names x k :=
  ⟨fun ⟨n, hn⟩ => ⟨_, n, hn, rfl⟩, fun ⟨_, n, hn, _⟩ => ⟨n, hn⟩⟩

theorem Names.unique {l : ℕ} (hk : Names x k) (hl : Names x l) : k = l := by
  obtain ⟨n, hn, rfl⟩ := hk
  obtain ⟨m, hm, rfl⟩ := hl
  obtain rfl : n = m := Nat.cast_injective (Option.some.inj (hn.symm.trans hm))
  rfl

/-- A number is accepted if and only if it is a natural number. The fraction of what is not finite
is no number and so differs from zero. -/
theorem accepted_iff : (x < 0.0 || Binary64.fraction x != 0.0) = false ↔ IsNatural x := by
  rw [Bool.or_eq_false_iff, decide_eq_false_iff_not, bne, Bool.not_eq_false',
    Binary64.fraction_beq_zero_iff]
  constructor
  · rintro ⟨hx, k, hk⟩
    rw [Binary64.lt_zero_iff hk, Int.cast_lt_zero, not_lt] at hx
    obtain ⟨n, rfl⟩ := Int.eq_ofNat_of_zero_le hx
    exact ⟨n, hk⟩
  · rintro ⟨n, hn⟩
    rw [Binary64.lt_zero_iff hn]
    exact ⟨n.cast_nonneg.not_gt, n, hn⟩

theorem entity?_eq_some_iff {e : Entity} : entity? x = some e ↔ Names x e.id := by
  rw [entity?]
  split_ifs with h
  · refine iff_of_false (fun he => nomatch he) fun ⟨n, hn, _⟩ => ?_
    rw [accepted_iff.2 ⟨n, hn⟩] at h
    cases h
  · constructor
    · rintro ⟨rfl⟩
      obtain ⟨n, hn⟩ := accepted_iff.1 (Bool.eq_false_iff.2 h)
      exact ⟨n, hn, Binary64.toNat_toUInt64 hn⟩
    · rintro ⟨n, hn, hk⟩
      rw [Binary64.toNat_toUInt64 hn, ← hk]

theorem isSome_entity?_iff : (entity? x).isSome = true ↔ IsNatural x := by
  rw [Option.isSome_iff_exists, isNatural_iff_names]
  exact ⟨fun ⟨e, he⟩ => ⟨e.id, entity?_eq_some_iff.1 he⟩,
    fun ⟨k, hk⟩ => ⟨⟨k⟩, entity?_eq_some_iff.2 hk⟩⟩

instance (x : Float) : Decidable (IsNatural x) := decidable_of_iff _ isSome_entity?_iff

theorem entityAt_eq_ok_iff {e : Entity} {row : ℕ} : entityAt x row = .ok e ↔ Names x e.id := by
  rw [← entity?_eq_some_iff, entityAt]
  cases entity? x with
  | none => exact iff_of_false (fun h => nomatch h) (fun h => nomatch h)
  | some d => rw [Except.ok.injEq, Option.some_inj]

theorem mapM_entityAt_eq_ok_iff :
    (ids.zipIdx.mapM fun (x, row) => entityAt x row) = .ok es ↔
      List.Forall₂ (fun x e => Names x e.id) ids es := by
  have hids : ids = ids.zipIdx.map Prod.fst := (List.zipIdx_map_fst 0 ids).symm
  rw [mapM_eq_ok_iff, hids, List.forall₂_map_left_iff, ← hids]
  simp only [entityAt_eq_ok_iff]

theorem isStation_iff : isStation ⟨k⟩ = true ↔ k ≠ 0 ∧ k ≠ 255 := by
  simp [isStation, Entity.accessPoint, Entity.contention]

/-- Whether a text is a table of at least two rows that has these numbers as the sources. -/
def Lists (text : String) (ids : List Float) : Prop :=
  ∃ t, Table.parse {} text = .ok t ∧ 2 ≤ t.rows ∧ t.numeric PacketTrace.sourceColumn = .ok ids

/-- Whether a text is a schedule and `S` are the stations that it grants a period: the entities that
its rows name, except the access point and the contention periods. -/
def Grants (text : String) (S : Finset ℕ) : Prop :=
  ∃ ids, Lists text ids ∧ (∀ x ∈ ids, ∃ k, Names x k) ∧
    ∀ k, k ∈ S ↔ k ≠ 0 ∧ k ≠ 255 ∧ ∃ x ∈ ids, Names x k

theorem mapM_filter_isKept (rows : List (Except TableError Entity)) :
    ((rows.filter isKept).mapM fun r => r) =
      Except.map (fun es => es.filter isStation) (rows.mapM fun r => r) := by
  induction rows with
  | nil => rfl
  | cons r rows ih =>
    rw [List.mapM_cons]
    cases r with
    | error cause =>
      have hkept : isKept (.error cause) = true := rfl
      rw [List.filter_cons_of_pos hkept, List.mapM_cons]
      rfl
    | ok e =>
      have hkept : isKept (.ok e) = isStation e := rfl
      by_cases he : isStation e = true
      · rw [List.filter_cons_of_pos (hkept.trans he), List.mapM_cons, ih]
        cases rows.mapM fun r => r with
        | error cause => rfl
        | ok es => exact congrArg Except.ok (List.filter_cons_of_pos he).symm
      · rw [List.filter_cons_of_neg (hkept ▸ he), ih]
        cases rows.mapM fun r => r with
        | error cause => rfl
        | ok es => exact congrArg Except.ok (List.filter_cons_of_neg he).symm

theorem stations_of_lists (h : Lists text ids) :
    stations text = Except.map (fun es => (es.filter isStation).foldr insert [])
      (ids.zipIdx.mapM fun (x, row) => entityAt x row) := by
  obtain ⟨t, ht, hrows, hids⟩ := h
  have hne : ¬ t.isEmpty = true := by
    rw [Table.isEmpty, beq_iff_eq]
    omega
  rw [stations, ht]
  change (if t.isEmpty = true then _ else _) = _
  rw [if_neg hne, hids]
  change (((ids.zipIdx.map fun (x, row) => entityAt x row).filter isKept).mapM (fun r => r) >>=
    fun es => .ok (es.foldr insert [])) = _
  rw [mapM_filter_isKept, List.mapM_map]
  change Except.map _ (ids.zipIdx.mapM fun (x, row) => entityAt x row) >>= _ = _
  cases ids.zipIdx.mapM fun (x, row) => entityAt x row with
  | error cause => rfl
  | ok es => rfl

theorem mem_iff_of_names {ks : List ℕ} (h : List.Forall₂ Names ids ks) :
    k ∈ ks ↔ ∃ x ∈ ids, Names x k := by
  constructor
  · exact exists_of_mem_forall₂ h
  · rintro ⟨x, hx, hk⟩
    obtain ⟨l, hl, hxl⟩ := exists_of_mem_forall₂ h.flip hx
    rwa [hk.unique hxl]

/-- A schedule whose sources are natural numbers grants periods to a set of stations. -/
theorem grants_of_names {ks : List ℕ} (h : Lists text ids) (hks : List.Forall₂ Names ids ks) :
    Grants text {k ∈ ks.toFinset | k ≠ 0 ∧ k ≠ 255} := by
  refine ⟨ids, h, fun x hx => ?_, fun k => ?_⟩
  · obtain ⟨k, -, hk⟩ := exists_of_mem_forall₂ hks.flip hx
    exact ⟨k, hk⟩
  · rw [Finset.mem_filter, List.mem_toFinset, mem_iff_of_names hks, and_comm, and_assoc]

theorem stations_of_grants (h : Grants text S) : stations text = .ok (S.sort.map Entity.mk) := by
  obtain ⟨ids, hids, hnames, hS⟩ := h
  obtain ⟨ks, hks⟩ := exists_forall₂ hnames
  rw [stations_of_lists hids, mapM_entityAt_eq_ok_iff.2 (List.forall₂_map_right_iff.2 hks)]
  refine congrArg Except.ok (foldr_insert_eq fun k => ?_)
  rw [hS, List.mem_filter, isStation_iff, List.mem_map_of_injective fun _ _ => Entity.mk.inj,
    mem_iff_of_names hks, and_comm, and_assoc]

end Rows

end SimCampaign.Schedule
