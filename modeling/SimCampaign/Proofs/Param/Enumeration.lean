import SimCampaign.Proofs.Grid.RowMajor
import SimCampaign.Proofs.Record

/-! The order in which a space lists its assignments: row-major in the indices of the candidates, so
that the last name varies fastest. -/

namespace SimCampaign.Param.Space
open Grid (at? cellCount digits Within)

def cells (s : Space) : Nat := cellCount (counts s.pairs)

def pick : List (String × Entry) → List Nat → Option (List (String × Value))
  | [], [] => some []
  | (name, e) :: rest, i :: index => do
    let v ← e.values[i]?
    let c ← pick rest index
    some ((name, v) :: c)
  | _, _ => none

def dim (p : String × Entry) : Dim := ⟨p.1, p.2.values⟩

theorem dims_eq_map (s : Space) : s.dims = s.pairs.map dim := rfl

theorem map_length_dim (entries : List (String × Entry)) :
    (entries.map dim).map Dim.length = counts entries := by
  rw [List.map_map]
  rfl

theorem map_name_dim (entries : List (String × Entry)) :
    (entries.map dim).map Dim.name = entries.map Prod.fst := by
  rw [List.map_map]
  rfl

theorem length_of_within_counts {entries : List (String × Entry)} {index : List Nat}
    (h : Within index (counts entries)) : index.length = entries.length := by
  simpa only [counts, List.length_map] using h.length_eq

section Between
variable {s : Space} {before after : List (String × Entry)} {name : String} {e : Entry}

theorem dims_between (hs : s.pairs = before ++ (name, e) :: after) :
    s.dims = before.map dim ++ ⟨name, e.values⟩ :: after.map dim := by
  rw [dims_eq_map, hs, List.map_append, List.map_cons]
  rfl

theorem counts_between (hs : s.pairs = before ++ (name, e) :: after) :
    counts s.pairs = counts before ++ e.values.length :: counts after := by
  rw [hs, counts, List.map_append, List.map_cons]
  rfl

theorem not_mem_map_name (hs : s.pairs = before ++ (name, e) :: after) :
    name ∉ (before.map dim).map Dim.name := by
  rw [map_name_dim]
  exact (Record.not_mem_of_pairs_eq hs).1

end Between

theorem cells_eq_cellCount (s : Space) : s.cells = cellCount (counts s.pairs) := rfl

theorem length_choices (entries : List (String × Entry)) :
    (choices entries).length = cellCount (counts entries) := by
  induction entries with
  | nil => rfl
  | cons entry rest ih =>
    obtain ⟨name, e⟩ := entry
    rw [choices_cons, Grid.length_flatMap_of_const fun v _ => by rw [List.length_map, ih]]
    rfl

theorem at?_choices (entries : List (String × Entry)) (index : List Nat) :
    at? (counts entries) index (choices entries) = pick entries index := by
  induction entries generalizing index with
  | nil => cases index <;> rfl
  | cons entry rest ih =>
    obtain ⟨name, e⟩ := entry
    cases index with
    | nil => rfl
    | cons i index =>
      change at? (e.values.length :: counts rest) (i :: index) _ = _
      by_cases hi : i < e.values.length
      · have hv : e.values[i]? = some e.values[i] := List.getElem?_eq_getElem hi
        rw [Grid.at?_cons hi, choices_cons, Grid.block_flatMap_of_getElem? (fun v _ => by
          rw [List.length_map, length_choices]) hv, Grid.at?_map, ih, pick, hv]
        cases pick rest index <;> rfl
      · -- Beyond the candidates neither side has a choice.
        rw [at?, if_neg hi, pick, List.getElem?_eq_none (Nat.le_of_not_lt hi)]
        rfl

theorem getElem?_of_pick {entries : List (String × Entry)} {index : List Nat}
    {chosen : List (String × Value)} (h : pick entries index = some chosen) {j : Nat}
    {name : String} {e : Entry} (hj : entries[j]? = some (name, e)) :
    ∃ i v, index[j]? = some i ∧ e.values[i]? = some v ∧ chosen[j]? = some (name, v) := by
  induction entries generalizing index chosen j with
  | nil => simp at hj
  | cons entry rest ih =>
    obtain ⟨m, d⟩ := entry
    cases index with
    | nil => simp [pick] at h
    | cons i index =>
      obtain ⟨v, hv, h⟩ := Option.bind_eq_some_iff.1 h
      obtain ⟨c, hc, h⟩ := Option.bind_eq_some_iff.1 h
      obtain rfl := Option.some.inj h
      cases j with
      | zero =>
        obtain ⟨rfl, rfl⟩ : m = name ∧ d = e := by simpa using hj
        exact ⟨i, v, rfl, hv, rfl⟩
      | succ j => exact ih hc (by simpa using hj)

theorem map_pairs_assignments (s : Space) : s.assignments.map Record.pairs = choices s.pairs := by
  rw [assignments, List.map_map]
  change (choices s.pairs).attach.map Subtype.val = _
  exact List.attach_map_subtype_val _

theorem length_assignments (s : Space) : s.assignments.length = s.cells := by
  rw [← List.length_map Record.pairs, map_pairs_assignments, length_choices, cells_eq_cellCount]

theorem at?_assignments (s : Space) (index : List Nat) :
    (at? (counts s.pairs) index s.assignments).map Record.pairs = pick s.pairs index := by
  rw [← Grid.at?_map, map_pairs_assignments, at?_choices]

theorem at?_of_getElem? {s : Space} {k : Nat} {a : Assignment} (h : s.assignments[k]? = some a) :
    at? (counts s.pairs) (digits (counts s.pairs) k) s.assignments = some a := by
  have hk : k < cellCount (counts s.pairs) := by
    rw [← cells_eq_cellCount, ← length_assignments]
    exact (List.getElem?_eq_some_iff.1 h).1
  rw [← Grid.getElem?_eq_at? hk, h]

theorem exists_at?_of_mem {s : Space} {a : Assignment} (h : a ∈ s.assignments) :
    ∃ choice, at? (counts s.pairs) choice s.assignments = some a := by
  obtain ⟨k, hk⟩ := List.mem_iff_getElem?.1 h
  exact ⟨_, at?_of_getElem? hk⟩

theorem pick_of_getElem? {s : Space} {k : Nat} {a : Assignment}
    (h : s.assignments[k]? = some a) : pick s.pairs (digits (counts s.pairs) k) = some a.pairs := by
  rw [← at?_assignments, at?_of_getElem? h]
  rfl

section Size
variable {shape : List Nat} {n m : UInt64}

end Size

section Overflow

end Overflow

end SimCampaign.Param.Space
