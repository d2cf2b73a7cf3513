import SimCampaign.Proofs.Grid.RowMajor

/-! The multi-indices of a shape in order, and the texts of their coordinates. -/

namespace SimCampaign.Grid
open Param (Dim Value)

theorem length_indices (shape : List Nat) : (indices shape).length = cellCount shape := by
  induction shape with
  | nil => rfl
  | cons n shape ih =>
    have hb : ∀ i ∈ List.range n,
        ((indices shape).map (i :: ·)).length = cellCount shape := by
      intro i _
      rw [List.length_map, ih]
    rw [indices, length_flatMap_of_const hb, List.length_range, cellCount_cons]

theorem at?_indices {index shape : List Nat} (h : Within index shape) :
    at? shape index (indices shape) = some index := by
  induction h with
  | nil => rfl
  | @cons i n index shape hi _ ih =>
    have hb : ∀ k < n, ((indices shape).map (k :: ·)).length = cellCount shape := by
      intro k _
      rw [List.length_map, length_indices]
    rw [at?_cons hi, indices, block_flatMap_range hb hi, at?_map, ih]
    rfl

theorem getElem?_indices {shape : List Nat} {k : Nat} (hk : k < cellCount shape) :
    (indices shape)[k]? = some (digits shape k) := by
  rw [getElem?_eq_at? hk, at?_indices (within_digits (Nat.zero_lt_of_lt hk) k)]

theorem within_of_mem_indices {index shape : List Nat} (h : index ∈ indices shape) :
    Within index shape := by
  obtain ⟨k, hk⟩ := List.mem_iff_getElem?.1 h
  have hlt : k < cellCount shape := length_indices shape ▸ (List.getElem?_eq_some_iff.1 hk).1
  rw [getElem?_indices hlt] at hk
  rw [← Option.some.inj hk]
  exact within_digits (Nat.zero_lt_of_lt hlt) k

theorem forall₂_indices {α : Type} {shape : List Nat} {xs : List α}
    (hx : xs.length = cellCount shape) :
    List.Forall₂ (fun index x => at? shape index xs = some x) (indices shape) xs := by
  refine List.forall₂_iff_get.2 ⟨by rw [length_indices, hx], fun k hi hk => ?_⟩
  have hlt : k < cellCount shape := hx ▸ hk
  have hd : (indices shape).get ⟨k, hi⟩ = digits shape k := by
    have hget := getElem?_indices hlt
    rw [List.getElem?_eq_getElem hi] at hget
    exact Option.some.inj hget
  rw [hd, ← getElem?_eq_at? hlt]
  exact List.getElem?_eq_getElem hk

section Texts
variable {dims : List Dim} {index : List Nat}

theorem length_coordTexts (h : index.length = dims.length) :
    (coordTexts dims index).length = dims.length := by
  induction dims generalizing index with
  | nil => rw [coordTexts.eq_def]; rfl
  | cons d dims ih =>
    cases index with
    | nil => cases h
    | cons i index => exact congrArg Nat.succ (ih (Nat.succ.inj h))

theorem getElem?_coordTexts {j i : Nat} {d : Dim} {v : Value} (hd : dims[j]? = some d)
    (hi : index[j]? = some i) (hv : d.coords[i]? = some v) :
    (coordTexts dims index)[j]? = some v.display := by
  induction dims generalizing index j with
  | nil => cases hd
  | cons d' dims ih =>
    cases index with
    | nil => cases hi
    | cons i' index =>
      cases j with
      | zero =>
        obtain rfl : d' = d := by simpa using hd
        obtain rfl : i' = i := by simpa using hi
        simp [coordTexts, hv]
      | succ j => exact ih (by simpa using hd) (by simpa using hi)

theorem exists_of_mem_coordTexts (h : Within index (dims.map Dim.length)) {s : String}
    (hs : s ∈ coordTexts dims index) : ∃ d ∈ dims, ∃ v ∈ d.coords, s = v.display := by
  induction dims generalizing index with
  | nil =>
    rw [coordTexts.eq_def] at hs
    cases hs
  | cons d dims ih =>
    cases h with
    | @cons i _ index _ hi h =>
      have hv : d.coords[i]? = some d.coords[i] := List.getElem?_eq_getElem hi
      rw [coordTexts, hv] at hs
      rcases List.mem_cons.1 hs with rfl | hs
      · exact ⟨d, List.mem_cons_self .., _, List.mem_of_getElem? hv, rfl⟩
      · obtain ⟨d', hd', v, hv, he⟩ := ih h hs
        exact ⟨d', List.mem_cons_of_mem _ hd', v, hv, he⟩

end Texts

end SimCampaign.Grid
