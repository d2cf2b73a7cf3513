import Mathlib.Data.List.InsertIdx
import SimCampaign.Proofs.Grid.RowMajor

/-! Slices and lanes of a grid by multi-index: a multi-index of the result, with the index along the
axis put back in its place, is one of the grid. -/

namespace SimCampaign.Grid
open Param (Dim)
variable {α β : Type}

section Cells
variable {shape index : List Nat} {axis n i : Nat} {xs : List α}

theorem length_slice (hn : shape[axis]? = some n) (hi : i < n)
    (hx : xs.length = cellCount shape) :
    (slice shape axis i xs).length = cellCount (shape.eraseIdx axis) := by
  induction shape generalizing axis xs with
  | nil => simp at hn
  | cons m shape ih =>
    rw [cellCount_cons] at hx
    cases axis with
    | zero =>
      obtain rfl : m = n := by simpa using hn
      exact length_block hx hi
    | succ axis =>
      have hs (k : Nat) (hk : k ∈ List.range m) :
          (slice shape axis i (block (cellCount shape) k xs)).length =
            cellCount (shape.eraseIdx axis) :=
        ih (by simpa using hn) (length_block hx (List.mem_range.1 hk))
      rw [slice, length_flatMap_of_const hs, List.length_range, List.eraseIdx_cons_succ,
        cellCount_cons]

theorem at?_slice (hn : shape[axis]? = some n) (hi : i < n)
    (hx : xs.length = cellCount shape) :
    at? (shape.eraseIdx axis) index (slice shape axis i xs) =
      at? shape (index.insertIdx axis i) xs := by
  induction shape generalizing axis index xs with
  | nil => simp at hn
  | cons m shape ih =>
    rw [cellCount_cons] at hx
    cases axis with
    | zero =>
      obtain rfl : m = n := by simpa using hn
      rw [List.insertIdx_zero, at?_cons hi]
      rfl
    | succ axis =>
      have hn' : shape[axis]? = some n := by simpa using hn
      -- The axis lies inside the blocks, which are sliced one by one.
      cases index with
      | nil => rfl
      | cons k index =>
        rw [List.eraseIdx_cons_succ, List.insertIdx_succ_cons, at?, at?]
        split
        · have hs (k : Nat) (hk : k < m) :
              (slice shape axis i (block (cellCount shape) k xs)).length =
                cellCount (shape.eraseIdx axis) :=
            length_slice hn' hi (length_block hx hk)
          rw [slice, block_flatMap_range hs ‹_›]
          exact ih hn' (length_block hx ‹_›)
        · rfl

theorem exists_at?_insertIdx (hn : shape[axis]? = some n) (hi : i < n)
    (hx : xs.length = cellCount shape) (h : Within index (shape.eraseIdx axis)) :
    ∃ x, at? shape (index.insertIdx axis i) xs = some x := by
  rw [← at?_slice hn hi hx]
  exact exists_at?_eq_some (length_slice hn hi hx) h

theorem slice_map (f : α → β) (shape : List Nat) (axis i : Nat) (xs : List α) :
    slice shape axis i (xs.map f) = (slice shape axis i xs).map f := by
  induction shape generalizing axis xs with
  | nil => rfl
  | cons n shape ih =>
    cases axis with
    | zero => exact block_map f _ i xs
    | succ axis =>
      rw [slice, slice, List.map_flatMap]
      simp only [block_map, ih]

theorem length_lanes (hn : shape[axis]? = some n) :
    (lanes shape axis xs).length = cellCount (shape.eraseIdx axis) := by
  induction shape generalizing axis xs with
  | nil => simp at hn
  | cons m shape ih =>
    cases axis with
    | zero => simp [lanes]
    | succ axis =>
      have hs (k : Nat) (_ : k ∈ List.range m) :
          (lanes shape axis (block (cellCount shape) k xs)).length =
            cellCount (shape.eraseIdx axis) :=
        ih (by simpa using hn)
      rw [lanes, length_flatMap_of_const hs, List.length_range, List.eraseIdx_cons_succ,
        cellCount_cons]

theorem at?_lanes (hn : shape[axis]? = some n) (h : Within index (shape.eraseIdx axis)) :
    at? (shape.eraseIdx axis) index (lanes shape axis xs) =
      some ((List.range n).filterMap fun i => at? shape (index.insertIdx axis i) xs) := by
  induction shape generalizing axis index xs with
  | nil => simp at hn
  | cons m shape ih =>
    cases axis with
    | zero =>
      obtain rfl : m = n := by simpa using hn
      rw [List.eraseIdx_cons_zero] at h ⊢
      rw [at?_eq_getElem? h, lanes, List.getElem?_map, List.getElem?_range (offset_lt h)]
      refine congrArg some (List.filterMap_congr fun i hi => ?_)
      rw [List.insertIdx_zero, at?_eq_getElem? (.cons (List.mem_range.1 hi) h), offset]
    | succ axis =>
      have hn' : shape[axis]? = some n := by simpa using hn
      rw [List.eraseIdx_cons_succ] at h ⊢
      cases h with
      | @cons k _ index _ hk h =>
        rw [at?_cons hk, lanes, block_flatMap_range (fun _ _ => length_lanes hn') hk, ih hn' h]
        simp only [List.insertIdx_succ_cons, at?_cons hk]

end Cells

theorem getElem?_shape_of_dims {g : Grid α} {axis : Nat} {d : Dim} (h : g.dims[axis]? = some d) :
    g.shape[axis]? = some d.length := by
  rw [shape, List.getElem?_map, h]
  rfl

theorem shape_dropAxis (g : Grid α) (axis i : Nat) :
    (g.dropAxis axis i).shape = g.shape.eraseIdx axis := by
  rw [shape, shape, dropAxis, List.eraseIdx_map]

theorem shape_reduceAxis (g : Grid α) (axis : Nat) (f : List α → β) :
    (g.reduceAxis axis f).shape = g.shape.eraseIdx axis := by
  rw [shape, shape, reduceAxis, List.eraseIdx_map]

section Axis
variable {g : Grid α} {axis n i : Nat}

theorem Full.dropAxis (hg : g.Full) (hn : g.shape[axis]? = some n) (hi : i < n) :
    (g.dropAxis axis i).Full := by
  rw [Full, shape_dropAxis]
  exact length_slice hn hi hg

theorem get?_dropAxis (hg : g.Full) (hn : g.shape[axis]? = some n) (hi : i < n)
    (index : List Nat) : (g.dropAxis axis i).get? index = g.get? (index.insertIdx axis i) := by
  rw [get?, shape_dropAxis]
  exact at?_slice hn hi hg

theorem full_reduceAxis (hn : g.shape[axis]? = some n) (f : List α → β) :
    (g.reduceAxis axis f).Full := by
  rw [Full, shape_reduceAxis, Grid.reduceAxis, List.length_map]
  exact length_lanes hn

theorem get?_reduceAxis (hn : g.shape[axis]? = some n) (f : List α → β) {index : List Nat}
    (h : Within index (g.shape.eraseIdx axis)) :
    (g.reduceAxis axis f).get? index =
      some (f ((List.range n).filterMap fun i => g.get? (index.insertIdx axis i))) := by
  rw [get?, shape_reduceAxis, Grid.reduceAxis, at?_map, at?_lanes hn h]
  rfl

end Axis

section Between
variable {g : Grid α} {before after : List Dim} {d : Dim} {index rest : List Nat}

theorem insertIdx_length_append (xs ys : List α) (y : α) :
    (xs ++ ys).insertIdx xs.length y = xs ++ y :: ys := by
  induction xs with
  | nil => rfl
  | cons x xs ih => exact congrArg (x :: ·) ih

theorem eraseIdx_length_append (xs ys : List α) (y : α) :
    (xs ++ y :: ys).eraseIdx xs.length = xs ++ ys := by
  rw [List.eraseIdx_append_of_length_le (Nat.le_refl _), Nat.sub_self, List.eraseIdx_cons_zero]

theorem shape_between (h : g.dims = before ++ d :: after) :
    g.shape = before.map Dim.length ++ d.length :: after.map Dim.length := by
  rw [shape, h, List.map_append, List.map_cons]

theorem getElem?_shape (h : g.dims = before ++ d :: after) :
    g.shape[before.length]? = some d.length := by
  apply getElem?_shape_of_dims
  rw [h]
  simp

theorem get?_dropAxis_between (hg : g.Full) (h : g.dims = before ++ d :: after) {k : Nat}
    (hk : k < d.length) (hi : index.length = before.length) (rest : List Nat) :
    (g.dropAxis before.length k).get? (index ++ rest) = g.get? (index ++ k :: rest) := by
  rw [get?_dropAxis hg (getElem?_shape h) hk, ← hi, insertIdx_length_append]

theorem get?_reduceAxis_between (h : g.dims = before ++ d :: after) (f : List α → β)
    (hi : Within index (before.map Dim.length)) (hr : Within rest (after.map Dim.length)) :
    (g.reduceAxis before.length f).get? (index ++ rest) =
      some (f ((List.range d.length).filterMap fun k => g.get? (index ++ k :: rest))) := by
  have hs : g.shape.eraseIdx before.length = before.map Dim.length ++ after.map Dim.length := by
    rw [shape_between h, ← List.length_map Dim.length, eraseIdx_length_append]
  have hl : before.length = index.length := by simpa using hi.length_eq.symm
  rw [get?_reduceAxis (getElem?_shape h) f (hs ▸ List.rel_append hi hr), hl]
  simp only [insertIdx_length_append]

end Between

/-- A lane without gaps. -/
theorem exists_lane {f : Nat → Option α} {n : Nat} (h : ∀ i < n, ∃ x, f i = some x) :
    ∃ xs, (List.range n).filterMap f = xs ∧ xs.length = n ∧ ∀ i < n, xs[i]? = f i := by
  induction n with
  | zero => exact ⟨[], rfl, rfl, fun i hi => absurd hi (Nat.not_lt_zero i)⟩
  | succ n ih =>
    obtain ⟨xs, hx, hl, hf⟩ := ih fun i hi => h i (Nat.lt_succ_of_lt hi)
    obtain ⟨x, hn⟩ := h n (Nat.lt_succ_self n)
    refine ⟨xs ++ [x], ?_, ?_, fun i hi => ?_⟩
    · rw [List.range_succ, List.filterMap_append, hx]
      simp [hn]
    · rw [List.length_append, hl]
      rfl
    · rcases Nat.lt_succ_iff_lt_or_eq.1 hi with hi | rfl
      · rw [List.getElem?_append_left (hl ▸ hi), hf i hi]
      · rw [hn, ← hl, List.getElem?_concat_length]

theorem eq_of_get?_eq {g h : Grid α} (hd : g.dims = h.dims) (hg : g.Full) (hh : h.Full)
    (heq : ∀ index, Within index g.shape → g.get? index = h.get? index) : g = h := by
  obtain ⟨dims, xs⟩ := g
  obtain ⟨_, ys⟩ := h
  obtain rfl : dims = _ := hd
  exact congrArg _ (eq_of_at?_eq hg hh heq)

end SimCampaign.Grid
