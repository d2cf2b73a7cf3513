import Mathlib.Data.List.Forall2
import SimCampaign.Grid.Basic
import SimCampaign.Proofs.Grid.Shape

/-! Cells by multi-index. A multi-index within a shape stands at one offset in row-major order, so
lists of cells that agree at every multi-index are equal. -/

namespace SimCampaign.Grid
variable {α β : Type}

abbrev Within (index shape : List Nat) : Prop := List.Forall₂ (· < ·) index shape

theorem within_append_iff {index shape inner : List Nat} :
    Within index (shape ++ inner) ↔
      ∃ i j, index = i ++ j ∧ Within i shape ∧ Within j inner := by
  constructor
  · intro h
    exact ⟨_, _, (List.take_append_drop shape.length index).symm,
      List.forall₂_take_append _ _ _ h, List.forall₂_drop_append _ _ _ h⟩
  · rintro ⟨i, j, rfl, hi, hj⟩
    exact List.rel_append hi hj

def offset : List Nat → List Nat → Nat
  | _ :: shape, i :: index => i * cellCount shape + offset shape index
  | _, _ => 0

/-- The multi-index at an offset: mixed-radix digits, the last axis varying fastest. -/
def digits : List Nat → Nat → List Nat
  | [], _ => []
  | n :: shape, k => k / cellCount shape % n :: digits shape k

theorem offset_lt {index shape : List Nat} (h : Within index shape) :
    offset shape index < cellCount shape := by
  induction h with
  | nil => exact Nat.one_pos
  | @cons i n index shape hi _ ih =>
    rw [offset, cellCount_cons]
    calc i * cellCount shape + offset shape index
        < i * cellCount shape + cellCount shape := by omega
      _ = (i + 1) * cellCount shape := by rw [Nat.succ_mul]
      _ ≤ n * cellCount shape := Nat.mul_le_mul_right _ hi

theorem within_digits {shape : List Nat} (h : 0 < cellCount shape) (k : Nat) :
    Within (digits shape k) shape := by
  induction shape with
  | nil => exact .nil
  | cons n shape ih =>
    rw [cellCount_cons] at h
    exact .cons (Nat.mod_lt _ (Nat.pos_of_mul_pos_right h)) (ih (Nat.pos_of_mul_pos_left h))

theorem digits_mod (shape : List Nat) (m k : Nat) :
    digits shape (k % (m * cellCount shape)) = digits shape k := by
  induction shape generalizing m with
  | nil => rfl
  | cons n shape ih =>
    -- The first digit is taken modulo `n`, so a multiple of `n` above it makes no difference.
    have hp : m * (n * cellCount shape) = cellCount shape * (m * n) := by
      rw [← Nat.mul_assoc, Nat.mul_comm]
    rw [digits, digits, cellCount_cons, hp, Nat.mod_mul_right_div_self, Nat.mod_mul_left_mod,
      Nat.mul_comm, ih]

theorem offset_digits {shape : List Nat} {k : Nat} (h : k < cellCount shape) :
    offset shape (digits shape k) = k := by
  induction shape generalizing k with
  | nil => exact (Nat.lt_one_iff.1 h).symm
  | cons n shape ih =>
    rw [cellCount_cons] at h
    have hp : 0 < cellCount shape := Nat.pos_of_mul_pos_left (Nat.zero_lt_of_lt h)
    have hk : k / cellCount shape < n := (Nat.div_lt_iff_lt_mul hp).2 h
    have hd := ih (Nat.mod_lt k hp)
    rw [← Nat.one_mul (cellCount shape), digits_mod] at hd
    rw [digits, offset, hd, Nat.mod_eq_of_lt hk, Nat.one_mul, Nat.div_add_mod']

section Blocks

theorem getElem?_block {size j : Nat} (hj : j < size) (i : Nat) (xs : List α) :
    (block size i xs)[j]? = xs[i * size + j]? := by
  rw [block, List.getElem?_take_of_lt hj, List.getElem?_drop]

theorem length_block {size n i : Nat} {xs : List α} (hx : xs.length = n * size) (hi : i < n) :
    (block size i xs).length = size := by
  have h : (i + 1) * size ≤ n * size := Nat.mul_le_mul_right _ hi
  rw [Nat.succ_mul] at h
  rw [block, List.length_take, List.length_drop]
  omega

theorem block_map (f : α → β) (size i : Nat) (xs : List α) :
    block size i (xs.map f) = (block size i xs).map f := by
  rw [block, block, List.map_take, List.map_drop]

theorem length_flatMap_of_const {f : β → List α} {size : Nat} {xs : List β}
    (hf : ∀ x ∈ xs, (f x).length = size) : (xs.flatMap f).length = xs.length * size := by
  induction xs with
  | nil => simp
  | cons x xs ih =>
    rw [List.flatMap_cons, List.length_append, hf x (List.mem_cons_self ..),
      ih fun y hy => hf y (List.mem_cons_of_mem _ hy), List.length_cons, Nat.succ_mul,
      Nat.add_comm]

theorem drop_flatMap {f : β → List α} {size : Nat} {xs : List β}
    (hf : ∀ x ∈ xs, (f x).length = size) (k : Nat) :
    (xs.flatMap f).drop (k * size) = (xs.drop k).flatMap f := by
  induction xs generalizing k with
  | nil => simp
  | cons x xs ih =>
    cases k with
    | zero => simp
    | succ k =>
      have hx : (f x).length = size := hf x (List.mem_cons_self ..)
      rw [List.flatMap_cons, List.drop_succ_cons, Nat.succ_mul, Nat.add_comm, ← hx,
        List.drop_length_add_append, hx, ih fun y hy => hf y (List.mem_cons_of_mem _ hy)]

theorem take_flatMap {f : β → List α} {size : Nat} {xs : List β}
    (hf : ∀ x ∈ xs, (f x).length = size) (k : Nat) :
    (xs.flatMap f).take (k * size) = (xs.take k).flatMap f := by
  induction xs generalizing k with
  | nil => simp
  | cons x xs ih =>
    cases k with
    | zero => simp
    | succ k =>
      have hx : (f x).length = size := hf x (List.mem_cons_self ..)
      rw [List.flatMap_cons, List.take_succ_cons, List.flatMap_cons, Nat.succ_mul, Nat.add_comm,
        ← hx, List.take_length_add_append, hx, ih fun y hy => hf y (List.mem_cons_of_mem _ hy)]

theorem block_flatMap {f : β → List α} {size : Nat} {xs : List β}
    (hf : ∀ x ∈ xs, (f x).length = size) (count i : Nat) :
    block (count * size) i (xs.flatMap f) = (block count i xs).flatMap f := by
  rw [block, block, ← Nat.mul_assoc, drop_flatMap hf,
    take_flatMap fun x hx => hf x (List.mem_of_mem_drop hx)]

theorem block_flatMap_of_getElem? {f : β → List α} {size i : Nat} {xs : List β} {x : β}
    (hf : ∀ y ∈ xs, (f y).length = size) (hx : xs[i]? = some x) :
    block size i (xs.flatMap f) = f x := by
  have h := block_flatMap hf 1 i
  have hb : block 1 i xs = [x] := by
    rw [block, Nat.mul_one, List.take_one, List.head?_drop, hx]
    rfl
  rwa [Nat.one_mul, hb, List.flatMap_singleton] at h

theorem block_flatMap_range {f : Nat → List α} {size n i : Nat}
    (hf : ∀ k < n, (f k).length = size) (hi : i < n) :
    block size i ((List.range n).flatMap f) = f i :=
  block_flatMap_of_getElem? (fun k hk => hf k (List.mem_range.1 hk)) (List.getElem?_range hi)

end Blocks

theorem at?_cons {n i : Nat} (hi : i < n) (shape index : List Nat) (xs : List α) :
    at? (n :: shape) (i :: index) xs = at? shape index (block (cellCount shape) i xs) := by
  rw [at?, if_pos hi]

theorem at?_map (f : α → β) (shape index : List Nat) (xs : List α) :
    at? shape index (xs.map f) = (at? shape index xs).map f := by
  induction shape generalizing index xs with
  | nil => cases index <;> simp [at?]
  | cons n shape ih =>
    cases index with
    | nil => rfl
    | cons i index =>
      rw [at?, at?, block_map, ih]
      split <;> rfl

theorem at?_eq_getElem? {index shape : List Nat} (h : Within index shape) (xs : List α) :
    at? shape index xs = xs[offset shape index]? := by
  induction h generalizing xs with
  | nil => exact List.head?_eq_getElem?
  | cons hi hw ih => rw [at?_cons hi, ih, getElem?_block (offset_lt hw), offset]

theorem within_of_at?_eq_some {index shape : List Nat} {xs : List α} {x : α}
    (h : at? shape index xs = some x) : Within index shape := by
  induction shape generalizing index xs with
  | nil =>
    cases index with
    | nil => exact .nil
    | cons i index => simp [at?] at h
  | cons n shape ih =>
    cases index with
    | nil => simp [at?] at h
    | cons i index =>
      rw [at?] at h
      split at h
      · exact .cons ‹_› (ih h)
      · cases h

theorem mem_of_at?_eq_some {index shape : List Nat} {xs : List α} {x : α}
    (h : at? shape index xs = some x) : x ∈ xs := by
  rw [at?_eq_getElem? (within_of_at?_eq_some h)] at h
  exact List.mem_of_getElem? h

theorem exists_at?_eq_some {index shape : List Nat} {xs : List α}
    (hx : xs.length = cellCount shape) (h : Within index shape) :
    ∃ x, at? shape index xs = some x := by
  rw [at?_eq_getElem? h]
  exact ⟨_, List.getElem?_eq_getElem (hx ▸ offset_lt h)⟩

theorem getElem?_eq_at? {shape : List Nat} {k : Nat} (hk : k < cellCount shape) (xs : List α) :
    xs[k]? = at? shape (digits shape k) xs := by
  rw [at?_eq_getElem? (within_digits (Nat.zero_lt_of_lt hk) k), offset_digits hk]

theorem eq_of_at?_eq {shape : List Nat} {xs ys : List α} (hx : xs.length = cellCount shape)
    (hy : ys.length = cellCount shape)
    (h : ∀ index, Within index shape → at? shape index xs = at? shape index ys) : xs = ys := by
  apply List.ext_getElem?
  intro k
  by_cases hk : k < cellCount shape
  · rw [getElem?_eq_at? hk, getElem?_eq_at? hk]
    exact h _ (within_digits (Nat.zero_lt_of_lt hk) k)
  · rw [List.getElem?_eq_none (by omega), List.getElem?_eq_none (by omega)]

theorem at?_append_flatMap {shape inner : List Nat} {xs : List β} {f : β → List α}
    (hx : xs.length = cellCount shape) (hf : ∀ x ∈ xs, (f x).length = cellCount inner)
    {index : List Nat} (hi : index.length = shape.length) (rest : List Nat) :
    at? (shape ++ inner) (index ++ rest) (xs.flatMap f) =
      (at? shape index xs).bind fun x => at? inner rest (f x) := by
  induction shape generalizing index xs with
  | nil =>
    obtain ⟨x, rfl⟩ := List.length_eq_one_iff.1 hx
    rw [List.length_eq_zero_iff.1 hi]
    simp [at?]
  | cons n shape ih =>
    cases index with
    | nil => simp at hi
    | cons i index =>
      rw [List.cons_append, List.cons_append, at?, at?]
      split
      · have hb : (block (cellCount shape) i xs).length = cellCount shape :=
          length_block (by rw [hx, cellCount_cons]) ‹_›
        -- A block of the joined shape is made of the cells of one block of the outer shape.
        rw [cellCount_append, block_flatMap hf]
        refine ih hb (fun x hx => hf x ?_) (by simpa using hi)
        exact List.mem_of_mem_drop (List.mem_of_mem_take hx)
      · rfl

end SimCampaign.Grid
