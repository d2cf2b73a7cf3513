import Mathlib.Tactic.SplitIfs
import SimCampaign.Grid.Shape

/-! How many cells a shape has, and which numbers of cells fit it. -/

namespace SimCampaign.Grid
variable {shape : List Nat}

theorem cellCount_cons (n : Nat) (shape : List Nat) :
    cellCount (n :: shape) = n * cellCount shape := rfl

theorem cellCount_append (shape inner : List Nat) :
    cellCount (shape ++ inner) = cellCount shape * cellCount inner := by
  induction shape with
  | nil => exact (Nat.one_mul _).symm
  | cons n shape ih => rw [List.cons_append, cellCount_cons, cellCount_cons, ih, Nat.mul_assoc]

theorem cellCount_eq_zero : cellCount shape = 0 ↔ 0 ∈ shape := by
  induction shape with
  | nil => simp [cellCount]
  | cons n shape ih => rw [cellCount_cons, Nat.mul_eq_zero, ih, List.mem_cons, eq_comm]

/-- Indices address the shape. Only an empty dimension leaves that open. -/
def Addressable (shape : List Nat) : Prop := 0 ∈ shape → volume shape ≤ maxVolume

instance (shape : List Nat) : Decidable (Addressable shape) :=
  inferInstanceAs (Decidable (_ → _))

theorem volume_cons {n : Nat} (hn : n ≠ 0) (shape : List Nat) :
    volume (n :: shape) = n * volume shape := by
  rw [volume, List.filter_cons_of_pos (by simpa using hn), cellCount_cons]
  rfl

theorem volume_append (shape inner : List Nat) :
    volume (shape ++ inner) = volume shape * volume inner := by
  rw [volume, List.filter_append, cellCount_append]
  rfl

theorem volume_eq_cellCount (h : 0 ∉ shape) : volume shape = cellCount shape := by
  have hf : shape.filter (· != 0) = shape := List.filter_eq_self.2 fun n hn => by
    simpa using fun h0 : n = 0 => h (h0 ▸ hn)
  rw [volume, hf]

theorem Addressable.one {inner : List Nat} {n : Nat} (h : Addressable (shape ++ n :: inner))
    (hn : n ≠ 0) : Addressable (shape ++ 1 :: inner) := by
  intro hz
  have hle : volume (shape ++ 1 :: inner) ≤ volume (shape ++ n :: inner) := by
    rw [volume_append, volume_append, volume_cons Nat.one_ne_zero, volume_cons hn]
    exact Nat.mul_le_mul_left _ (Nat.mul_le_mul_right _ (Nat.pos_of_ne_zero hn))
  refine Nat.le_trans hle (h ?_)
  rcases List.mem_append.1 hz with hz | hz
  · exact List.mem_append_left _ hz
  · rcases List.mem_cons.1 hz with hz | hz
    · cases hz
    · exact List.mem_append_right _ (List.mem_cons_of_mem _ hz)

theorem misfit?_of_addressable (h : Addressable shape) :
    misfit? shape (cellCount shape) = none := by
  have hv : ¬ (maxVolume < volume shape ∧ cellCount shape < volume shape) := by
    rintro ⟨hm, hc⟩
    by_cases hz : 0 ∈ shape
    · exact Nat.not_lt.2 (h hz) hm
    · rw [volume_eq_cellCount hz] at hc
      exact Nat.lt_irrefl _ hc
  rw [misfit?, if_neg hv, if_neg (Nat.lt_irrefl _), if_neg (Nat.lt_irrefl _)]

theorem misfit?_of_not_addressable (h : ¬ Addressable shape) :
    misfit? shape (cellCount shape) = some .overflow := by
  obtain ⟨hz, hv⟩ := Classical.not_imp.1 h
  have hm : maxVolume < volume shape := Nat.lt_of_not_le hv
  rw [misfit?, cellCount_eq_zero.2 hz, if_pos ⟨hm, Nat.zero_lt_of_lt hm⟩]

theorem eq_cellCount_of_misfit?_eq_none {count : Nat} (h : misfit? shape count = none) :
    count = cellCount shape := by
  unfold misfit? at h
  split_ifs at h
  omega

theorem addressable_of_misfit?_eq_none {count : Nat} (h : misfit? shape count = none) :
    Addressable shape := by
  refine Decidable.of_not_not fun hn => ?_
  rw [eq_cellCount_of_misfit?_eq_none h, misfit?_of_not_addressable hn] at h
  cases h

end SimCampaign.Grid
