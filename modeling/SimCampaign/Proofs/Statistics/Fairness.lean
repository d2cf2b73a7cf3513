import Mathlib.Algebra.BigOperators.Ring.List
import Mathlib.Algebra.Order.BigOperators.Group.List
import Mathlib.Algebra.Order.Field.Rat
import Mathlib.Tactic.FieldSimp
import Mathlib.Tactic.Linarith
import Mathlib.Tactic.NormNum
import Mathlib.Tactic.Ring
import SimCampaign.Statistics

/-! Jain's index of exact numbers: how far it is from one is how far the numbers are from their
mean. -/

namespace SimCampaign.Statistics
variable {xs ys : List ℚ} {c : ℚ}

def exactFairness (xs : List ℚ) : ℚ := fairnessOver 0 (xs.length : ℚ) xs

def squareSum (xs : List ℚ) : ℚ := (xs.map fun x => x * x).sum

section Sums

theorem sumFrom_zero (xs : List ℚ) : sumFrom 0 xs = xs.sum := List.sum_eq_foldl.symm

theorem squareSum_cons (x : ℚ) (xs : List ℚ) : squareSum (x :: xs) = x * x + squareSum xs := by
  rw [squareSum, List.map_cons, List.sum_cons, squareSum]

theorem length_pos_of_mem (hxs : ∃ x ∈ xs, x ≠ 0) : (0 : ℚ) < xs.length := by
  obtain ⟨x, hx, -⟩ := hxs
  exact_mod_cast List.length_pos_of_mem hx

theorem squareSum_pos (hxs : ∃ x ∈ xs, x ≠ 0) : 0 < squareSum xs := by
  obtain ⟨x, hx, hne⟩ := hxs
  have hnonneg : ∀ y ∈ xs.map fun x => x * x, 0 ≤ y := by
    rintro _ hy
    obtain ⟨x, -, rfl⟩ := List.mem_map.1 hy
    exact mul_self_nonneg x
  calc 0 < x * x := mul_self_pos.2 hne
    _ ≤ squareSum xs := List.single_le_sum hnonneg _ (List.mem_map_of_mem hx)

/-- The index is the square of the sum over as many sums of squares as there are numbers. -/
theorem exactFairness_eq (hxs : ∃ x ∈ xs, x ≠ 0) :
    exactFairness xs = xs.sum ^ 2 / (xs.length * squareSum xs) := by
  have hlen := (length_pos_of_mem hxs).ne'
  have hsquares := (squareSum_pos hxs).ne'
  rw [exactFairness, fairnessOver, sumFrom_zero, sumFrom_zero, ← squareSum]
  field_simp

theorem squareSum_le_sum_sq (h : ∀ x ∈ xs, 0 ≤ x) : squareSum xs ≤ xs.sum ^ 2 := by
  induction xs with
  | nil => exact (sq_nonneg _).trans_eq' rfl
  | cons x xs ih =>
    obtain ⟨hx, hxs⟩ := List.forall_mem_cons.1 h
    have hproduct : 0 ≤ x * xs.sum := mul_nonneg hx (List.sum_nonneg hxs)
    rw [squareSum_cons, List.sum_cons]
    linarith [ih hxs, add_sq x xs.sum, sq x]

theorem sum_sq_sub (xs : List ℚ) (m : ℚ) :
    (xs.map fun x => (x - m) ^ 2).sum = squareSum xs - 2 * m * xs.sum + xs.length * m ^ 2 := by
  induction xs with
  | nil => simp [squareSum]
  | cons x xs ih =>
    rw [List.map_cons, List.sum_cons, ih, squareSum_cons, List.sum_cons, List.length_cons]
    push_cast
    ring

end Sums

section Deviation

def deviation (xs : List ℚ) : ℚ := (xs.map fun x => (x - xs.sum / xs.length) ^ 2).sum

theorem deviation_eq (hlen : (0 : ℚ) < xs.length) :
    deviation xs = squareSum xs - xs.sum ^ 2 / xs.length := by
  rw [deviation, sum_sq_sub]
  field_simp
  ring

theorem sq_nonneg_of_mem_map {m x : ℚ} (hx : x ∈ xs.map fun x => (x - m) ^ 2) : 0 ≤ x := by
  obtain ⟨y, -, rfl⟩ := List.mem_map.1 hx
  exact sq_nonneg _

theorem deviation_nonneg (xs : List ℚ) : 0 ≤ deviation xs :=
  List.sum_nonneg fun _ hx => sq_nonneg_of_mem_map hx

theorem deviation_eq_zero_iff (hlen : (0 : ℚ) < xs.length) :
    deviation xs = 0 ↔ ∀ x ∈ xs, ∀ y ∈ xs, x = y := by
  constructor
  · intro h
    have hmean : ∀ x ∈ xs, x = xs.sum / xs.length := by
      intro x hx
      have hsq := List.all_zero_of_le_zero_le_of_sum_eq_zero (fun _ hy => sq_nonneg_of_mem_map hy) h
        (List.mem_map_of_mem hx)
      exact sub_eq_zero.1 (pow_eq_zero_iff two_ne_zero |>.1 hsq)
    intro x hx y hy
    rw [hmean x hx, hmean y hy]
  · intro h
    obtain ⟨c, hc⟩ : ∃ c, xs = List.replicate xs.length c := by
      cases xs with
      | nil => exact ⟨0, rfl⟩
      | cons c xs => exact ⟨c, List.eq_replicate_iff.2 ⟨rfl, fun x hx => h x hx c List.mem_cons_self⟩⟩
    have hmean : xs.sum / xs.length = c := by
      rw [hc, List.sum_replicate, List.length_replicate, nsmul_eq_mul, mul_div_cancel_left₀ c hlen.ne']
    rw [deviation, hmean, hc]
    simp

/-- How far the index is from one is the part of the squares that deviates from the mean. -/
theorem one_sub_exactFairness (hxs : ∃ x ∈ xs, x ≠ 0) :
    1 - exactFairness xs = deviation xs / squareSum xs := by
  have hlen := length_pos_of_mem hxs
  have hsquares := (squareSum_pos hxs).ne'
  rw [exactFairness_eq hxs, deviation_eq hlen]
  field_simp

theorem exactFairness_le_one (hxs : ∃ x ∈ xs, x ≠ 0) : exactFairness xs ≤ 1 := by
  have hdiff := one_sub_exactFairness hxs
  have hnonneg := div_nonneg (deviation_nonneg xs) (squareSum_pos hxs).le
  linarith

theorem exactFairness_eq_one_iff (hxs : ∃ x ∈ xs, x ≠ 0) :
    exactFairness xs = 1 ↔ ∀ x ∈ xs, ∀ y ∈ xs, x = y := by
  rw [← deviation_eq_zero_iff (length_pos_of_mem hxs), eq_comm, ← sub_eq_zero,
    one_sub_exactFairness hxs, div_eq_zero_iff, or_iff_left (squareSum_pos hxs).ne']

theorem one_div_length_le (h : ∀ x ∈ xs, 0 ≤ x) (hxs : ∃ x ∈ xs, x ≠ 0) :
    1 / (xs.length : ℚ) ≤ exactFairness xs := by
  have hlen := length_pos_of_mem hxs
  have hsquares := squareSum_pos hxs
  rw [exactFairness_eq hxs, div_le_div_iff₀ hlen (mul_pos hlen hsquares), one_mul, mul_comm (xs.sum ^ 2)]
  exact mul_le_mul_of_nonneg_left (squareSum_le_sum_sq h) hlen.le

end Deviation

section Shares

theorem sums_of_shares (hc : c ≠ 0) (h : ∀ x ∈ xs, x = c ∨ x = 0) :
    xs.sum = xs.count c * c ∧ squareSum xs = xs.count c * c ^ 2 := by
  induction xs with
  | nil => simp [squareSum]
  | cons x xs ih =>
    obtain ⟨hx, hxs⟩ := List.forall_mem_cons.1 h
    obtain ⟨hsum, hsquares⟩ := ih hxs
    rw [List.sum_cons, squareSum_cons, hsum, hsquares]
    rcases hx with rfl | rfl
    · rw [List.count_cons_self]
      push_cast
      constructor <;> ring
    · rw [List.count_cons_of_ne hc.symm, zero_add, zero_mul, zero_add]
      exact ⟨rfl, rfl⟩

theorem exactFairness_of_shares (hxs : ∃ x ∈ xs, x ≠ 0) (hc : c ≠ 0)
    (h : ∀ x ∈ xs, x = c ∨ x = 0) : exactFairness xs = xs.count c / xs.length := by
  obtain ⟨hsum, hsquares⟩ := sums_of_shares hc h
  have hcount : (xs.count c : ℚ) ≠ 0 := by
    intro h0
    have hpos := squareSum_pos hxs
    rw [hsquares, h0, zero_mul] at hpos
    exact hpos.false
  have hlen := (length_pos_of_mem hxs).ne'
  rw [exactFairness_eq hxs, hsum, hsquares]
  field_simp

end Shares

section Symmetry

theorem exactFairness_perm (h : xs.Perm ys) : exactFairness xs = exactFairness ys := by
  rw [exactFairness, exactFairness, fairnessOver, fairnessOver, sumFrom_zero, sumFrom_zero,
    sumFrom_zero, sumFrom_zero, h.sum_eq, (h.map _).sum_eq, h.length_eq]

theorem exactFairness_scale (hxs : ∃ x ∈ xs, x ≠ 0) (hc : c ≠ 0) :
    exactFairness (xs.map (c * ·)) = exactFairness xs := by
  have hscaled : ∃ x ∈ xs.map (c * ·), x ≠ 0 := by
    obtain ⟨x, hx, hne⟩ := hxs
    exact ⟨c * x, List.mem_map_of_mem hx, mul_ne_zero hc hne⟩
  have hsum : (xs.map (c * ·)).sum = c * xs.sum := by
    rw [List.sum_map_mul_left, List.map_id']
  have hsquares : squareSum (xs.map (c * ·)) = c ^ 2 * squareSum xs := by
    rw [squareSum, squareSum, List.map_map, ← List.sum_map_mul_left]
    refine congrArg List.sum (List.map_congr_left fun x _ => ?_)
    rw [Function.comp_apply]
    ring
  rw [exactFairness_eq hscaled, exactFairness_eq hxs, hsum, hsquares, List.length_map]
  field_simp

end Symmetry

/-- Of non-negative numbers that are not all zero, the index lies between one over their count and
one. It is one if and only if all are equal. If some are equal and the others are zero, it is the
part of those that are not. It depends on neither the order nor the unit of the numbers. -/
theorem exactFairness_range_and_symmetries (h : ∀ x ∈ xs, 0 ≤ x) (hxs : ∃ x ∈ xs, x ≠ 0) :
    1 / (xs.length : ℚ) ≤ exactFairness xs ∧ exactFairness xs ≤ 1 ∧
      (exactFairness xs = 1 ↔ ∀ x ∈ xs, ∀ y ∈ xs, x = y) ∧
      (∀ c > 0, (∀ x ∈ xs, x = c ∨ x = 0) → exactFairness xs = xs.count c / xs.length) ∧
      (∀ ys, xs.Perm ys → exactFairness ys = exactFairness xs) ∧
      ∀ c > 0, exactFairness (xs.map (c * ·)) = exactFairness xs := by
  refine ⟨one_div_length_le h hxs, exactFairness_le_one hxs, exactFairness_eq_one_iff hxs,
    fun c hc hshares => ?_, fun ys hys => ?_, fun c hc => ?_⟩
  · exact exactFairness_of_shares hxs hc.ne' hshares
  · exact (exactFairness_perm hys).symm
  · exact exactFairness_scale hxs hc.ne'

/-- Two of three stations have the same throughput and one has none. -/
theorem exactFairness_range_and_symmetries_twoOfThree :
    (∀ x ∈ [5 / 2, 0, 5 / 2], (0 : ℚ) ≤ x) ∧ (∃ x ∈ [5 / 2, 0, 5 / 2], x ≠ (0 : ℚ)) ∧
      exactFairness [5 / 2, 0, 5 / 2] = 2 / 3 ∧ exactFairness [5 / 2, 0, 5 / 2] ≠ 1 ∧
      exactFairness [0, 5 / 2, 5 / 2] = exactFairness [5 / 2, 0, 5 / 2] := by
  have h : ∀ x ∈ [5 / 2, 0, 5 / 2], (0 : ℚ) ≤ x := by decide +kernel
  have hxs : ∃ x ∈ [5 / 2, 0, 5 / 2], x ≠ (0 : ℚ) := by decide +kernel
  have hcount : [5 / 2, 0, 5 / 2].count (5 / 2 : ℚ) = 2 := by decide +kernel
  obtain ⟨-, -, hone, hshares, hperm, -⟩ := exactFairness_range_and_symmetries h hxs
  refine ⟨h, hxs, ?_, fun h1 => ?_, hperm _ (List.Perm.swap ..)⟩
  · rw [hshares (5 / 2) (by norm_num) (by decide +kernel), hcount]
    rfl
  · exact absurd (hone.1 h1) (by decide +kernel)

end SimCampaign.Statistics
