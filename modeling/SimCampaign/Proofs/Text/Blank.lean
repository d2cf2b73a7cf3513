import Mathlib.Data.List.TakeWhile
import SimCampaign.Text.Blank

/-! Texts without blanks. -/

namespace SimCampaign.Text
variable {α : Type} {p : α → Bool}

theorem dropWhile_eq_self {xs : List α} (h : ∀ x ∈ xs, p x = false) : xs.dropWhile p = xs := by
  rw [List.dropWhile_eq_self_iff]
  intro hl
  simp [h xs[0] (List.getElem_mem hl)]

theorem dropEndWhile_eq_self {xs : List α} (h : ∀ x ∈ xs, p x = false) :
    dropEndWhile p xs = xs := by
  have hr : ∀ x ∈ xs.reverse, p x = false := fun x hx => h x (List.mem_reverse.1 hx)
  rw [dropEndWhile, dropWhile_eq_self hr, List.reverse_reverse]

theorem trim_eq_self {cs : List Char} (h : ∀ c ∈ cs, isBlank c = false) : trim cs = cs := by
  rw [trim, trimStart, dropWhile_eq_self h, dropEndWhile_eq_self h]

theorem isBlank_of_isDigit {c : Char} (h : c.isDigit = true) : isBlank c = false := by
  have hd : 48 ≤ c.toNat ∧ c.toNat ≤ 57 := by
    simp only [Char.isDigit, Bool.and_eq_true, decide_eq_true_eq, UInt32.le_iff_toNat_le, ge_iff_le]
      at h
    exact h
  simp only [isBlank, Bool.or_eq_false_iff, Bool.and_eq_false_iff, decide_eq_false_iff_not,
    beq_eq_false_iff_ne]
  omega

end SimCampaign.Text
