import SimCampaign.Decimal.Layout

/-! The characters of a written number. -/

namespace SimCampaign.Decimal

theorem isDigit_of_mem_digitChars {n : Nat} {c : Char} (h : c ∈ digitChars n) :
    c.isDigit = true :=
  Nat.isDigit_of_mem_toDigits (by decide) (by decide) h

theorem isDigit_of_mem_zeros {n : Nat} {c : Char} (h : c ∈ zeros n) : c.isDigit = true := by
  obtain rfl := (List.mem_replicate.1 h).2
  decide

theorem mem_positional {d : Decimal} {c : Char} (h : c ∈ d.positional) :
    c.isDigit = true ∨ c = '.' := by
  have hds : ∀ c ∈ digitChars d.digits, c.isDigit = true := fun c => isDigit_of_mem_digitChars
  rw [positional] at h
  generalize digitChars d.digits = ds at h hds
  by_cases he : 0 ≤ d.exponent
  · simp only [if_pos he] at h
    rcases List.mem_append.1 h with h | h
    · exact .inl (hds c h)
    · split at h
      next => cases h
      next => exact .inl (isDigit_of_mem_zeros h)
  · simp only [if_neg he] at h
    split at h
    next =>
      rcases List.mem_cons.1 h with rfl | h
      · exact .inl rfl
      rcases List.mem_cons.1 h with rfl | h
      · exact .inr rfl
      rcases List.mem_append.1 h with h | h
      · exact .inl (isDigit_of_mem_zeros h)
      · exact .inl (hds c h)
    next =>
      rcases List.mem_append.1 h with h | h
      · exact .inl (hds c (List.mem_of_mem_take h))
      rcases List.mem_cons.1 h with rfl | h
      · exact .inr rfl
      · exact .inl (hds c (List.mem_of_mem_drop h))

/-- A point, a sign and the letters of what is not finite. -/
def plainMarks : List Char := ['.', '-', 'N', 'a', 'i', 'n', 'f']

theorem mem_plain {x : Float} {c : Char} (h : c ∈ (plain x).toList) :
    c.isDigit = true ∨ c ∈ plainMarks := by
  have hnan : "NaN".toList.all plainMarks.contains = true := by decide
  have hinf : ∀ negative : Bool,
      (if negative then "-inf" else "inf").toList.all plainMarks.contains = true := by decide
  rw [plain] at h
  split at h
  next => exact .inr (List.contains_iff_mem.1 (List.all_eq_true.1 hnan c h))
  next negative _ => exact .inr (List.contains_iff_mem.1 (List.all_eq_true.1 (hinf negative) c h))
  next negative m q _ =>
    rw [String.toList_ofList] at h
    rcases List.mem_append.1 h with h | h
    · cases negative with
      | false => cases h
      | true =>
        rw [List.mem_singleton.1 h]
        exact .inr (by decide)
    · rcases mem_positional h with h | rfl
      · exact .inl h
      · exact .inr (by decide)

end SimCampaign.Decimal
