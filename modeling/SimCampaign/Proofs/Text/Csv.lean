import SimCampaign.Text.Csv

/-! Comma separated text without quotes. -/

namespace SimCampaign.Text.Csv

theorem needsQuotes_of_isDigit {c : Char} (h : c.isDigit = true) : needsQuotes c = false := by
  rw [← Bool.not_eq_true]
  intro hq
  simp only [needsQuotes, Bool.or_eq_true, beq_iff_eq] at hq
  rcases hq with ((rfl | rfl) | rfl) | rfl <;> exact absurd h (by decide)

def Unquoted (s : String) : Prop := s.toList.any needsQuotes = false

instance (s : String) : Decidable (Unquoted s) :=
  inferInstanceAs (Decidable (s.toList.any needsQuotes = false))

theorem unquoted_iff {s : String} : Unquoted s ↔ ∀ c ∈ s.toList, needsQuotes c = false := by
  rw [Unquoted, List.any_eq_false]
  simp

theorem Unquoted.ne {s : String} (h : Unquoted s) {c : Char} (hc : c ∈ s.toList) :
    c ≠ ',' ∧ c ≠ '\n' := by
  have hn := unquoted_iff.1 h c hc
  constructor <;>
  · rintro rfl
    exact absurd hn (by decide)

theorem field_eq {s : String} (h : Unquoted s) : field s = s.toList := by
  rw [Unquoted] at h
  rw [field, h]
  rfl

theorem record_eq {fields : List String} (h : ∀ s ∈ fields, Unquoted s) :
    record fields = [','].intercalate (fields.map String.toList) ++ ['\n'] := by
  rw [record, List.map_congr_left fun s hs => field_eq (h s hs)]

end SimCampaign.Text.Csv
