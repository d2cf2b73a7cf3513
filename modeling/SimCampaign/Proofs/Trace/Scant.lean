import SimCampaign.Proofs.Table.Outcome
import SimCampaign.Trace.Packets

/-! Texts with too few lines to hold packets. -/

namespace SimCampaign

/-- The lines of a text that are not empty. Only a line feed ends a line. -/
def Text.filledLines (cs : List Char) : List (List Char) :=
  (cs.splitOn '\n').filter (!·.isEmpty)

theorem Text.length_filledLines_dropMark (cs : List Char) :
    (filledLines (Table.dropMark cs)).length ≤ (filledLines cs).length := by
  cases cs with
  | nil => exact Nat.le_refl _
  | cons c cs =>
    rw [Table.dropMark]
    split
    · subst c
      -- The mark belongs to the first line, which may be empty without it.
      have hmark : (Table.byteOrderMark == '\n') = false := rfl
      have hmarked : (Table.byteOrderMark :: cs).splitOn '\n' =
          (cs.splitOn '\n').modifyHead (Table.byteOrderMark :: ·) := by
        rw [List.splitOn, List.splitOnP_cons_eq_if_modifyHead, hmark]
        rfl
      rw [filledLines, filledLines, hmarked]
      cases cs.splitOn '\n' with
      | nil => exact Nat.le_refl _
      | cons line lines =>
        have hfirst : ((Table.byteOrderMark :: line) :: lines).filter (!·.isEmpty) =
            (Table.byteOrderMark :: line) :: lines.filter (!·.isEmpty) := rfl
        rw [List.modifyHead_cons, hfirst, List.filter_cons]
        split
        · exact Nat.le_refl _
        · exact Nat.le_succ _
    · exact Nat.le_refl _

namespace PacketTrace

/-- Whether a text has a header and one more line at most. -/
def Scant (text : String) : Prop := (Text.filledLines text.toList).length ≤ 2

instance (text : String) : Decidable (Scant text) := inferInstanceAs (Decidable (_ ≤ _))

theorem length_lines_of_scant {text : String} (h : Scant text) :
    (Table.Format.lines {} text).length ≤ 2 := by
  have hlines := Text.length_filledLines_dropMark text.toList
  rw [Table.Format.lines, List.length_map]
  exact hlines.trans h

theorem parse_of_scant {text : String} (h : Scant text) : parse text = .ok [] := by
  have hrows : (Table.Format.data {} (Table.Format.lines {} text)).length ≤ 1 := by
    have hlines := length_lines_of_scant h
    change (Table.Format.lines {} text).tail.length ≤ 1
    rw [List.length_tail]
    omega
  rw [parse, Table.parse_of_few rfl hrows]
  rfl

end PacketTrace
end SimCampaign
