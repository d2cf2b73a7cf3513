import Mathlib.Data.List.TakeWhile
import SimCampaign.Table.Reader

/-! The records of a text of lines: one for each line, however many row separators stand around
it. -/

namespace SimCampaign.Text
variable {α : Type} {p : α → Bool}

theorem exists_append_dropEndWhile (p : α → Bool) (xs : List α) :
    ∃ dropped, xs = dropEndWhile p xs ++ dropped ∧ ∀ x ∈ dropped, p x = true := by
  refine ⟨(xs.reverse.takeWhile p).reverse, ?_, fun x hx => ?_⟩
  · rw [dropEndWhile, ← List.reverse_append, List.takeWhile_append_dropWhile, List.reverse_reverse]
  · exact List.mem_takeWhile_imp (List.mem_reverse.1 hx)

end SimCampaign.Text

namespace SimCampaign.Table

section Records
variable {α : Type} {isRow isColumn : α → Bool} {sep : α} {xs ys : List α}

theorem records_append_cons (h : isRow sep = true) (xs ys : List α) :
    records isRow isColumn (xs ++ sep :: ys) =
      records isRow isColumn xs ++ records isRow isColumn ys := by
  rw [records, List.splitOnP_append_cons xs ys h, List.filter_append, List.map_append]
  rfl

theorem records_nil : records isRow isColumn [] = [] := rfl

theorem records_separators_append (h : ∀ x ∈ xs, isRow x = true) :
    records isRow isColumn (xs ++ ys) = records isRow isColumn ys := by
  induction xs with
  | nil => rfl
  | cons x xs ih =>
    obtain ⟨hx, hxs⟩ := List.forall_mem_cons.1 h
    have hc : records isRow isColumn (x :: (xs ++ ys)) = records isRow isColumn (xs ++ ys) :=
      records_append_cons hx [] (xs ++ ys)
    rw [List.cons_append, hc, ih hxs]

theorem records_append_separators (h : ∀ y ∈ ys, isRow y = true) :
    records isRow isColumn (xs ++ ys) = records isRow isColumn xs := by
  cases ys with
  | nil => rw [List.append_nil]
  | cons y ys =>
    obtain ⟨hy, hys⟩ := List.forall_mem_cons.1 h
    have hr : records isRow isColumn ys = [] := by
      rw [← List.append_nil ys, records_separators_append hys, records_nil]
    rw [records_append_cons hy, hr, List.append_nil]

theorem records_line (hne : xs ≠ []) (h : ∀ x ∈ xs, isRow x = false) :
    records isRow isColumn xs = [xs.splitOnP isColumn] := by
  rw [records, List.splitOnP_eq_singleton h, List.filter_cons_of_pos (by simpa using hne)]
  rfl

theorem records_line_append {n : Nat} (hsep : isRow sep = true) (hne : xs ≠ [])
    (h : ∀ x ∈ xs, isRow x = false) (hn : 0 < n ∨ ys = []) :
    records isRow isColumn (xs ++ (List.replicate n sep ++ ys)) =
      xs.splitOnP isColumn :: records isRow isColumn ys := by
  have hrep (n : Nat) : ∀ x ∈ List.replicate n sep, isRow x = true := fun x hx =>
    (List.mem_replicate.1 hx).2 ▸ hsep
  cases n with
  | zero =>
    obtain rfl : ys = [] := hn.resolve_left (Nat.lt_irrefl 0)
    rw [List.append_nil, records_append_separators (hrep 0), records_line hne h]
    rfl
  | succ n =>
    rw [List.replicate_succ, List.cons_append, records_append_cons hsep,
      records_separators_append (hrep n), records_line hne h]
    rfl

end Records

section Text
variable {f : Format} {cs : List Char}

theorem isSep_byteOrderMark (sep : UInt8) : isSep sep byteOrderMark = false := by
  have hn : byteOrderMark.toNat = 0xfeff := rfl
  have hlt := sep.toNat_lt
  rw [isSep, hn, beq_eq_false_iff_ne]
  omega

theorem dropMark_eq (h : cs.head? ≠ some byteOrderMark) : dropMark cs = cs := by
  cases cs with
  | nil => rfl
  | cons c cs => exact if_neg fun hc => h (congrArg some hc)

theorem records_dropMark_append {dropped : List Char}
    (h : ∀ c ∈ dropped, isSep f.rowSep c = true) (cs : List Char) :
    records (isSep f.rowSep) (isSep f.columnSep) (dropMark (cs ++ dropped)) =
      records (isSep f.rowSep) (isSep f.columnSep) (dropMark cs) := by
  cases cs with
  | nil =>
    have hm : dropped.head? ≠ some byteOrderMark := by
      intro hd
      have hb := h byteOrderMark (List.mem_of_mem_head? hd)
      rw [isSep_byteOrderMark] at hb
      cases hb
    rw [List.nil_append, dropMark_eq hm, ← List.nil_append dropped, records_append_separators h,
      dropMark]
  | cons c cs =>
    rw [List.cons_append, dropMark, dropMark]
    split
    · exact records_append_separators h
    · rw [← List.cons_append, records_append_separators h]

theorem ofRecords_nil (f : Format) :
    ofRecords f [] = .ok (empty (f.header?.getD []) f.numeric) := by
  cases hh : f.header? <;> simp [ofRecords, ofRows, hh]

/-- The row separators at the end make no difference, since empty records are skipped. -/
theorem parseText_eq (f : Format) (cs : List Char) :
    parseText f cs = ofRecords f (textRecords f cs) := by
  obtain ⟨dropped, hcs, hd⟩ := Text.exists_append_dropEndWhile (isSep f.rowSep) cs
  have hr := records_dropMark_append hd (Text.dropEndWhile (isSep f.rowSep) cs)
  rw [← hcs] at hr
  rw [parseText, textRecords, hr]
  cases Text.dropEndWhile (isSep f.rowSep) cs with
  | nil => exact (ofRecords_nil f).symm
  | cons c kept => rfl

end Text

end SimCampaign.Table
