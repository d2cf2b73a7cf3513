import SimCampaign.Proofs.Table.Records

/-! Text that is made of lines. The records that are read are the lines that were written. -/

namespace SimCampaign.Table

/-- The fields of a line, and how many row separators follow it. -/
structure Line where
  fields : List String
  ends : Nat

namespace Line

def chars (f : Format) (l : Line) : List Char :=
  List.intercalate [Char.ofUInt8 f.columnSep] (l.fields.map String.toList)

def endedChars (f : Format) (l : Line) : List Char :=
  l.chars f ++ List.replicate l.ends (Char.ofUInt8 f.rowSep)

end Line

/-- Lines after a number of row separators. -/
def linesText (f : Format) (before : Nat) (lines : List Line) : String :=
  String.ofList (List.replicate before (Char.ofUInt8 f.rowSep) ++ lines.flatMap (Line.endedChars f))

/-- No field holds a separator, no line is empty, every line but the last is ended, and the first
field does not start with the mark that is dropped from a text. -/
structure Legible (f : Format) (lines : List Line) : Prop where
  unseparated : ∀ l ∈ lines, ∀ s ∈ l.fields, ∀ c ∈ s.toList,
    isSep f.columnSep c = false ∧ isSep f.rowSep c = false
  visible : ∀ l ∈ lines, l.chars f ≠ []
  ended : ∀ l ∈ lines.dropLast, 0 < l.ends
  unmarked : ∀ l ∈ lines.head?, ∀ s ∈ l.fields.head?, s.toList.head? ≠ some byteOrderMark

section Separators

theorem toNat_ofUInt8 (sep : UInt8) : (Char.ofUInt8 sep).toNat = sep.toNat :=
  UInt8.toNat_toUInt32 sep

theorem isSep_eq (sep : UInt8) : isSep sep = (· == Char.ofUInt8 sep) := by
  funext c
  rw [isSep, ← toNat_ofUInt8 sep, Bool.eq_iff_iff, beq_iff_eq, beq_iff_eq, Char.toNat_inj]

theorem isSep_ofUInt8 (sep : UInt8) : isSep sep (Char.ofUInt8 sep) = true :=
  beq_iff_eq.2 (toNat_ofUInt8 sep)

theorem isSep_ofUInt8_of_ne {a b : UInt8} (h : b ≠ a) : isSep a (Char.ofUInt8 b) = false := by
  rw [isSep, toNat_ofUInt8]
  exact beq_false_of_ne fun he => h (UInt8.toNat_inj.1 he)

theorem ofUInt8_ne_byteOrderMark (sep : UInt8) : Char.ofUInt8 sep ≠ byteOrderMark := by
  intro he
  have hlt := sep.toNat_lt
  have hn : sep.toNat = 0xfeff := by
    rw [← toNat_ofUInt8, he]
    rfl
  omega

theorem mem_intercalate {sep c : Char} {ls : List (List Char)} (h : c ∈ [sep].intercalate ls) :
    c = sep ∨ ∃ l ∈ ls, c ∈ l := by
  induction ls with
  | nil => cases h
  | cons l ls ih =>
    cases ls with
    | nil => exact .inr ⟨l, List.mem_singleton_self l, by simpa using h⟩
    | cons l' ls =>
      rw [List.intercalate_cons_cons, List.append_assoc, List.mem_append, List.mem_append,
        List.mem_singleton] at h
      rcases h with h | h | h
      · exact .inr ⟨l, List.mem_cons_self .., h⟩
      · exact .inl h
      · rcases ih h with h | ⟨m, hm, hc⟩
        · exact .inl h
        · exact .inr ⟨m, List.mem_cons_of_mem _ hm, hc⟩

end Separators

variable {f : Format} {l : Line} {lines : List Line}

namespace Line

theorem fields_ne_nil (h : l.chars f ≠ []) : l.fields ≠ [] := by
  intro he
  apply h
  rw [chars, he]
  rfl

theorem splitOnP_chars (hl : l.fields ≠ [])
    (h : ∀ s ∈ l.fields, ∀ c ∈ s.toList, isSep f.columnSep c = false) :
    (l.chars f).splitOnP (isSep f.columnSep) = l.fields.map String.toList := by
  have hsep : ∀ cs ∈ l.fields.map String.toList, Char.ofUInt8 f.columnSep ∉ cs := by
    intro cs hcs hm
    obtain ⟨s, hs, rfl⟩ := List.mem_map.1 hcs
    have hc := h s hs _ hm
    rw [isSep_ofUInt8] at hc
    cases hc
  rw [isSep_eq]
  exact List.splitOn_intercalate _ hsep (by simpa using hl)

theorem isSep_of_mem_chars (hs : f.columnSep ≠ f.rowSep)
    (h : ∀ s ∈ l.fields, ∀ c ∈ s.toList, isSep f.rowSep c = false) :
    ∀ c ∈ l.chars f, isSep f.rowSep c = false := by
  intro c hc
  rcases mem_intercalate hc with rfl | ⟨cs, hcs, hc⟩
  · exact isSep_ofUInt8_of_ne hs
  · obtain ⟨s, hs, rfl⟩ := List.mem_map.1 hcs
    exact h s hs c hc

theorem head?_chars (h : ∀ s ∈ l.fields.head?, s.toList.head? ≠ some byteOrderMark) :
    (l.chars f).head? ≠ some byteOrderMark := by
  obtain ⟨fields, ends⟩ := l
  have hsep := ofUInt8_ne_byteOrderMark f.columnSep
  cases fields with
  | nil => simp [chars]
  | cons s rest =>
    have hs : s.toList.head? ≠ some byteOrderMark := h s rfl
    cases rest with
    | nil => simpa [chars] using hs
    | cons s' rest =>
      -- After an empty first field the line starts with a separator.
      cases ht : s.toList with
      | nil => simpa [chars, List.intercalate_cons_cons, ht] using hsep
      | cons c cs => simpa [chars, List.intercalate_cons_cons, ht] using hs

end Line

namespace Legible

theorem records_eq (h : Legible f lines) (hs : f.columnSep ≠ f.rowSep) :
    records (isSep f.rowSep) (isSep f.columnSep) (lines.flatMap (Line.endedChars f)) =
      lines.map fun l => l.fields.map String.toList := by
  obtain ⟨hu, hv, he, -⟩ := h
  induction lines with
  | nil => rfl
  | cons l lines ih =>
    obtain ⟨hul, hu⟩ := List.forall_mem_cons.1 hu
    obtain ⟨hvl, hv⟩ := List.forall_mem_cons.1 hv
    have hsplit := Line.splitOnP_chars (Line.fields_ne_nil hvl) fun s hs c hc => (hul s hs c hc).1
    have hrow := Line.isSep_of_mem_chars hs fun s hs c hc => (hul s hs c hc).2
    have hend : 0 < l.ends ∨ lines.flatMap (Line.endedChars f) = [] := by
      cases lines with
      | nil => exact .inr rfl
      | cons l' lines => exact .inl (he l (List.mem_cons_self ..))
    have hrest : ∀ l ∈ lines.dropLast, 0 < l.ends := by
      cases lines with
      | nil => simp
      | cons l' lines => exact fun l hl => he l (List.mem_cons_of_mem _ hl)
    rw [List.flatMap_cons, Line.endedChars, List.append_assoc,
      records_line_append (isSep_ofUInt8 _) hvl hrow hend, hsplit, ih hu hv hrest]
    rfl

theorem head?_text (h : Legible f lines) (before : Nat) :
    (List.replicate before (Char.ofUInt8 f.rowSep) ++ lines.flatMap (Line.endedChars f)).head? ≠
      some byteOrderMark := by
  cases before with
  | succ n => simpa [List.replicate_succ] using ofUInt8_ne_byteOrderMark f.rowSep
  | zero =>
    cases lines with
    | nil => simp
    | cons l lines =>
      have hl := Line.head?_chars (f := f) (h.unmarked l rfl)
      obtain ⟨c, cs, hc⟩ := List.exists_cons_of_ne_nil (h.visible l (List.mem_cons_self ..))
      rw [hc] at hl
      simpa [Line.endedChars, hc] using hl

/-- Lines are read as they were written, however many row separators stand around them. -/
theorem parse_linesText (h : Legible f lines) (ha : f.isAscii = true)
    (hs : f.columnSep ≠ f.rowSep) (before : Nat) :
    parse f (linesText f before lines) = ofRecords f (lines.map Line.fields) := by
  have hseps : ∀ c ∈ List.replicate before (Char.ofUInt8 f.rowSep), isSep f.rowSep c = true := by
    intro c hc
    rw [(List.mem_replicate.1 hc).2]
    exact isSep_ofUInt8 _
  have hr := (records_separators_append hseps).trans (h.records_eq hs)
  rw [parse, if_pos ha, linesText, String.toList_ofList, parseText_eq, textRecords,
    dropMark_eq (h.head?_text before), hr, List.map_map]
  congr 1
  refine List.map_congr_left fun l _ => ?_
  simp [Function.comp_def]

end Legible

end SimCampaign.Table
