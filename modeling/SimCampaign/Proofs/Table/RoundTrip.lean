import SimCampaign.Proofs.Table.Lines
import SimCampaign.Proofs.Table.Rows

/-! Tables read back from the text of their rows. -/

namespace SimCampaign.Table

variable {f : Format} {header : Line} {rows : List Line}

theorem ofRecords_cons {names : List String} {rows : List (List String)} (hh : f.header? = none) :
    ofRecords f (names :: rows) = ofRows names f.numeric rows := by
  simp only [ofRecords, hh]

theorem fields_width (hw : ∀ r ∈ rows, r.fields.length = header.fields.length) :
    ∀ fields ∈ rows.map Line.fields, fields.length = header.fields.length := by
  intro fields hfields
  obtain ⟨r, hr, rfl⟩ := List.mem_map.1 hfields
  exact hw r hr

theorem Legible.exists_parse (h : Legible f (header :: rows)) (ha : f.isAscii = true)
    (hs : f.columnSep ≠ f.rowSep) (hh : f.header? = none)
    (hw : ∀ r ∈ rows, r.fields.length = header.fields.length) (hm : 2 ≤ rows.length)
    (hmissing : missingColumn? header.fields f.numeric = none)
    (hn : ∀ (j : Nat) (name : String), header.fields[j]? = some name →
      f.numeric.contains name = true →
        ∀ r ∈ rows, ∀ s ∈ r.fields[j]?, ∃ x, number? s = some x) (before : Nat) :
    ∃ t, parse f (linesText f before (header :: rows)) = .ok t ∧
      t.Holds header.fields (rows.map Line.fields) f.numeric := by
  rw [h.parse_linesText ha hs before, List.map_cons, ofRecords_cons hh]
  refine exists_ofRows (by simpa using hm) (fields_width hw) hmissing fun j name hj hc => ?_
  intro fields hfields
  obtain ⟨r, hr, rfl⟩ := List.mem_map.1 hfields
  exact hn j name hj hc r hr

/-- Reading undoes writing. Nothing but the separators has a meaning within a line, and lines may
be followed by any number of separators. -/
theorem columns_of_lines (ha : f.isAscii = true) (hs : f.columnSep ≠ f.rowSep)
    (hh : f.header? = none) (h : Legible f (header :: rows))
    (hw : ∀ r ∈ rows, r.fields.length = header.fields.length) (hm : 2 ≤ rows.length)
    (before : Nat) :
    (∃ t, parse { f with numeric := .named [] } (linesText f before (header :: rows)) = .ok t ∧
      t.Holds header.fields (rows.map Line.fields) (.named [])) ∧
    ((∀ r ∈ rows, ∀ s ∈ r.fields, ∃ x, number? s = some x) →
      ∃ t, parse { f with numeric := .all } (linesText f before (header :: rows)) = .ok t ∧
        t.Holds header.fields (rows.map Line.fields) .all) := by
  -- The separators alone say what a line looks like.
  have hlegible (numeric : Selection) : Legible { f with numeric } (header :: rows) :=
    ⟨h.unseparated, h.visible, h.ended, h.unmarked⟩
  constructor
  · have hmissing : missingColumn? header.fields (.named []) = none :=
      missingColumn?_named_eq_none (by simp)
    exact (hlegible (.named [])).exists_parse ha hs hh hw hm hmissing
      (fun j name hj hc => by cases hc) before
  · intro hn
    have hread : ∀ (j : Nat) (name : String), header.fields[j]? = some name →
        Selection.all.contains name = true →
          ∀ r ∈ rows, ∀ s ∈ r.fields[j]?, ∃ x, number? s = some x :=
      fun j name hj hc r hr s hget => hn r hr s (List.mem_of_getElem? hget)
    exact (hlegible .all).exists_parse ha hs hh hw hm rfl hread before

/-- The last line need not end, and blank lines may stand between the others. -/
def tabbed : List Line :=
  [⟨["α\"", ""], 3⟩, ⟨[" 1e3 ", "nan"], 1⟩, ⟨["-7\r", ".5"], 0⟩]

theorem columns_of_tabbed :
    let f : Format := { columnSep := 9, rowSep := 59 }
    (∃ t, parse { f with numeric := .named [] } (linesText f 2 tabbed) = .ok t ∧
      t.Holds ["α\"", ""] [[" 1e3 ", "nan"], ["-7\r", ".5"]] (.named [])) ∧
    ∃ t, parse { f with numeric := .all } (linesText f 2 tabbed) = .ok t ∧
      t.Holds ["α\"", ""] [[" 1e3 ", "nan"], ["-7\r", ".5"]] .all := by
  have hseps : (tabbed.all fun l => l.fields.all fun s => s.toList.all fun c =>
      !isSep 9 c && !isSep 59 c) = true := by decide
  have hlegible : Legible { columnSep := 9, rowSep := 59 } tabbed :=
    ⟨by simpa only [List.all_eq_true, Bool.and_eq_true, Bool.not_eq_true'] using hseps,
      by decide, by decide, by decide⟩
  have hnumbers : ∀ s ∈ [" 1e3 ", "nan", "-7\r", ".5"], (number? s).isSome = true := by
    decide +kernel
  obtain ⟨htext, hnumeric⟩ :=
    columns_of_lines rfl (by decide) rfl hlegible (by decide) (by decide) 2
  refine ⟨htext, hnumeric fun r hr s hs => Option.isSome_iff_exists.1 (hnumbers s ?_)⟩
  simp only [List.mem_cons, List.not_mem_nil, or_false] at hr
  rcases hr with rfl | rfl
  · exact List.mem_append_left ["-7\r", ".5"] hs
  · exact List.mem_append_right [" 1e3 ", "nan"] hs

end SimCampaign.Table
