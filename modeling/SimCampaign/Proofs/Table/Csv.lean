import SimCampaign.Proofs.Table.RoundTrip
import SimCampaign.Proofs.Text.Csv

/-! Comma separated text without quotes, read as a table. -/

namespace SimCampaign.Table
open Text.Csv (Unquoted)

variable {numeric : Selection} {header : List String} {rows records : List (List String)}

/-- The separators of comma separated text, which are the default. -/
def commas (numeric : Selection) : Format := { numeric }

def lineOf (fields : List String) : Line := ⟨fields, 1⟩

theorem map_fields_lineOf (records : List (List String)) :
    (records.map lineOf).map Line.fields = records := by
  rw [List.map_map]
  exact List.map_id _

theorem render_eq_linesText (h : ∀ r ∈ records, ∀ s ∈ r, Unquoted s) :
    Text.Csv.render records = linesText (commas numeric) 0 (records.map lineOf) := by
  rw [Text.Csv.render, linesText, List.flatMap_map]
  refine congrArg String.ofList (List.flatMap_congr fun r hr => ?_)
  rw [Text.Csv.record_eq (h r hr)]
  rfl

theorem chars_ne_nil {f : Format} {l : Line} (h : 2 ≤ l.fields.length) : l.chars f ≠ [] := by
  obtain ⟨fields, ends⟩ := l
  cases fields with
  | nil => simp at h
  | cons s fields =>
    cases fields with
    | nil => simp at h
    | cons s' fields => simp [Line.chars, List.intercalate_cons_cons]

theorem legible_lineOf (h : ∀ r ∈ records, ∀ s ∈ r, Unquoted s)
    (hl : ∀ r ∈ records, 2 ≤ r.length)
    (hm : ∀ r ∈ records.head?, ∀ s ∈ r.head?, s.toList.head? ≠ some byteOrderMark) :
    Legible (commas numeric) (records.map lineOf) where
  unseparated := by
    intro l hl s hs c hc
    obtain ⟨r, hr, rfl⟩ := List.mem_map.1 hl
    obtain ⟨hcomma, hfeed⟩ := (h r hr s hs).ne hc
    rw [isSep_eq, isSep_eq]
    exact ⟨beq_false_of_ne hcomma, beq_false_of_ne hfeed⟩
  visible := by
    intro l hmem
    obtain ⟨r, hr, rfl⟩ := List.mem_map.1 hmem
    exact chars_ne_nil (hl r hr)
  ended := by
    intro l hl
    obtain ⟨r, -, rfl⟩ := List.mem_map.1 (List.dropLast_subset _ hl)
    exact Nat.one_pos
  unmarked := by
    intro l hl
    rw [List.head?_map, Option.mem_def, Option.map_eq_some_iff] at hl
    obtain ⟨r, hr, rfl⟩ := hl
    exact hm r hr

theorem exists_parse_render (h : ∀ r ∈ header :: rows, ∀ s ∈ r, Unquoted s)
    (hl : 2 ≤ header.length)
    (hm : ∀ s ∈ header.head?, s.toList.head? ≠ some byteOrderMark)
    (hw : ∀ r ∈ rows, r.length = header.length) (hn : 2 ≤ rows.length)
    (hmissing : missingColumn? header numeric = none)
    (hread : ∀ (j : Nat) (name : String), header[j]? = some name →
      numeric.contains name = true → ∀ r ∈ rows, ∀ s ∈ r[j]?, ∃ x, number? s = some x) :
    ∃ t, parse (commas numeric) (Text.Csv.render (header :: rows)) = .ok t ∧
      t.Holds header rows numeric := by
  have hlong : ∀ r ∈ header :: rows, 2 ≤ r.length := by
    intro r hr
    rcases List.mem_cons.1 hr with rfl | hr
    · exact hl
    · rw [hw r hr]
      exact hl
  have hlegible : Legible (commas numeric) (lineOf header :: rows.map lineOf) :=
    legible_lineOf h hlong fun r hr => by cases hr; exact hm
  have hwidth : ∀ l ∈ rows.map lineOf, l.fields.length = header.length := by
    intro l hl
    obtain ⟨r, hr, rfl⟩ := List.mem_map.1 hl
    exact hw r hr
  have hrows : ∀ (j : Nat) (name : String), header[j]? = some name →
      numeric.contains name = true →
        ∀ l ∈ rows.map lineOf, ∀ s ∈ l.fields[j]?, ∃ x, number? s = some x := by
    intro j name hj hname l hl
    obtain ⟨r, hr, rfl⟩ := List.mem_map.1 hl
    exact hread j name hj hname r hr
  have hsep : (44 : UInt8) ≠ 10 := by decide
  have ht := hlegible.exists_parse rfl hsep rfl hwidth (by simpa using hn) hmissing hrows 0
  rw [map_fields_lineOf] at ht
  rw [render_eq_linesText h]
  exact ht

end SimCampaign.Table
