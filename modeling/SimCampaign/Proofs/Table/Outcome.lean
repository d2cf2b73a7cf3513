import SimCampaign.Proofs.First
import SimCampaign.Proofs.Table.Lines
import SimCampaign.Proofs.Table.Rows
import SimCampaign.Proofs.Text.ByteOrder

/-! What a text is read as: the table of its rows, or the first of their faults. -/

namespace SimCampaign.Table

def Selection.wanted : Selection → List String
  | .all => []
  | .named names => names

namespace Format

/-- The fields of the lines of a text, the mark in front of it dropped. What is empty is no line. -/
def lines (f : Format) (text : String) : List (List String) :=
  (((dropMark text.toList).splitOn (Char.ofUInt8 f.rowSep)).filter (!·.isEmpty)).map fun line =>
    (line.splitOn (Char.ofUInt8 f.columnSep)).map String.ofList

/-- Without explicit names, those in the first line. -/
def names (f : Format) (lines : List (List String)) : List String :=
  f.header?.getD (lines.headD [])

def data (f : Format) (lines : List (List String)) : List (List String) :=
  if f.header?.isSome then lines else lines.tail

end Format

/-- The field of a selected column in a row. -/
structure Cell (names : List String) (numeric : Selection) (rows : List (List String)) (j i : Nat)
    (name s : String) : Prop where
  name_eq : names[j]? = some name
  selected : numeric.contains name = true
  field : ∃ row, rows[i]? = some row ∧ row[j]? = some s

/-- What data rows under names are read as. A single row is never data. Of several faults, a row of
another length comes before a missing column, and that before a field that is no number. -/
inductive Outcome (names : List String) (numeric : Selection) (rows : List (List String)) :
    Except TableError Table → Prop
  | few {t : Table} (hm : rows.length ≤ 1) (ht : t.Holds names [] numeric) :
    Outcome names numeric rows (.ok t)
  | ragged {i : Nat} {row : List String} (hm : 1 < rows.length)
    (h : First (fun row => row.length ≠ names.length) rows i row) :
    Outcome names numeric rows (.error (.raggedRow i names.length row.length))
  | missing {name : String} (hm : 1 < rows.length)
    (hw : ∀ row ∈ rows, row.length = names.length) (h : name ∈ numeric.wanted)
    (hn : name ∉ names)
    (hl : ∀ w ∈ numeric.wanted, w ∉ names → Text.bytes name ≤ Text.bytes w) :
    Outcome names numeric rows (.error (.missingColumn name))
  | notNumeric {j i : Nat} {name s : String} (hm : 1 < rows.length)
    (hw : ∀ row ∈ rows, row.length = names.length) (hn : ∀ w ∈ numeric.wanted, w ∈ names)
    (hc : Cell names numeric rows j i name s) (hs : number? s = none)
    (hf : ∀ j' i' name' s', j' < j ∨ j' = j ∧ i' < i → Cell names numeric rows j' i' name' s' →
      ∃ x, number? s' = some x) :
    Outcome names numeric rows (.error (.notNumeric name i s))
  | table {t : Table} (hm : 1 < rows.length) (hw : ∀ row ∈ rows, row.length = names.length)
    (hn : ∀ w ∈ numeric.wanted, w ∈ names)
    (hc : ∀ j i name s, Cell names numeric rows j i name s → ∃ x, number? s = some x)
    (ht : t.Holds names rows numeric) : Outcome names numeric rows (.ok t)

variable {names : List String} {numeric : Selection} {rows : List (List String)} {name s : String}
  {i j : Nat}

theorem holds_empty (names : List String) (numeric : Selection) :
    (empty names numeric).Holds names [] numeric where
  names_eq := by
    rw [Table.names, empty, List.map_map]
    exact List.map_id' _
  rows_eq := rfl
  columns j name hj := by
    refine ⟨emptyColumn (numeric.contains name), ?_, ?_⟩
    · rw [empty, List.getElem?_map, hj]
      rfl
    · cases numeric.contains name with
      | false => exact .text .nil
      | true => exact .numeric .nil

section Faults

theorem raggedRow?_of_first {n : Nat} {row : List String}
    (h : First (fun row => row.length ≠ n) rows i row) :
    raggedRow? n rows = some (.raggedRow i n row.length) := by
  have hz := h.zipIdx.congr (q := fun p => decide (p.1.length ≠ n) = true) fun _ _ => by simp
  rw [raggedRow?, hz.find?_eq_some]
  rfl

theorem missingColumn?_eq_none (h : ∀ w ∈ numeric.wanted, w ∈ names) :
    missingColumn? names numeric = none := by
  cases numeric with
  | all => rfl
  | named wanted => exact missingColumn?_named_eq_none h

theorem exists_missingColumn? (h : ¬ ∀ w ∈ numeric.wanted, w ∈ names) :
    ∃ name ∈ numeric.wanted, name ∉ names ∧
      (∀ w ∈ numeric.wanted, w ∉ names → Text.bytes name ≤ Text.bytes w) ∧
      missingColumn? names numeric = some (.missingColumn name) := by
  cases numeric with
  | all => exact absurd (fun w hw => nomatch hw) h
  | named wanted =>
    have hmem : ∀ w, w ∈ (wanted.filter (!names.contains ·)).mergeSort (fun a b => decide (a ≤ b)) ↔
        w ∈ wanted ∧ w ∉ names := by simp
    have hsorted : ((wanted.filter (!names.contains ·)).mergeSort
        fun a b => decide (a ≤ b)).Pairwise fun a b => decide (a ≤ b) = true :=
      List.pairwise_mergeSort
        (fun a b c hab hbc => by simpa using String.le_trans (by simpa using hab) (by simpa using hbc))
        (fun a b => by simpa using String.le_total a b) _
    rw [missingColumn?]
    generalize (wanted.filter (!names.contains ·)).mergeSort (fun a b => decide (a ≤ b)) = ws
      at hmem hsorted ⊢
    cases ws with
    | nil =>
      have hall : ∀ w ∈ wanted, w ∈ names := fun w hw => by
        by_contra hn
        exact List.not_mem_nil ((hmem w).2 ⟨hw, hn⟩)
      exact absurd hall h
    | cons name ws =>
      obtain ⟨hw, hn⟩ := (hmem name).1 (List.mem_cons_self ..)
      refine ⟨name, hw, hn, fun w hw hn => Text.bytes_le_iff.2 ?_, rfl⟩
      rcases List.mem_cons.1 ((hmem w).2 ⟨hw, hn⟩) with rfl | hmem
      · exact String.le_refl w
      · simpa using (List.pairwise_cons.1 hsorted).1 w hmem

theorem missingColumn?_of_least (h : name ∈ numeric.wanted) (hn : name ∉ names)
    (hl : ∀ w ∈ numeric.wanted, w ∉ names → Text.bytes name ≤ Text.bytes w) :
    missingColumn? names numeric = some (.missingColumn name) := by
  obtain ⟨least, hw, hln, hleast, hm⟩ := exists_missingColumn? fun hall => hn (hall name h)
  have hle : name ≤ least := Text.bytes_le_iff.1 (hl least hw hln)
  have hge : least ≤ name := Text.bytes_le_iff.1 (hleast name h hn)
  rw [hm, String.le_antisymm hge hle]

theorem numbers_of_first {vs : List String} (h : First (fun s => number? s = none) vs i s) :
    numbers name vs.zipIdx = .error (.notNumeric name i s) := by
  refine (h.zipIdx.congr fun p _ => ?_).mapM_eq_error ?_
  · rw [number?]
    cases hx : Decimal.float? (Text.trim p.1.toList) <;> simp [hx]
  · have hs := h.holds
    rw [number?] at hs
    simp only [hs]

theorem exists_ofRows_of_cells (hm : 1 < rows.length)
    (hw : ∀ row ∈ rows, row.length = names.length) (hn : ∀ w ∈ numeric.wanted, w ∈ names)
    (hc : ∀ j i name s, Cell names numeric rows j i name s → ∃ x, number? s = some x) :
    ∃ t, ofRows names numeric rows = .ok t ∧ t.Holds names rows numeric := by
  refine exists_ofRows hm hw (missingColumn?_eq_none hn) fun j name hj hsel row hrow s hs => ?_
  obtain ⟨i, hi⟩ := List.mem_iff_getElem?.1 hrow
  exact hc j i name s ⟨hj, hsel, row, hi, hs⟩

section Column
variable (hw : ∀ row ∈ rows, row.length = names.length)
include hw

theorem lt_length_of_name (hj : names[j]? = some name) : ∀ row ∈ rows, j < row.length :=
  fun row hrow => hw row hrow ▸ (List.getElem?_eq_some_iff.1 hj).1

theorem readColumn_of_numbers (hj : names[j]? = some name)
    (hc : ∀ i s, Cell names numeric rows j i name s → ∃ x, number? s = some x) :
    ∃ c, readColumn numeric rows name j = .ok c := by
  have hn : numeric.contains name = true →
      ∀ row ∈ rows, ∀ s ∈ row[j]?, ∃ x, number? s = some x := by
    intro hsel row hrow s hs
    obtain ⟨i, hi⟩ := List.mem_iff_getElem?.1 hrow
    exact hc i s ⟨hj, hsel, row, hi, hs⟩
  obtain ⟨c, hc, -⟩ := exists_readColumn (lt_length_of_name hw hj) hn
  exact ⟨c, hc⟩

theorem readColumn_of_notNumeric (hc : Cell names numeric rows j i name s) (hs : number? s = none)
    (hf : ∀ i' < i, ∀ s', Cell names numeric rows j i' name s' → ∃ x, number? s' = some x) :
    readColumn numeric rows name j = .error (.notNumeric name i s) := by
  obtain ⟨hj, hsel, row, hi, hget⟩ := hc
  have hfield (i : Nat) (row : List String) (hi : rows[i]? = some row) :
      row[j]? = some (row.getD j "") := by
    have hlt := lt_length_of_name hw hj row (List.mem_of_getElem? hi)
    rw [List.getD_eq_getElem?_getD, List.getElem?_eq_getElem hlt, Option.getD_some]
  have hfirst : First (fun s => number? s = none) (rows.map fun row => row.getD j "") i s := by
    refine ⟨?_, hs, fun i' hi' s' hs' hnone => ?_⟩
    · rw [List.getElem?_map, hi, Option.map_some, ← hfield i row hi, hget]
    · rw [List.getElem?_map, Option.map_eq_some_iff] at hs'
      obtain ⟨row', hrow', rfl⟩ := hs'
      obtain ⟨x, hx⟩ := hf i' hi' _ ⟨hj, hsel, row', hrow', hfield i' row' hrow'⟩
      rw [hnone] at hx
      cases hx
  rw [readColumn, hsel]
  simp only [if_true, numbers_of_first hfirst]
  rfl

/-- The first column that fails is that of the first field, column by column, that is no number. -/
theorem first_column_of_notNumeric (hc : Cell names numeric rows j i name s)
    (hs : number? s = none)
    (hf : ∀ j' i' name' s', j' < j ∨ j' = j ∧ i' < i → Cell names numeric rows j' i' name' s' →
      ∃ x, number? s' = some x) :
    First (fun p => ∃ e, readColumn numeric rows p.1 p.2 = .error e) names.zipIdx j (name, j) where
  getElem? := by
    rw [List.getElem?_zipIdx, hc.name_eq]
    simp
  holds := ⟨_, readColumn_of_notNumeric hw hc hs fun i' hi' s' => hf j i' name s' (.inr ⟨rfl, hi'⟩)⟩
  before := by
    rintro j' hj' ⟨name', k⟩ hp ⟨e, he⟩
    rw [List.getElem?_zipIdx, Option.map_eq_some_iff] at hp
    obtain ⟨_, hname, hk⟩ := hp
    obtain ⟨rfl, rfl⟩ := Prod.mk.inj hk
    obtain ⟨c, hread⟩ := readColumn_of_numbers hw hname fun i' s' => hf j' i' _ s' (.inl hj')
    rw [Nat.zero_add, hread] at he
    cases he

end Column

end Faults

theorem ofRows_of_outcome {r : Except TableError Table} (h : Outcome names numeric rows r) :
    ofRows names numeric rows = r := by
  cases h with
  | few hm ht => rw [ofRows, if_pos hm, (holds_empty names numeric).unique ht]
  | ragged hm hfirst => rw [ofRows, if_neg (Nat.not_le.2 hm), raggedRow?_of_first hfirst]
  | missing hm hw hmem hn hl =>
    rw [ofRows, if_neg (Nat.not_le.2 hm), raggedRow?_eq_none_iff.2 hw,
      missingColumn?_of_least hmem hn hl]
  | @notNumeric j i name s hm hw hn hc hs hf =>
    have hcolumn : readColumn numeric rows name j = .error (.notNumeric name i s) :=
      readColumn_of_notNumeric hw hc hs fun i' hi' s' => hf j i' name s' (.inr ⟨rfl, hi'⟩)
    have hfirst := (first_column_of_notNumeric hw hc hs hf).congr (q := fun p => ∃ e,
      (do .ok (p.1, ← readColumn numeric rows p.1 p.2) : Except TableError (String × Column)) =
        .error e) fun p _ => by cases readColumn numeric rows p.1 p.2 <;> simp [bind, Except.bind]
    have hcolumns := hfirst.mapM_eq_error (by rw [hcolumn]; rfl)
    rw [ofRows, if_neg (Nat.not_le.2 hm), raggedRow?_eq_none_iff.2 hw, missingColumn?_eq_none hn]
    simp only [hcolumns]
    rfl
  | table hm hw hn hc ht =>
    obtain ⟨u, hu, hholds⟩ := exists_ofRows_of_cells hm hw hn hc
    rw [hu, hholds.unique ht]

theorem exists_first_cell (h : ∃ j i name s, Cell names numeric rows j i name s ∧ number? s = none) :
    ∃ j i name s, Cell names numeric rows j i name s ∧ number? s = none ∧
      ∀ j' i' name' s', j' < j ∨ j' = j ∧ i' < i → Cell names numeric rows j' i' name' s' →
        ∃ x, number? s' = some x := by
  obtain ⟨j, i, ⟨name, s, hc, hs⟩, hf⟩ := exists_first_pair h
  refine ⟨j, i, name, s, hc, hs, fun j' i' name' s' hlt hc' => ?_⟩
  rw [← Option.ne_none_iff_exists']
  exact fun hs' => hf j' i' hlt ⟨name', s', hc', hs'⟩

theorem exists_outcome (names : List String) (numeric : Selection) (rows : List (List String)) :
    ∃ r, Outcome names numeric rows r := by
  by_cases hm : rows.length ≤ 1
  · exact ⟨_, .few hm (holds_empty names numeric)⟩
  rw [Nat.not_le] at hm
  by_cases hw : ∀ row ∈ rows, row.length = names.length
  · by_cases hn : ∀ w ∈ numeric.wanted, w ∈ names
    · by_cases hc : ∃ j i name s, Cell names numeric rows j i name s ∧ number? s = none
      · obtain ⟨j, i, name, s, hc, hs, hf⟩ := exists_first_cell hc
        exact ⟨_, .notNumeric hm hw hn hc hs hf⟩
      · have hnumbers : ∀ j i name s, Cell names numeric rows j i name s →
            ∃ x, number? s = some x := by
          intro j i name s hcell
          rw [← Option.ne_none_iff_exists']
          exact fun hs => hc ⟨j, i, name, s, hcell, hs⟩
        obtain ⟨t, -, ht⟩ := exists_ofRows_of_cells hm hw hn hnumbers
        exact ⟨_, .table hm hw hn hnumbers ht⟩
    · obtain ⟨name, hmem, hname, hl, -⟩ := exists_missingColumn? hn
      exact ⟨_, .missing hm hw hmem hname hl⟩
  · simp only [not_forall] at hw
    obtain ⟨row, hrow, hl⟩ := hw
    obtain ⟨i, row, hfirst⟩ :=
      First.exists_of_mem (p := fun row => row.length ≠ names.length) hrow hl
    exact ⟨_, .ragged hm hfirst⟩

theorem ofRows_eq_iff_outcome {r : Except TableError Table} :
    ofRows names numeric rows = r ↔ Outcome names numeric rows r := by
  refine ⟨?_, ofRows_of_outcome⟩
  rintro rfl
  obtain ⟨r, hr⟩ := exists_outcome names numeric rows
  rwa [ofRows_of_outcome hr]

section Text
variable {f : Format} {text : String}

theorem Format.lines_eq (f : Format) (text : String) :
    f.lines text = textRecords f text.toList := by
  rw [Format.lines, textRecords, records, isSep_eq, isSep_eq, List.map_map]
  rfl

theorem ofRecords_eq (f : Format) (records : List (List String)) :
    ofRecords f records = ofRows (f.names records) f.numeric (f.data records) := by
  rw [Format.names, Format.data]
  cases hh : f.header? with
  | some names => simp [ofRecords, hh]
  | none => cases records <;> simp [ofRecords, hh]

theorem parse_eq_ofRecords (ha : f.isAscii = true) (text : String) :
    parse f text = ofRecords f (f.lines text) := by
  rw [parse, if_pos ha, parseText_eq, Format.lines_eq]

theorem parse_of_few (ha : f.isAscii = true) (h : (f.data (f.lines text)).length ≤ 1) :
    parse f text = .ok (empty (f.names (f.lines text)) f.numeric) := by
  rw [parse_eq_ofRecords ha, ofRecords_eq, ofRows, if_pos h]

/-- A text between ASCII separators is read as the table of its lines, or it fails with the first
of their faults. -/
theorem parse_eq_iff_outcome (ha : f.isAscii = true) {r : Except TableError Table} :
    parse f text = r ↔ Outcome (f.names (f.lines text)) f.numeric (f.data (f.lines text)) r := by
  rw [parse_eq_ofRecords ha, ofRecords_eq, ofRows_eq_iff_outcome]

/-- The lower row comes first if its column does. -/
theorem parse_eq_notNumeric_columnMajor : ({} : Format).isAscii = true ∧
    parse {} "\ufeffa,b\n1,oops\n\nno,2\n" = .error (.notNumeric "a" 1 "no") := by
  have hlines : ({} : Format).lines "\ufeffa,b\n1,oops\n\nno,2\n" =
      [["a", "b"], ["1", "oops"], ["no", "2"]] := by decide +kernel
  have hno : number? "no" = none := by decide +kernel
  have hone : (number? "1").isSome = true := by decide +kernel
  refine ⟨rfl, (parse_eq_iff_outcome rfl).2 ?_⟩
  rw [hlines]
  refine .notNumeric (j := 0) (by decide) (by decide) (fun w hw => nomatch hw)
    ⟨rfl, rfl, ["no", "2"], rfl, rfl⟩ hno fun j i name s hlt hc => ?_
  obtain ⟨-, -, row, hi, hj⟩ := hc
  obtain ⟨rfl, rfl⟩ : j = 0 ∧ i = 0 := by omega
  obtain rfl := Option.some.inj hi
  obtain rfl := Option.some.inj hj
  exact Option.isSome_iff_exists.1 hone

end Text

section Header
variable {f : Format} {header body : String}

def Format.fields (f : Format) (line : String) : List String :=
  (line.toList.splitOn (Char.ofUInt8 f.columnSep)).map String.ofList

theorem Format.lines_append (hne : header ≠ "") (hrow : Char.ofUInt8 f.rowSep ∉ header.toList)
    (hm : header.toList.head? ≠ some byteOrderMark)
    (hb : body.toList.head? ≠ some byteOrderMark) :
    f.lines (header ++ String.singleton (Char.ofUInt8 f.rowSep) ++ body) =
      f.fields header :: f.lines body := by
  have hchars : header.toList ≠ [] := fun h => hne (String.toList_eq_nil_iff.1 h)
  have hsep : ∀ c ∈ header.toList, isSep f.rowSep c = false := by
    intro c hc
    rw [isSep_eq]
    exact beq_false_of_ne fun he => hrow (he ▸ hc)
  have hmark : (header.toList ++ Char.ofUInt8 f.rowSep :: body.toList).head? ≠
      some byteOrderMark := by
    rwa [List.head?_append_of_ne_nil _ hchars]
  have htext : (header ++ String.singleton (Char.ofUInt8 f.rowSep) ++ body).toList =
      header.toList ++ Char.ofUInt8 f.rowSep :: body.toList := by
    simp
  rw [Format.lines_eq, Format.lines_eq, textRecords, textRecords, htext, dropMark_eq hmark,
    dropMark_eq hb, records_append_cons (isSep_ofUInt8 _), records_line hchars hsep, isSep_eq,
    isSep_eq]
  rfl

/-- Names in a header line are the same as names that are given. -/
theorem parse_header_append (ha : f.isAscii = true) (hne : header ≠ "")
    (hrow : Char.ofUInt8 f.rowSep ∉ header.toList)
    (hm : header.toList.head? ≠ some byteOrderMark)
    (hb : body.toList.head? ≠ some byteOrderMark) :
    parse { f with header? := none }
        (header ++ String.singleton (Char.ofUInt8 f.rowSep) ++ body) =
      parse { f with header? := some (f.fields header) } body := by
  let given : Format := { f with header? := some (f.fields header) }
  calc
    parse { f with header? := none } _ = ofRecords { f with header? := none }
        (f.fields header :: f.lines body) := by
      rw [parse_eq_ofRecords (f := { f with header? := none }) ha]
      exact congrArg _ (Format.lines_append (f := f) hne hrow hm hb)
    _ = ofRecords given (given.lines body) := rfl
    _ = parse given body := (parse_eq_ofRecords (f := given) ha body).symm

/-- Nothing but row separators, and a single line that is no data. -/
theorem parse_header_append_blank :
    let f : Format := { columnSep := 32, rowSep := 59, numeric := .named ["c"] }
    f.isAscii = true ∧ ';' ∉ "a b".toList ∧
      parse f ("a b" ++ ";" ++ ";;") = parse { f with header? := some ["a", "b"] } ";;" ∧
      parse f ("a b" ++ ";" ++ ";x;") = parse { f with header? := some ["a", "b"] } ";x;" := by
  intro f
  have hrow : ';' ∉ "a b".toList := by decide
  have hbody (body : String) (hb : body.toList.head? ≠ some byteOrderMark) :
      parse f ("a b" ++ ";" ++ body) = parse { f with header? := some ["a", "b"] } body :=
    parse_header_append (f := f) rfl (by decide) hrow (by decide) hb
  exact ⟨rfl, hrow, hbody ";;" (by decide), hbody ";x;" (by decide)⟩

end Header

end SimCampaign.Table
