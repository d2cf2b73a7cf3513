import SimCampaign.Proofs.Except
import SimCampaign.Table.Reader

/-! Rows as columns: under each name the fields at its position, as texts or as numbers. -/

namespace SimCampaign.Table

def number? (s : String) : Option Float := Decimal.float? (Text.trim s.toList)

/-- What a column holds of the fields at one position of the rows. -/
inductive Reads (rows : List (List String)) (j : Nat) : Bool → Column → Prop
  | text {vs : List String} (h : List.Forall₂ (fun row s => row[j]? = some s) rows vs) :
    Reads rows j false (.text vs)
  | numeric {xs : List Float}
    (h : List.Forall₂ (fun row x => ∃ s, row[j]? = some s ∧ number? s = some x) rows xs) :
    Reads rows j true (.numeric xs)

/-- Whether a table has the rows under the names, with the selected columns as numbers. -/
structure Holds (t : Table) (names : List String) (rows : List (List String))
    (numeric : Selection) : Prop where
  names_eq : t.names = names
  rows_eq : t.rows = rows.length
  columns : ∀ (j : Nat) (name : String), names[j]? = some name →
    ∃ c, t.columns[j]? = some (name, c) ∧ Reads rows j (numeric.contains name) c

variable {names : List String} {rows : List (List String)} {numeric : Selection} {name : String}
  {j : Nat}

theorem Reads.unique {b : Bool} {c c' : Column} (h : Reads rows j b c) (h' : Reads rows j b c') :
    c = c' := by
  cases h with
  | text hc =>
    cases h' with
    | text hc' =>
      have hu : Relator.RightUnique fun (row : List String) (s : String) => row[j]? = some s :=
        fun _ _ _ hs hs' => Option.some.inj (hs.symm.trans hs')
      exact congrArg Column.text (hu.forall₂ hc hc')
  | numeric hc =>
    cases h' with
    | numeric hc' =>
      have hu : Relator.RightUnique fun (row : List String) (x : Float) =>
          ∃ s, row[j]? = some s ∧ number? s = some x := by
        rintro row x y ⟨s, hs, hx⟩ ⟨s', hs', hy⟩
        obtain rfl : s = s' := Option.some.inj (hs.symm.trans hs')
        exact Option.some.inj (hx.symm.trans hy)
      exact congrArg Column.numeric (hu.forall₂ hc hc')

theorem Holds.length_columns {t : Table} (h : t.Holds names rows numeric) :
    t.columns.length = names.length := by
  rw [← h.names_eq, Table.names, List.length_map]

theorem Holds.unique {t u : Table} (ht : t.Holds names rows numeric)
    (hu : u.Holds names rows numeric) : t = u := by
  have hcolumns : t.columns = u.columns := by
    refine List.ext_getElem? fun j => ?_
    cases hj : names[j]? with
    | none =>
      have hle : names.length ≤ j := List.getElem?_eq_none_iff.1 hj
      rw [List.getElem?_eq_none (ht.length_columns ▸ hle),
        List.getElem?_eq_none (hu.length_columns ▸ hle)]
    | some name =>
      obtain ⟨c, hc, hr⟩ := ht.columns j name hj
      obtain ⟨c', hc', hr'⟩ := hu.columns j name hj
      rw [hc, hc', hr.unique hr']
  have hrows : t.rows = u.rows := ht.rows_eq.trans hu.rows_eq.symm
  obtain ⟨columns, n⟩ := t
  obtain ⟨columns', n'⟩ := u
  exact congrArg₂ Table.mk hcolumns hrows

theorem raggedRow?_eq_none_iff {n : Nat} :
    raggedRow? n rows = none ↔ ∀ row ∈ rows, row.length = n := by
  rw [raggedRow?, Option.map_eq_none_iff, List.find?_eq_none]
  constructor
  · intro h row hrow
    obtain ⟨i, hi⟩ := List.mem_iff_getElem?.1 hrow
    have hr := h (row, i) (List.mem_zipIdx_iff_getElem?.2 hi)
    simpa using hr
  · intro h p hp
    have hr := h p.1 (List.mem_of_getElem? (List.mem_zipIdx_iff_getElem?.1 hp))
    simpa using hr

theorem missingColumn?_named_eq_none {wanted : List String} (h : ∀ w ∈ wanted, w ∈ names) :
    missingColumn? names (.named wanted) = none := by
  have hf : wanted.filter (!names.contains ·) = [] :=
    List.filter_eq_nil_iff.2 fun w hw => by simpa using h w hw
  rw [missingColumn?, hf]
  simp

theorem numbers_eq_ok_iff {vs : List String} {xs : List Float} :
    numbers name vs.zipIdx = .ok xs ↔ List.Forall₂ (fun s x => number? s = some x) vs xs := by
  have hmap := List.forall₂_map_left_iff (R := fun s x => number? s = some x) (f := Prod.fst)
    (l := vs.zipIdx) (u := xs)
  rw [List.zipIdx_map_fst] at hmap
  rw [numbers, mapM_eq_ok_iff, hmap]
  constructor
  · intro h
    refine h.imp fun p x hp => ?_
    obtain ⟨value, row⟩ := p
    simp only at hp
    rw [number?]
    split at hp
    next hy => rw [hy, Except.ok.inj hp]
    next => cases hp
  · intro h
    refine h.imp fun p x hp => ?_
    obtain ⟨value, row⟩ := p
    rw [number?] at hp
    simp only [hp]

theorem exists_readColumn (hj : ∀ row ∈ rows, j < row.length)
    (hn : numeric.contains name = true → ∀ row ∈ rows, ∀ s ∈ row[j]?, ∃ x, number? s = some x) :
    ∃ c, readColumn numeric rows name j = .ok c ∧ Reads rows j (numeric.contains name) c := by
  have hget : ∀ row ∈ rows, row[j]? = some (row.getD j "") := by
    intro row hrow
    rw [List.getD_eq_getElem?_getD, List.getElem?_eq_getElem (hj row hrow), Option.getD_some]
  cases hc : numeric.contains name with
  | false =>
    have hfields : List.Forall₂ (fun row s => row[j]? = some s) rows
        (rows.map fun row => row.getD j "") :=
      List.forall₂_map_right_iff.2 (List.forall₂_same.2 hget)
    refine ⟨_, ?_, .text hfields⟩
    rw [readColumn, hc]
    rfl
  | true =>
    have hrow : ∀ row ∈ rows, ∃ x s, row[j]? = some s ∧ number? s = some x := by
      intro row hrow
      obtain ⟨x, hx⟩ := hn hc row hrow _ (hget row hrow)
      exact ⟨x, _, hget row hrow, hx⟩
    obtain ⟨xs, hxs⟩ := exists_forall₂ hrow
    have hnumbers : numbers name (rows.map fun row => row.getD j "").zipIdx = .ok xs := by
      refine numbers_eq_ok_iff.2 (List.forall₂_map_left_iff.2 (hxs.imp fun row x hx => ?_))
      obtain ⟨s, hs, hx⟩ := hx
      rw [List.getD_eq_getElem?_getD, hs]
      exact hx
    refine ⟨.numeric xs, ?_, .numeric hxs⟩
    rw [readColumn, hc]
    simp only [if_true, hnumbers]
    rfl

/-- Rows as wide as the header make a table if what is selected as numbers can be read. -/
theorem exists_ofRows (hm : 2 ≤ rows.length) (hw : ∀ row ∈ rows, row.length = names.length)
    (hmissing : missingColumn? names numeric = none)
    (hn : ∀ (j : Nat) (name : String), names[j]? = some name → numeric.contains name = true →
      ∀ row ∈ rows, ∀ s ∈ row[j]?, ∃ x, number? s = some x) :
    ∃ t, ofRows names numeric rows = .ok t ∧ t.Holds names rows numeric := by
  have hcolumn : ∀ p ∈ names.zipIdx, ∃ q : String × Column, q.1 = p.1 ∧
      readColumn numeric rows p.1 p.2 = .ok q.2 ∧ Reads rows p.2 (numeric.contains p.1) q.2 := by
    intro p hp
    have hget := List.mem_zipIdx_iff_getElem?.1 hp
    have hlt : p.2 < names.length := (List.getElem?_eq_some_iff.1 hget).1
    have hc : ∃ c, readColumn numeric rows p.1 p.2 = .ok c ∧
        Reads rows p.2 (numeric.contains p.1) c :=
      exists_readColumn (fun row hrow => hw row hrow ▸ hlt) (hn p.2 p.1 hget)
    obtain ⟨c, hc⟩ := hc
    exact ⟨(p.1, c), rfl, hc⟩
  obtain ⟨columns, hcolumns⟩ := exists_forall₂ hcolumn
  have hnames : columns.map Prod.fst = names := by
    have hfst : List.Forall₂ (fun q p => q = p) (columns.map Prod.fst)
        (names.zipIdx.map Prod.fst) := by
      rw [List.forall₂_map_left_iff, List.forall₂_map_right_iff]
      exact hcolumns.flip.imp fun q p hq => hq.1
    rw [List.forall₂_eq_eq_eq] at hfst
    rw [hfst, List.zipIdx_map_fst]
  refine ⟨⟨columns, rows.length⟩, ?_, hnames, rfl, fun j name hj => ?_⟩
  · rw [ofRows, if_neg (by omega), raggedRow?_eq_none_iff.2 hw, hmissing]
    refine bind_eq_ok_iff.2 ⟨columns, mapM_eq_ok_iff.2 (hcolumns.imp fun p q hq => ?_), rfl⟩
    obtain ⟨hname, hc, -⟩ := hq
    exact bind_eq_ok_iff.2 ⟨q.2, hc, by rw [← hname]⟩
  · have hz : names.zipIdx[j]? = some (name, j) := by
      rw [List.getElem?_zipIdx, hj]
      simp
    obtain ⟨⟨_, c⟩, hq, rfl, -, hr⟩ := getElem?_of_forall₂ hcolumns hz
    exact ⟨c, hq, hr⟩

theorem lookup_of_getElem? {columns : List (String × Column)} {c : Column}
    (hc : columns[j]? = some (name, c)) (hfirst : name ∉ (columns.map Prod.fst).take j) :
    columns.lookup name = some c := by
  induction columns generalizing j with
  | nil => cases hc
  | cons p columns ih =>
    obtain ⟨name', c'⟩ := p
    cases j with
    | zero =>
      obtain ⟨rfl, rfl⟩ : name' = name ∧ c' = c := by simpa using hc
      exact List.lookup_cons_self
    | succ j =>
      rw [List.map_cons, List.take_succ_cons, List.mem_cons, not_or] at hfirst
      obtain ⟨hne, hfirst⟩ := hfirst
      rw [List.lookup_cons, beq_false_of_ne hne]
      exact ih hc hfirst

theorem Holds.numeric_eq_ok {t : Table} (h : t.Holds names rows numeric)
    (hj : names[j]? = some name) (hfirst : name ∉ names.take j)
    (hnum : numeric.contains name = true) {xs : List Float}
    (hxs : List.Forall₂ (fun row x => ∃ s, row[j]? = some s ∧ number? s = some x) rows xs) :
    t.numeric name = .ok xs := by
  obtain ⟨c, hc, hr⟩ := h.columns j name hj
  rw [hnum] at hr
  obtain rfl := hr.unique (.numeric hxs)
  have hnames : t.columns.map Prod.fst = names := h.names_eq
  have hl : t.columns.lookup name = some (.numeric xs) :=
    lookup_of_getElem? hc (by rwa [hnames])
  rw [Table.numeric, column, hl]
  rfl

end SimCampaign.Table
