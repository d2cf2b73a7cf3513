import SimCampaign.Proofs.Lookup
import SimCampaign.Proofs.Table.Rows
import SimCampaign.Trace.Packets

/-! Tables after rows were dropped. Every column holds its values at the same positions, however the
rows were chosen. -/

namespace SimCampaign

namespace Column
variable {α β : Type}

def pick (ps : List Nat) : Column → Column
  | .text vs => .text (ps.filterMap (vs[·]?))
  | .numeric vs => .numeric (ps.filterMap (vs[·]?))

theorem keep_map (f : α → Bool) (vs : List α) : keep (vs.map f) vs = vs.filter f := by
  induction vs with
  | nil => rfl
  | cons v vs ih =>
    rw [List.filter_cons, ← ih]
    cases hv : f v <;> simp [keep, hv]

theorem keep_sublist (mask : List Bool) (vs : List α) : (keep mask vs).Sublist vs := by
  induction vs generalizing mask with
  | nil => exact List.Sublist.refl _
  | cons v vs ih =>
    cases mask with
    | nil => exact List.nil_sublist _
    | cons b mask =>
      cases b with
      | false => exact (ih mask).cons v
      | true => exact (ih mask).cons_cons v

theorem keep_filterMap {f : α → Option β} {xs : List α} (h : ∀ x ∈ xs, ∃ y, f x = some y)
    (mask : List Bool) : keep mask (xs.filterMap f) = (keep mask xs).filterMap f := by
  induction xs generalizing mask with
  | nil => rfl
  | cons x xs ih =>
    obtain ⟨y, hy⟩ := h x (List.mem_cons_self ..)
    have ih := ih fun z hz => h z (List.mem_cons_of_mem _ hz)
    rw [List.filterMap_cons_some hy]
    cases mask with
    | nil => rfl
    | cons b mask =>
      have hxs := ih mask
      cases b with
      | false => exact hxs
      | true =>
        have hx : keep (true :: mask) (x :: xs) = x :: keep mask xs := rfl
        rw [hx, List.filterMap_cons_some hy]
        exact congrArg (y :: ·) hxs

theorem count_true_eq {mask : List Bool} {vs : List α} (h : mask.length = vs.length) :
    mask.count true = (keep mask vs).length := by
  induction vs generalizing mask with
  | nil =>
    rw [List.length_eq_zero_iff.1 h]
    rfl
  | cons v vs ih =>
    cases mask with
    | nil => cases h
    | cons b mask =>
      have hm := ih (Nat.succ.inj h)
      cases b with
      | false => simpa [keep] using hm
      | true => simpa [keep] using hm

theorem filterMap_range_getElem? (vs : List α) :
    (List.range vs.length).filterMap (vs[·]?) = vs := by
  have hin : ∀ i ∈ List.range vs.length, ∃ v, vs[i]? = some v := by
    intro i hi
    exact ⟨_, List.getElem?_eq_getElem (List.mem_range.1 hi)⟩
  have hall : (List.range vs.length).mapM (vs[·]?) = some vs := mapM_range_eq_some fun _ _ => rfl
  rw [mapM_eq_some_filterMap hin] at hall
  exact Option.some.inj hall

theorem map_filterMap_any {f : α → Option β} {xs : List α} (h : ∀ x ∈ xs, ∃ y, f x = some y)
    (p : β → Bool) : (xs.filterMap f).map p = xs.map fun x => (f x).any p := by
  have hpairs := mapM_eq_some_iff.1 (mapM_eq_some_filterMap h)
  rw [← List.forall₂_eq_eq_eq, List.forall₂_map_left_iff, List.forall₂_map_right_iff]
  refine hpairs.flip.imp fun y x hy => ?_
  rw [hy]
  rfl

variable {c : Column} {ps : List Nat}

theorem isNumeric_pick (ps : List Nat) (c : Column) : (c.pick ps).isNumeric = c.isNumeric := by
  cases c <;> rfl

theorem pick_range (c : Column) : c.pick (List.range c.length) = c := by
  cases c with
  | text vs => exact congrArg text (filterMap_range_getElem? vs)
  | numeric vs => exact congrArg numeric (filterMap_range_getElem? vs)

theorem exists_getElem?_of_sublist {n : Nat} (hp : ps.Sublist (List.range n)) {vs : List α}
    (hv : vs.length = n) : ∀ i ∈ ps, ∃ v, vs[i]? = some v := by
  intro i hi
  have hlt : i < vs.length := hv ▸ List.mem_range.1 (hp.subset hi)
  exact ⟨_, List.getElem?_eq_getElem hlt⟩

theorem length_filterMap {f : α → Option β} {xs : List α} (h : ∀ x ∈ xs, ∃ y, f x = some y) :
    (xs.filterMap f).length = xs.length :=
  (mapM_eq_some_iff.1 (mapM_eq_some_filterMap h)).length_eq.symm

theorem length_pick {n : Nat} (hp : ps.Sublist (List.range n)) (hc : c.length = n) :
    (c.pick ps).length = ps.length := by
  cases c with
  | text vs => exact length_filterMap (exists_getElem?_of_sublist hp hc)
  | numeric vs => exact length_filterMap (exists_getElem?_of_sublist hp hc)

theorem filter_pick {n : Nat} (hp : ps.Sublist (List.range n)) (hc : c.length = n)
    (mask : List Bool) : (c.pick ps).filter mask = c.pick (keep mask ps) := by
  cases c with
  | text vs => exact congrArg text (keep_filterMap (exists_getElem?_of_sublist hp hc) mask)
  | numeric vs => exact congrArg numeric (keep_filterMap (exists_getElem?_of_sublist hp hc) mask)

end Column

namespace Table
variable {numeric : Selection} {t u v : Table} {ps : List Nat} {name : String} {c : Column}

/-- Whether every column has one value a row, and the selected columns hold numbers. -/
def Aligned (t : Table) (numeric : Selection) : Prop := ∀ name c, (name, c) ∈ t.columns →
  c.length = t.rows ∧ c.isNumeric = numeric.contains name

/-- Whether the rows of a table are those of another at some positions. -/
structure HasRows (u t : Table) (ps : List Nat) : Prop where
  rows_eq : u.rows = ps.length
  columns_eq : u.columns = t.columns.map fun (name, c) => (name, c.pick ps)

theorem HasRows.unique (hu : u.HasRows t ps) (hv : v.HasRows t ps) : u = v := by
  obtain ⟨columns, rows⟩ := u
  obtain ⟨_, _⟩ := v
  obtain rfl : rows = _ := hu.rows_eq.trans hv.rows_eq.symm
  obtain rfl : columns = _ := hu.columns_eq.trans hv.columns_eq.symm
  rfl

theorem HasRows.names_eq (hu : u.HasRows t ps) : u.names = t.names := by
  rw [names, hu.columns_eq, List.map_map]
  rfl

theorem hasRows_self (ht : t.Aligned numeric) : t.HasRows t (List.range t.rows) := by
  refine ⟨List.length_range.symm, ?_⟩
  have hid : ∀ p ∈ t.columns, (p.1, p.2.pick (List.range t.rows)) = p := by
    intro p hp
    obtain ⟨hl, -⟩ := ht p.1 p.2 hp
    rw [← hl, Column.pick_range]
  rw [List.map_congr_left hid, List.map_id']

section Kept
variable (ht : t.Aligned numeric) (hp : ps.Sublist (List.range t.rows)) (hu : u.HasRows t ps)
include ht hp hu

theorem HasRows.aligned : u.Aligned numeric := by
  intro name c hc
  rw [hu.columns_eq] at hc
  obtain ⟨⟨name', c'⟩, hc', he⟩ := List.mem_map.1 hc
  obtain ⟨rfl, rfl⟩ := Prod.mk.inj he
  obtain ⟨hl, hk⟩ := ht _ _ hc'
  exact ⟨by rw [Column.length_pick hp hl, hu.rows_eq], by rw [Column.isNumeric_pick, hk]⟩

theorem HasRows.keepRows {mask : List Bool} (hm : mask.length = u.rows) :
    (u.keepRows mask).HasRows t (Column.keep mask ps) := by
  refine ⟨Column.count_true_eq (hm.trans hu.rows_eq), ?_⟩
  rw [Table.keepRows, hu.columns_eq, List.map_map]
  refine List.map_congr_left fun p hc => ?_
  obtain ⟨hl, -⟩ := ht p.1 p.2 hc
  exact congrArg (p.1, ·) (Column.filter_pick hp hl mask)

end Kept

theorem numeric_eq_ok_iff {xs : List Float} :
    t.numeric name = .ok xs ↔ t.columns.lookup name = some (.numeric xs) := by
  rw [Table.numeric, column]
  cases t.columns.lookup name with
  | none => simp [bind, Except.bind]
  | some c => cases c <;> simp [bind, Except.bind]

theorem HasRows.numeric_eq_ok (hu : u.HasRows t ps) {xs : List Float}
    (hx : t.numeric name = .ok xs) : u.numeric name = .ok (ps.filterMap (xs[·]?)) := by
  rw [numeric_eq_ok_iff] at hx ⊢
  -- The columns are taken under the names that they had.
  have hpick := lookup_map (Column.pick ps) name t.columns
  rw [hx] at hpick
  rw [hu.columns_eq]
  exact hpick

theorem length_of_numeric (ht : t.Aligned numeric) {xs : List Float}
    (hx : t.numeric name = .ok xs) : xs.length = t.rows := by
  rw [numeric_eq_ok_iff] at hx
  obtain ⟨before, after, hc, -⟩ := List.lookup_eq_some_iff.1 hx
  have hmem : (name, Column.numeric xs) ∈ t.columns := by
    rw [hc]
    exact List.mem_append_right _ (List.mem_cons_self ..)
  exact (ht name _ hmem).1

theorem HasRows.exists_filterBy (ht : t.Aligned numeric) (hp : ps.Sublist (List.range t.rows))
    (hu : u.HasRows t ps) {xs : List Float} (hx : t.numeric name = .ok xs) (p : Float → Bool) :
    ∃ v, u.filterBy name p = .ok v ∧ v.HasRows t (ps.filter fun i => xs[i]?.any p) := by
  have hin := Column.exists_getElem?_of_sublist hp (length_of_numeric ht hx)
  have hmask : (ps.filterMap (xs[·]?)).map p = ps.map fun i => xs[i]?.any p :=
    Column.map_filterMap_any hin p
  have hl : ((ps.filterMap (xs[·]?)).map p).length = u.rows := by
    rw [hmask, List.length_map, hu.rows_eq]
  have hrows := hu.keepRows ht hp hl
  rw [hmask, Column.keep_map] at hrows
  refine ⟨_, ?_, hrows⟩
  rw [filterBy, hu.numeric_eq_ok hx, ← hmask]
  rfl

section Reading
variable {names : List String} {rows : List (List String)} {f : Format} {j : Nat}

theorem aligned_empty (names : List String) (numeric : Selection) :
    (empty names numeric).Aligned numeric := by
  intro name c hc
  obtain ⟨name', -, he⟩ := List.mem_map.1 hc
  obtain ⟨rfl, rfl⟩ := Prod.mk.inj he
  rw [emptyColumn]
  split
  next h => exact ⟨rfl, h.symm⟩
  next h => exact ⟨rfl, (Bool.eq_false_iff.2 h).symm⟩

theorem aligned_readColumn (h : readColumn numeric rows name j = .ok c) :
    c.length = rows.length ∧ c.isNumeric = numeric.contains name := by
  rw [readColumn] at h
  split at h
  next hn =>
    obtain ⟨xs, hxs, rfl⟩ := map_eq_ok_iff.1 h
    have hl := (numbers_eq_ok_iff.1 hxs).length_eq
    rw [List.length_map] at hl
    exact ⟨hl.symm, hn.symm⟩
  next hn =>
    obtain rfl := Except.ok.inj h
    exact ⟨List.length_map _, (Bool.eq_false_iff.2 hn).symm⟩

theorem aligned_ofRows (h : ofRows names numeric rows = .ok t) : t.Aligned numeric := by
  rw [ofRows] at h
  split at h
  next =>
    obtain rfl := Except.ok.inj h
    exact aligned_empty names numeric
  next =>
    split at h
    next => cases h
    next => cases h
    next =>
      obtain ⟨columns, hcolumns, h⟩ := bind_eq_ok_iff.1 h
      obtain rfl := Except.ok.inj h
      intro name c hc
      obtain ⟨⟨name', j⟩, -, hread⟩ := exists_of_mem_forall₂ (mapM_eq_ok_iff.1 hcolumns) hc
      obtain ⟨c', hc', he⟩ := bind_eq_ok_iff.1 hread
      obtain ⟨rfl, rfl⟩ := Prod.mk.inj (Except.ok.inj he)
      exact aligned_readColumn hc'

theorem aligned_ofRecords {records : List (List String)} (h : ofRecords f records = .ok t) :
    t.Aligned f.numeric := by
  rw [ofRecords.eq_def] at h
  split at h <;> exact aligned_ofRows h

theorem aligned_parse {text : String} (h : parse f text = .ok t) : t.Aligned f.numeric := by
  rw [parse] at h
  split at h
  next =>
    rw [parseText] at h
    split at h
    next =>
      obtain rfl := Except.ok.inj h
      exact aligned_empty _ _
    next => exact aligned_ofRecords h
  next =>
    rw [parseBytes] at h
    split at h
    next =>
      obtain rfl := Except.ok.inj h
      exact aligned_empty _ _
    next =>
      split at h
      next => exact aligned_ofRecords h
      next => cases h

end Reading

/-- Whether a table is the one without rows under some names, or was read from a text, with the
selected columns as numbers. -/
inductive Original : Selection → Table → Prop
  | empty (names : List String) (numeric : Selection) : Original numeric (empty names numeric)
  | parsed {f : Format} {text : String} {t : Table} (h : parse f text = .ok t) :
    Original f.numeric t

/-- Whether some filters leave one table of another. -/
inductive Filtered (t : Table) : Table → Prop
  | self : Filtered t t
  | rows {u v : Table} {mask : List Bool} (h : Filtered t u) (hv : u.filterRows? mask = some v) :
    Filtered t v
  | values {u v : Table} {name : String} {p : Float → Bool} (h : Filtered t u)
    (hv : u.filterBy name p = .ok v) : Filtered t v

theorem Original.aligned (h : Original numeric t) : t.Aligned numeric := by
  cases h with
  | empty names numeric => exact aligned_empty names numeric
  | parsed h => exact aligned_parse h

theorem eq_keepRows_of_filterRows? {mask : List Bool} (h : u.filterRows? mask = some v) :
    mask.length = u.rows ∧ v = u.keepRows mask := by
  rw [filterRows?] at h
  split at h
  next hm => exact ⟨hm, (Option.some.inj h).symm⟩
  next => cases h

theorem eq_keepRows_of_filterBy {p : Float → Bool} (h : u.filterBy name p = .ok v) :
    ∃ xs, u.numeric name = .ok xs ∧ v = u.keepRows (xs.map p) := by
  rw [filterBy, bind_eq_ok_iff] at h
  obtain ⟨xs, hx, h⟩ := h
  exact ⟨xs, hx, (Except.ok.inj h).symm⟩

theorem Filtered.exists_hasRows (ht : t.Aligned numeric) (hu : t.Filtered u) :
    ∃ ps, ps.Sublist (List.range t.rows) ∧ u.HasRows t ps := by
  -- Both filters keep rows by a mask of the right length.
  have hkeep : ∀ {u : Table} {ps : List Nat} {mask : List Bool},
      ps.Sublist (List.range t.rows) → u.HasRows t ps → mask.length = u.rows →
        ∃ qs, qs.Sublist (List.range t.rows) ∧ (u.keepRows mask).HasRows t qs := by
    intro u ps mask hp hrows hm
    exact ⟨_, (Column.keep_sublist mask ps).trans hp, hrows.keepRows ht hp hm⟩
  induction hu with
  | self => exact ⟨_, List.Sublist.refl _, hasRows_self ht⟩
  | rows _ hv ih =>
    obtain ⟨ps, hp, hrows⟩ := ih
    obtain ⟨hm, rfl⟩ := eq_keepRows_of_filterRows? hv
    exact hkeep hp hrows hm
  | values _ hv ih =>
    obtain ⟨ps, hp, hrows⟩ := ih
    obtain ⟨xs, hx, rfl⟩ := eq_keepRows_of_filterBy hv
    have hl := length_of_numeric (hrows.aligned ht hp) hx
    exact hkeep hp hrows (by rw [List.length_map, hl])

def positions {α : Type} (p : α → Bool) (vs : List α) : List Nat :=
  (List.range vs.length).filter fun i => vs[i]?.any p

/-- Dropping rows by the values of a column, with the length of the mask checked. -/
def filterBy? (t : Table) (name : String) (p : Float → Bool) :
    Except TableError (Option Table) := do
  let vs ← t.numeric name
  .ok (t.filterRows? (vs.map p))

section Aligned
variable (ht : t.Aligned numeric)
include ht

theorem filterBy?_eq (name : String) (p : Float → Bool) :
    t.filterBy? name p = (t.filterBy name p).map some := by
  rw [filterBy?, filterBy]
  cases hx : t.numeric name with
  | error e => rfl
  | ok xs =>
    have hl : (xs.map p).length = t.rows := by rw [List.length_map, length_of_numeric ht hx]
    simp only [bind, Except.bind, filterRows?, if_pos hl]
    rfl

theorem exists_filterRows? {mask : List Bool} (hm : mask.length = t.rows) :
    ∃ v, t.filterRows? mask = some v ∧ v.HasRows t (positions id mask) := by
  have hmask : mask = (List.range t.rows).map fun i => mask[i]?.any id := by
    have hin : ∀ i ∈ List.range t.rows, ∃ b, mask[i]? = some b :=
      Column.exists_getElem?_of_sublist (List.Sublist.refl _) hm
    rw [← Column.map_filterMap_any hin id, List.map_id, ← hm, Column.filterMap_range_getElem?]
  have hrows := (hasRows_self ht).keepRows ht (List.Sublist.refl _) hm
  have hkeep : Column.keep mask (List.range t.rows) = positions id mask := by
    rw [positions, hm, ← Column.keep_map, ← hmask]
  rw [hkeep] at hrows
  exact ⟨_, if_pos hm, hrows⟩

theorem exists_filterBy {xs : List Float} (hx : t.numeric name = .ok xs) (p : Float → Bool) :
    ∃ v, t.filterBy name p = .ok v ∧ v.HasRows t (positions p xs) := by
  rw [positions, length_of_numeric ht hx]
  exact (hasRows_self ht).exists_filterBy ht (List.Sublist.refl _) hx p

theorem exists_filterBy_filterBy {a b : String} {xs ys : List Float} (hx : t.numeric a = .ok xs)
    (hy : t.numeric b = .ok ys) (p q : Float → Bool) :
    ∃ v, (t.filterBy a p >>= fun u => u.filterBy b q) = .ok v ∧
      v.HasRows t ((List.range t.rows).filter fun i => xs[i]?.any p && ys[i]?.any q) := by
  obtain ⟨u, hu, hrows⟩ := exists_filterBy ht hx p
  rw [positions, length_of_numeric ht hx] at hrows
  obtain ⟨v, hv, hrows⟩ := hrows.exists_filterBy ht List.filter_sublist hy q
  rw [List.filter_filter] at hrows
  refine ⟨v, bind_eq_ok_iff.2 ⟨u, hu, hv⟩, ?_⟩
  simpa only [Bool.and_comm] using hrows

end Aligned

end Table

namespace PacketTrace
variable {source sent received size : List Float}

def packet? (source sent received size : List Float) (i : Nat) : Option Packet := do
  let a ← source[i]?
  let b ← sent[i]?
  let c ← received[i]?
  let d ← size[i]?
  some ⟨a, b, c, d⟩

/-- The packets of a table row by row, with each position checked. -/
def ofTable? (t : Table) : Except TableError (Option PacketTrace) :=
  if t.isEmpty then .ok (some [])
  else do
    let source ← t.numeric sourceColumn
    let sent ← t.numeric sentColumn
    let received ← t.numeric receivedColumn
    let size ← t.numeric sizeColumn
    .ok ((List.range t.rows).mapM (packet? source sent received size))

theorem mapM_packet? {n : Nat} (h₁ : source.length = n) (h₂ : sent.length = n)
    (h₃ : received.length = n) (h₄ : size.length = n) :
    (List.range n).mapM (packet? source sent received size) =
      some (ofColumns source sent received size) := by
  induction n generalizing source sent received size with
  | zero =>
    obtain rfl := List.length_eq_zero_iff.1 h₁
    rfl
  | succ n ih =>
    obtain ⟨a, source, rfl⟩ := List.exists_cons_of_length_eq_add_one h₁
    obtain ⟨b, sent, rfl⟩ := List.exists_cons_of_length_eq_add_one h₂
    obtain ⟨c, received, rfl⟩ := List.exists_cons_of_length_eq_add_one h₃
    obtain ⟨d, size, rfl⟩ := List.exists_cons_of_length_eq_add_one h₄
    have hrest := ih (Nat.succ.inj h₁) (Nat.succ.inj h₂) (Nat.succ.inj h₃) (Nat.succ.inj h₄)
    rw [mapM_eq_some_iff] at hrest ⊢
    rw [List.range_succ_eq_map]
    exact .cons rfl (List.forall₂_map_left_iff.2 hrest)

theorem ofTable?_eq {numeric : Table.Selection} {t : Table} (ht : t.Aligned numeric) :
    ofTable? t = (ofTable t).map some := by
  rw [ofTable?, ofTable]
  split
  next => rfl
  next =>
    cases h₁ : t.numeric sourceColumn with
    | error e => rfl
    | ok source =>
      cases h₂ : t.numeric sentColumn with
      | error e => rfl
      | ok sent =>
        cases h₃ : t.numeric receivedColumn with
        | error e => rfl
        | ok received =>
          cases h₄ : t.numeric sizeColumn with
          | error e => rfl
          | ok size =>
            have hpackets := mapM_packet? (Table.length_of_numeric ht h₁)
              (Table.length_of_numeric ht h₂) (Table.length_of_numeric ht h₃)
              (Table.length_of_numeric ht h₄)
            exact congrArg Except.ok hpackets

end PacketTrace

namespace Table
variable {numeric : Selection} {t u : Table}

/-- However rows were dropped, the columns of a table stay aligned and nothing that reads them by
position is out of range. Dropping rows by two columns keeps the rows that satisfy both predicates,
in either order. -/
theorem rows_of_filtered (ht : Original numeric t) (hu : t.Filtered u) :
    u.columns.map Prod.fst = t.names ∧ u.Aligned numeric ∧
      (∃ ps, ps.Sublist (List.range t.rows) ∧ u.HasRows t ps) ∧
      (∀ mask, mask.length = u.rows →
        ∃ v, u.filterRows? mask = some v ∧ v.HasRows u (positions id mask)) ∧
      (∀ name p, u.filterBy? name p = (u.filterBy name p).map some) ∧
      (∀ name p xs, u.numeric name = .ok xs →
        ∃ v, u.filterBy name p = .ok v ∧ v.HasRows u (positions p xs)) ∧
      PacketTrace.ofTable? u = (PacketTrace.ofTable u).map some ∧
      ∀ a b p q xs ys, u.numeric a = .ok xs → u.numeric b = .ok ys →
        ∃ v, (u.filterBy a p >>= fun w => w.filterBy b q) = .ok v ∧
          (u.filterBy b q >>= fun w => w.filterBy a p) = .ok v ∧
          v.HasRows u ((List.range u.rows).filter fun i => xs[i]?.any p && ys[i]?.any q) := by
  obtain ⟨ps, hp, hrows⟩ := hu.exists_hasRows ht.aligned
  have halign := hrows.aligned ht.aligned hp
  refine ⟨hrows.names_eq, halign, ⟨ps, hp, hrows⟩, fun mask => exists_filterRows? halign,
    filterBy?_eq halign, fun name p xs hx => exists_filterBy halign hx p,
    PacketTrace.ofTable?_eq halign, fun a b p q xs ys hx hy => ?_⟩
  obtain ⟨v, hv, hvrows⟩ := exists_filterBy_filterBy halign hx hy p q
  obtain ⟨w, hw, hwrows⟩ := exists_filterBy_filterBy halign hy hx q p
  simp only [Bool.and_comm] at hwrows
  obtain rfl := hvrows.unique hwrows
  exact ⟨v, hv, hw, hvrows⟩

theorem rows_of_filtered_sizes : ∃ t u ps,
    Table.parse { numeric := .named ["size"] } "from,size\na,10\nb,20\na,5\n" = .ok t ∧
      t.filterRows? [true, false, true] = some u ∧
      u.Aligned (.named ["size"]) ∧ ps.Sublist (List.range t.rows) ∧ u.HasRows t ps := by
  let t : Table := ⟨[("from", .text ["a", "b", "a"]), ("size", .numeric [10, 20, 5])], 3⟩
  let u : Table := ⟨[("from", .text ["a", "a"]), ("size", .numeric [10, 5])], 2⟩
  have ht : Table.parse { numeric := .named ["size"] } "from,size\na,10\nb,20\na,5\n" = .ok t := by
    have hmissing : missingColumn? ["from", "size"] (.named ["size"]) = none :=
      missingColumn?_named_eq_none (by decide)
    have hrows : ofRows ["from", "size"] (.named ["size"]) [["a", "10"], ["b", "20"], ["a", "5"]] =
        .ok t := by
      rw [ofRows, hmissing]
      rfl
    exact hrows
  have hu : t.filterRows? [true, false, true] = some u := rfl
  obtain ⟨-, halign, ⟨ps, hp, hrows⟩, -⟩ :=
    rows_of_filtered (.parsed ht) (Filtered.rows .self hu)
  exact ⟨t, u, ps, ht, hu, halign, hp, hrows⟩

end Table
end SimCampaign
