import Mathlib.Data.List.Forall2
import SimCampaign.Proofs.Json.Escape
import SimCampaign.Proofs.Json.Layout
import SimCampaign.Proofs.Json.Number

/-! JSON text is read as what was written, up to what its numbers are read as. -/

namespace SimCampaign.Json

section Space

theorem skipSpace_cons {c : Char} (h : isSpace c = false) (cs : List Char) :
    skipSpace (c :: cs) = c :: cs := by
  simp [skipSpace, h]

theorem skipSpace_append {spaces : List Char} (h : ∀ c ∈ spaces, isSpace c = true)
    (cs : List Char) : skipSpace (spaces ++ cs) = skipSpace cs := by
  rw [skipSpace, List.dropWhile_append_of_pos h]
  rfl

theorem value?_congr_space {cs cs' : List Char} (h : skipSpace cs = skipSpace cs')
    (fuel depth : Nat) : value? fuel depth cs = value? fuel depth cs' := by
  cases fuel with
  | zero => rw [value?, value?]
  | succ fuel => rw [value?, value?, h]

theorem field1?_congr_space {cs cs' : List Char} (h : skipSpace cs = skipSpace cs')
    (fuel depth : Nat) : field1? fuel depth cs = field1? fuel depth cs' := by
  cases fuel with
  | zero => rw [field1?, field1?]
  | succ fuel => rw [field1?, field1?, h]

end Space

section Leaf
variable {fuel depth : Nat} {rest : List Char}

def numberHeads : List Char := ['-', '0', '1', '2', '3', '4', '5', '6', '7', '8', '9']

theorem mem_numberHeads_of_isDigit {c : Char} (h : c.isDigit = true) : c ∈ numberHeads := by
  have hall : ∀ n < 58, 48 ≤ n → Char.ofNat n ∈ numberHeads := by decide
  have hd : 48 ≤ c.toNat ∧ c.toNat ≤ 57 := by
    simpa [Char.isDigit, UInt32.le_iff_toNat_le] using h
  rw [← Char.ofNat_toNat c]
  exact hall c.toNat (by omega) hd.1

theorem isSpace_of_mem_numberHeads {c : Char} (h : c ∈ numberHeads) :
    isSpace c = false ∧ c ≠ ']' := by
  have hall : numberHeads.all (fun c => !isSpace c && c != ']') = true := by decide
  simpa using List.all_eq_true.1 hall c h

theorem value?_number {c : Char} (h : c ∈ numberHeads) (cs : List Char) :
    value? (fuel + 1) depth (c :: cs) = number? (c :: cs) := by
  rw [value?, skipSpace_cons (isSpace_of_mem_numberHeads h).1]
  simp only [numberHeads, List.mem_cons, List.not_mem_nil, or_false] at h
  rcases h with rfl | rfl | rfl | rfl | rfl | rfl | rfl | rfl | rfl | rfl | rfl <;> rfl

theorem exists_head_chars {l : Literal} (h : l.WellFormed) :
    ∃ c cs, l.chars = c :: cs ∧ c ∈ numberHeads := by
  obtain ⟨c, cs, hc⟩ := List.exists_cons_of_ne_nil h.whole.ne_nil
  have hd := h.whole.isDigit c (by simp [hc])
  cases hn : l.negative with
  | true => exact ⟨'-', _, by simp [Literal.chars, hn]; rfl, by decide⟩
  | false =>
    exact ⟨c, _, by simp [Literal.chars, hn, hc]; rfl, mem_numberHeads_of_isDigit hd⟩

theorem value?_literal {l : Literal} (h : l.WellFormed) (hr : EndsNumber rest) :
    value? (fuel + 1) depth (l.chars ++ rest) = l.value?.map fun j => (j, rest) := by
  obtain ⟨c, cs, hc, hm⟩ := exists_head_chars h
  rw [← Literal.number?_chars h hr, hc, List.cons_append, value?_number hm]

theorem value?_null : value? (fuel + 1) depth (nullChars ++ rest) = some (.null, rest) := by
  rw [value?, nullChars, List.cons_append, skipSpace_cons (by decide)]
  rfl

theorem value?_bool (b : Bool) :
    value? (fuel + 1) depth (boolChars b ++ rest) = some (.bool b, rest) := by
  cases b with
  | true =>
    rw [value?, boolChars, List.cons_append, skipSpace_cons (by decide)]
    rfl
  | false =>
    rw [value?, boolChars, List.cons_append, skipSpace_cons (by decide)]
    rfl

theorem value?_string (s : String) :
    value? (fuel + 1) depth (stringChars s ++ rest) = some (.string s, rest) := by
  obtain ⟨cs, hc, hs⟩ := string?_stringChars s rest
  rw [hc, value?, skipSpace_cons (by decide)]
  simp [hs]

/-- What follows a leaf does not change what it is read as. -/
def ReadsApart (cs : List Char) : Prop := ∀ fuel depth rest, EndsNumber rest →
  value? (fuel + 1) depth (cs ++ rest) = (value? 1 0 cs).map fun p => (p.1, rest)

theorem readsApart_of_eq {cs : List Char} {j : Option Json}
    (h : ∀ fuel depth rest, EndsNumber rest →
      value? (fuel + 1) depth (cs ++ rest) = j.map fun j => (j, rest)) : ReadsApart cs := by
  intro fuel depth rest hr
  have h₀ := h 0 0 [] endsNumber_nil
  rw [List.append_nil] at h₀
  rw [h fuel depth rest hr, h₀]
  cases j <;> rfl

theorem readsApart_null : ReadsApart nullChars :=
  readsApart_of_eq (j := some .null) fun _ _ _ _ => value?_null

theorem readsApart_literal {l : Literal} (h : l.WellFormed) : ReadsApart l.chars :=
  readsApart_of_eq (j := l.value?) fun _ _ _ hr => value?_literal h hr

theorem readsApart_integer (n : Int) : ReadsApart (integerChars n) :=
  chars_integerLiteral n ▸ readsApart_literal (wellFormed_integerLiteral n)

theorem readsApart_float (x : Float) : ReadsApart (floatChars x) := by
  rcases floatChars_eq x with ⟨l, hl, -, hc⟩ | hc
  · exact hc ▸ readsApart_literal hl
  · exact hc ▸ readsApart_null

end Leaf

section Head

/-- What a value starts with: no space, and no closing bracket. -/
def StartsValue (cs : List Char) : Prop := ∃ c rest, cs = c :: rest ∧ isSpace c = false ∧ c ≠ ']'

theorem startsValue_literal {l : Literal} (h : l.WellFormed) : StartsValue l.chars := by
  obtain ⟨c, cs, hc, hm⟩ := exists_head_chars h
  exact ⟨c, cs, hc, isSpace_of_mem_numberHeads hm⟩

theorem startsValue_chars (l : Layout) (level : Nat) (j : Json) :
    StartsValue (l.chars level j) := by
  cases j with
  | null => exact ⟨'n', _, rfl, by decide⟩
  | bool b => cases b <;> exact ⟨_, _, rfl, by decide⟩
  | integer n =>
    have h := startsValue_literal (wellFormed_integerLiteral n)
    rw [chars_integerLiteral] at h
    exact h
  | float x =>
    rcases floatChars_eq x with ⟨l, hl, -, hc⟩ | hc
    · have h := startsValue_literal hl
      rw [hc] at h
      exact h
    · exact ⟨'n', _, hc, by decide⟩
  | string s => exact ⟨'"', _, rfl, by decide⟩
  | array items =>
    cases items with
    | nil => exact ⟨'[', _, rfl, by decide⟩
    | cons item items => exact ⟨'[', _, rfl, by decide⟩
  | object fields =>
    cases fields with
    | nil => exact ⟨'\x7b', _, rfl, by decide⟩
    | cons field fields => exact ⟨'\x7b', _, rfl, by decide⟩

end Head

mutual

/-- What is read of a value that was written. Only numbers may change. -/
def reread? : Json → Option Json
  | .array items => (rereadItems? items).map .array
  | .object fields => (rereadFields? fields).map .object
  | .null => some .null
  | .bool b => some (.bool b)
  | .string s => some (.string s)
  | .integer n => (value? 1 0 (integerChars n)).map Prod.fst
  | .float x => (value? 1 0 (floatChars x)).map Prod.fst

def rereadItems? : List Json → Option (List Json)
  | [] => some []
  | item :: items => (reread? item).bind fun item => (rereadItems? items).map (item :: ·)

def rereadFields? : List (String × Json) → Option (List (String × Json))
  | [] => some []
  | (name, value) :: fields =>
    (reread? value).bind fun value => (rereadFields? fields).map ((name, value) :: ·)

def nesting : Json → Nat
  | .array items => nestingItems items + 1
  | .object fields => nestingFields fields + 1
  | _ => 0

def nestingItems : List Json → Nat
  | [] => 0
  | item :: items => max (nesting item) (nestingItems items)

def nestingFields : List (String × Json) → Nat
  | [] => 0
  | (_, value) :: fields => max (nesting value) (nestingFields fields)

end

theorem reread?_integer (n : Int) : reread? (.integer n) = (integerLiteral n).value? := by
  have hl := @value?_literal 0 0 [] _ (wellFormed_integerLiteral n) endsNumber_nil
  rw [List.append_nil, chars_integerLiteral] at hl
  rw [reread?, hl, Option.map_map]
  exact congrFun Option.map_id _

theorem eq_float_of_reread? {x : Float} {j : Json} (h : reread? (.float x) = some j) :
    (∃ y, j = .float y) ∨ j = .null := by
  obtain ⟨p, hp, rfl⟩ := Option.map_eq_some_iff.1 h
  rcases floatChars_eq x with ⟨l, hl, hd, hc⟩ | hc
  · have hv := @value?_literal 0 0 [] _ hl endsNumber_nil
    rw [List.append_nil, hc, hp] at hv
    obtain ⟨j, hj, rfl⟩ := Option.map_eq_some_iff.1 hv.symm
    exact .inl (hd.eq_float hj)
  · have hv := @value?_null 0 0 []
    rw [List.append_nil, ← hc, hp] at hv
    obtain rfl := Option.some.inj hv
    exact .inr rfl

theorem rereadItems?_eq_some_iff {items items' : List Json} :
    rereadItems? items = some items' ↔
      List.Forall₂ (fun j j' => reread? j = some j') items items' := by
  induction items generalizing items' with
  | nil =>
    rw [rereadItems?, List.forall₂_nil_left_iff, Option.some.injEq]
    exact eq_comm
  | cons item items ih =>
    rw [rereadItems?, Option.bind_eq_some_iff, List.forall₂_cons_left_iff]
    constructor
    · rintro ⟨j, hj, h⟩
      obtain ⟨rest, hr, rfl⟩ := Option.map_eq_some_iff.1 h
      exact ⟨j, rest, hj, ih.1 hr, rfl⟩
    · rintro ⟨j, rest, hj, hr, rfl⟩
      exact ⟨j, hj, Option.map_eq_some_iff.2 ⟨rest, ih.2 hr, rfl⟩⟩

theorem rereadFields?_eq_some_iff {fields fields' : List (String × Json)} :
    rereadFields? fields = some fields' ↔
      List.Forall₂ (fun p q => p.1 = q.1 ∧ reread? p.2 = some q.2) fields fields' := by
  induction fields generalizing fields' with
  | nil =>
    rw [rereadFields?, List.forall₂_nil_left_iff, Option.some.injEq]
    exact eq_comm
  | cons field fields ih =>
    obtain ⟨name, value⟩ := field
    rw [rereadFields?, Option.bind_eq_some_iff, List.forall₂_cons_left_iff]
    constructor
    · rintro ⟨j, hj, h⟩
      obtain ⟨rest, hr, rfl⟩ := Option.map_eq_some_iff.1 h
      exact ⟨(name, j), rest, ⟨rfl, hj⟩, ih.1 hr, rfl⟩
    · rintro ⟨⟨_, j⟩, rest, ⟨rfl, hj⟩, hr, rfl⟩
      exact ⟨j, hj, Option.map_eq_some_iff.2 ⟨rest, ih.2 hr, rfl⟩⟩

theorem nestingItems_le {items : List Json} {n : Nat} (h : ∀ j ∈ items, nesting j ≤ n) :
    nestingItems items ≤ n := by
  induction items with
  | nil => exact Nat.zero_le n
  | cons item items ih =>
    obtain ⟨hitem, hitems⟩ := List.forall_mem_cons.1 h
    exact Nat.max_le.2 ⟨hitem, ih hitems⟩

theorem nestingFields_le {fields : List (String × Json)} {n : Nat}
    (h : ∀ p ∈ fields, nesting p.2 ≤ n) : nestingFields fields ≤ n := by
  induction fields with
  | nil => exact Nat.zero_le n
  | cons field fields ih =>
    obtain ⟨hfield, hfields⟩ := List.forall_mem_cons.1 h
    exact Nat.max_le.2 ⟨hfield, ih hfields⟩

section Nested
variable {l : Layout} {fuel depth level : Nat} {rest cs : List Char}

theorem value?_bracket (cs : List Char) :
    value? (fuel + 1) (depth + 1) ('[' :: cs) = match skipSpace cs with
      | ']' :: rest => some (.array [], rest)
      | rest => (items? fuel depth rest).map fun p => (.array p.1, p.2) := by
  rw [value?, skipSpace_cons (by decide)]
  rfl

theorem value?_brace (cs : List Char) :
    value? (fuel + 1) (depth + 1) ('\x7b' :: cs) = match skipSpace cs with
      | '\x7d' :: rest => some (.object [], rest)
      | rest => (fields? fuel depth rest).map fun p => (.object p.1, p.2) := by
  rw [value?, skipSpace_cons (by decide)]
  rfl

theorem value?_array (h : StartsValue cs) (n : Nat) :
    value? (fuel + 1) (depth + 1) ('[' :: (l.gap n ++ cs)) =
      (items? fuel depth cs).map fun p => (.array p.1, p.2) := by
  obtain ⟨c, rest, rfl, hs, hc⟩ := h
  rw [value?_bracket, skipSpace_append (l.isSpace_gap n), skipSpace_cons hs]
  split
  next he =>
    cases he
    exact absurd rfl hc
  next => rfl

theorem value?_object (n : Nat) :
    value? (fuel + 1) (depth + 1) ('\x7b' :: (l.gap n ++ '"' :: cs)) =
      (fields? fuel depth ('"' :: cs)).map fun p => (.object p.1, p.2) := by
  rw [value?_brace, skipSpace_append (l.isSpace_gap n), skipSpace_cons (by decide)]
  rfl

theorem endsNumber_space_append {spaces : List Char} (h : ∀ c ∈ spaces, isSpace c = true)
    (hc : EndsNumber cs) : EndsNumber (spaces ++ cs) := by
  cases spaces with
  | nil => exact hc
  | cons c spaces =>
    rintro c ⟨⟩
    have hs := h c (List.mem_cons_self ..)
    simp only [isSpace, Bool.or_eq_true, beq_iff_eq] at hs
    rcases hs with ((rfl | rfl) | rfl) | rfl <;> decide

theorem endsNumber_moreItems (items : List Json) :
    EndsNumber (l.moreItems level items ++ rest) := by
  cases items with
  | nil =>
    rw [Layout.moreItems, List.append_assoc]
    refine endsNumber_space_append (l.isSpace_gap level) ?_
    rintro c ⟨⟩
    decide
  | cons item items =>
    rw [Layout.moreItems_cons]
    rintro c ⟨⟩
    decide

theorem endsNumber_moreFields (fields : List (String × Json)) :
    EndsNumber (l.moreFields level fields ++ rest) := by
  cases fields with
  | nil =>
    rw [Layout.moreFields, List.append_assoc]
    refine endsNumber_space_append (l.isSpace_gap level) ?_
    rintro c ⟨⟩
    decide
  | cons field fields =>
    rw [Layout.moreFields_cons]
    rintro c ⟨⟩
    decide

theorem skipSpace_moreItems_nil :
    skipSpace (l.moreItems level [] ++ rest) = ']' :: rest := by
  rw [Layout.moreItems, List.append_assoc, skipSpace_append (l.isSpace_gap level)]
  exact skipSpace_cons (by decide) rest

theorem skipSpace_moreItems_cons (item : Json) (items : List Json) :
    skipSpace (l.moreItems level (item :: items) ++ rest) =
      ',' :: (l.gap (level + 1) ++ (l.itemsText level (item :: items) ++ rest)) := by
  rw [Layout.moreItems_cons, List.cons_append, skipSpace_cons (by decide), List.append_assoc]

theorem items?_gap (n : Nat) : items? fuel depth (l.gap n ++ cs) = items? fuel depth cs := by
  cases fuel with
  | zero => rw [items?, items?]
  | succ fuel => rw [items?, items?, value?_congr_space (skipSpace_append (l.isSpace_gap n) cs)]

theorem items?_cons {item : Json} {items : List Json}
    (hv : value? fuel depth (l.chars (level + 1) item ++ (l.moreItems level items ++ rest)) =
      (reread? item).map fun j => (j, l.moreItems level items ++ rest))
    (hi : items ≠ [] → items? fuel depth (l.itemsText level items ++ rest) =
      (rereadItems? items).map fun js => (js, rest)) :
    items? (fuel + 1) depth (l.itemsText level (item :: items) ++ rest) =
      (rereadItems? (item :: items)).map fun js => (js, rest) := by
  rw [Layout.itemsText, List.append_assoc, items?, hv, rereadItems?]
  cases reread? item with
  | none => rfl
  | some j =>
    simp only [Option.map_some, Option.bind_some]
    cases items with
    | nil =>
      rw [skipSpace_moreItems_nil]
      rfl
    | cons item' items =>
      rw [skipSpace_moreItems_cons]
      simp only [items?_gap, hi (List.cons_ne_nil _ _)]
      cases rereadItems? (item' :: items) <;> rfl

theorem skipSpace_moreFields_nil :
    skipSpace (l.moreFields level [] ++ rest) = '\x7d' :: rest := by
  rw [Layout.moreFields, List.append_assoc, skipSpace_append (l.isSpace_gap level)]
  exact skipSpace_cons (by decide) rest

theorem skipSpace_moreFields_cons (field : String × Json) (fields : List (String × Json)) :
    skipSpace (l.moreFields level (field :: fields) ++ rest) =
      ',' :: (l.gap (level + 1) ++ (l.fieldsText level (field :: fields) ++ rest)) := by
  rw [Layout.moreFields_cons, List.cons_append, skipSpace_cons (by decide), List.append_assoc]

theorem fields?_gap (n : Nat) : fields? fuel depth (l.gap n ++ cs) = fields? fuel depth cs := by
  cases fuel with
  | zero => rw [fields?, fields?]
  | succ fuel => rw [fields?, fields?, field1?_congr_space (skipSpace_append (l.isSpace_gap n) cs)]

theorem field1?_eq (name : String) :
    field1? (fuel + 1) depth (stringChars name ++ ':' :: (l.pad ++ cs)) =
      (value? fuel depth cs).map fun p => ((name, p.1), p.2) := by
  -- The spaces after the colon are skipped with the value, not with the colon.
  obtain ⟨rest, hc, hs⟩ := string?_stringChars name (':' :: (l.pad ++ cs))
  have hv := value?_congr_space (skipSpace_append l.isSpace_pad cs) fuel depth
  rw [hc, field1?, skipSpace_cons (by decide)]
  simp only [hs]
  rw [skipSpace_cons (by decide)]
  change (value? fuel depth (l.pad ++ cs)).map _ = _
  rw [hv]

theorem fields?_cons {name : String} {value : Json} {fields : List (String × Json)}
    (hv : value? fuel depth (l.chars (level + 1) value ++ (l.moreFields level fields ++ rest)) =
      (reread? value).map fun j => (j, l.moreFields level fields ++ rest))
    (hf : fields ≠ [] → fields? (fuel + 1) depth (l.fieldsText level fields ++ rest) =
      (rereadFields? fields).map fun js => (js, rest)) :
    fields? (fuel + 2) depth (l.fieldsText level ((name, value) :: fields) ++ rest) =
      (rereadFields? ((name, value) :: fields)).map fun js => (js, rest) := by
  have ht : l.fieldsText level ((name, value) :: fields) ++ rest = stringChars name ++ ':' ::
      (l.pad ++ (l.chars (level + 1) value ++ (l.moreFields level fields ++ rest))) := by
    simp [Layout.fieldsText]
  rw [ht, fields?, field1?_eq, hv, rereadFields?]
  cases reread? value with
  | none => rfl
  | some j =>
    simp only [Option.map_some, Option.bind_some]
    cases fields with
    | nil =>
      rw [skipSpace_moreFields_nil]
      rfl
    | cons field fields =>
      rw [skipSpace_moreFields_cons]
      simp only [fields?_gap, hf (List.cons_ne_nil _ _)]
      cases rereadFields? (field :: fields) <;> rfl

end Nested

section Text
variable (l : Layout)

theorem length_chars_pos (level : Nat) (j : Json) : 0 < (l.chars level j).length := by
  obtain ⟨c, cs, hc, -⟩ := startsValue_chars l level j
  simp [hc]

theorem startsValue_append {cs : List Char} (h : StartsValue cs) (rest : List Char) :
    StartsValue (cs ++ rest) := by
  obtain ⟨c, cs, rfl, hs⟩ := h
  exact ⟨c, cs ++ rest, rfl, hs⟩

theorem startsValue_itemsText (level : Nat) (item : Json) (items : List Json) :
    StartsValue (l.itemsText level (item :: items)) :=
  startsValue_append (startsValue_chars l (level + 1) item) _

theorem length_itemsText_add_one_le (level : Nat) (items : List Json) :
    (l.itemsText level items).length + 1 ≤ (l.moreItems level items).length := by
  cases items with
  | nil => simp [Layout.itemsText, Layout.moreItems]
  | cons item items => simp [Layout.moreItems_cons]

theorem length_fieldsText_add_one_le (level : Nat) (fields : List (String × Json)) :
    (l.fieldsText level fields).length + 1 ≤ (l.moreFields level fields).length := by
  cases fields with
  | nil => simp [Layout.fieldsText, Layout.moreFields]
  | cons field fields => simp [Layout.moreFields_cons]

theorem exists_eq_succ {n m : Nat} (h : n + 1 ≤ m) : ∃ k, m = k + 1 ∧ n ≤ k :=
  ⟨m - 1, by omega, by omega⟩

mutual

/-- Three steps a character are enough: a field takes two more than its value. -/
theorem value?_chars : ∀ (j : Json) (fuel depth level : Nat) (rest : List Char),
    3 * (l.chars level j).length ≤ fuel → nesting j ≤ depth → EndsNumber rest →
    value? fuel depth (l.chars level j ++ rest) = (reread? j).map fun j => (j, rest)
  | j, 0, depth, level, rest, hf, _, _ => by
    have hp := length_chars_pos l level j
    omega
  | .null, fuel + 1, depth, level, rest, _, _, _ => value?_null
  | .bool b, fuel + 1, depth, level, rest, _, _, _ => value?_bool b
  | .string s, fuel + 1, depth, level, rest, _, _, _ => value?_string s
  | .integer n, fuel + 1, depth, level, rest, _, _, hr => by
    rw [Layout.chars, readsApart_integer n fuel depth rest hr, reread?, Option.map_map]
    rfl
  | .float x, fuel + 1, depth, level, rest, _, _, hr => by
    rw [Layout.chars, readsApart_float x fuel depth rest hr, reread?, Option.map_map]
    rfl
  | .array [], fuel + 1, depth, level, rest, hf, hd, hr => by
    obtain ⟨d, rfl, -⟩ := exists_eq_succ hd
    rw [Layout.chars]
    exact (value?_bracket _).trans rfl
  | .array (item :: items), fuel + 1, depth, level, rest, hf, hd, hr => by
    rw [nesting] at hd
    obtain ⟨d, rfl, hn⟩ := exists_eq_succ hd
    have hl : 3 * (l.itemsText level (item :: items)).length ≤ fuel := by
      rw [Layout.chars_array_cons] at hf
      simp only [List.length_cons, List.length_append] at hf
      omega
    have hi := items?_itemsText (item :: items) fuel d level rest (List.cons_ne_nil _ _) hl hn
    rw [Layout.chars_array_cons, List.cons_append, List.append_assoc,
      value?_array (startsValue_append (startsValue_itemsText l level item items) rest), hi,
      reread?, Option.map_map, Option.map_map]
    rfl
  | .object [], fuel + 1, depth, level, rest, hf, hd, hr => by
    obtain ⟨d, rfl, -⟩ := exists_eq_succ hd
    rw [Layout.chars]
    exact (value?_brace _).trans rfl
  | .object (field :: fields), fuel + 1, depth, level, rest, hf, hd, hr => by
    rw [nesting] at hd
    obtain ⟨d, rfl, hn⟩ := exists_eq_succ hd
    have hl : 3 * (l.fieldsText level (field :: fields)).length ≤ fuel := by
      rw [Layout.chars_object_cons] at hf
      simp only [List.length_cons, List.length_append] at hf
      omega
    have hi := fields?_fieldsText (field :: fields) fuel d level rest (List.cons_ne_nil _ _) hl hn
    rw [Layout.chars_object_cons, List.cons_append, List.append_assoc]
    refine (value?_object (level + 1)).trans ?_
    refine (congrArg _ hi).trans ?_
    rw [reread?, Option.map_map, Option.map_map]
    rfl

theorem items?_itemsText : ∀ (items : List Json) (fuel depth level : Nat) (rest : List Char),
    items ≠ [] → 3 * (l.itemsText level items).length ≤ fuel → nestingItems items ≤ depth →
    items? fuel depth (l.itemsText level items ++ rest) =
      (rereadItems? items).map fun js => (js, rest)
  | [], _, _, _, _, hne, _, _ => absurd rfl hne
  | item :: items, fuel, depth, level, rest, _, hf, hd => by
    have hl := length_itemsText_add_one_le l level items
    rw [Layout.itemsText, List.length_append] at hf
    obtain ⟨f, rfl, -⟩ := exists_eq_succ (n := 0) (m := fuel) (by omega)
    have hn : nesting item ≤ depth ∧ nestingItems items ≤ depth := Nat.max_le.1 hd
    refine items?_cons ?_ fun hne => ?_
    · exact value?_chars item f depth (level + 1) _ (by omega) hn.1 (endsNumber_moreItems items)
    · exact items?_itemsText items f depth level rest hne (by omega) hn.2

theorem fields?_fieldsText : ∀ (fields : List (String × Json)) (fuel depth level : Nat)
    (rest : List Char), fields ≠ [] → 3 * (l.fieldsText level fields).length ≤ fuel →
    nestingFields fields ≤ depth →
    fields? fuel depth (l.fieldsText level fields ++ rest) =
      (rereadFields? fields).map fun js => (js, rest)
  | [], _, _, _, _, hne, _, _ => absurd rfl hne
  | (name, value) :: fields, fuel, depth, level, rest, _, hf, hd => by
    have hl := length_fieldsText_add_one_le l level fields
    simp only [Layout.fieldsText, List.length_append, List.length_cons] at hf
    obtain ⟨f, rfl, -⟩ := exists_eq_succ (n := 0) (m := fuel) (by omega)
    obtain ⟨f, rfl, -⟩ := exists_eq_succ (n := 0) (m := f) (by omega)
    have hn : nesting value ≤ depth ∧ nestingFields fields ≤ depth := Nat.max_le.1 hd
    refine fields?_cons ?_ fun hne => ?_
    · exact value?_chars value f depth (level + 1) _ (by omega) hn.1
        (endsNumber_moreFields fields)
    · exact fields?_fieldsText fields (f + 1) depth level rest hne (by omega) hn.2

end

variable {j : Json}

theorem prefixValue?_chars (h : nesting j ≤ maxDepth) :
    prefixValue? (l.chars 0 j) = (reread? j).map fun j => (j, []) := by
  have hf : 3 * (l.chars 0 j).length ≤ stepsFor (l.chars 0 j) := Nat.le_add_right ..
  have hv := value?_chars l j _ maxDepth 0 [] hf h endsNumber_nil
  rwa [List.append_nil] at hv

theorem parse?_chars (h : nesting j ≤ maxDepth) :
    parse? (String.ofList (l.chars 0 j)) = reread? j := by
  rw [parse?, String.toList_ofList, prefixValue?_chars l h]
  cases reread? j <;> rfl

theorem parse?_render (h : nesting j ≤ maxDepth) : parse? j.render = reread? j := by
  rw [render, ← chars_compact 0, parse?_chars compact h]

end Text

end SimCampaign.Json
