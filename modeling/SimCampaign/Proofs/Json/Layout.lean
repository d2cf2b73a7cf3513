import SimCampaign.Json.Reader
import SimCampaign.Json.Writer

/-! Both kinds of JSON text as one: what is written between the spaces is the same. -/

namespace SimCampaign.Json

/-- The spaces in front of items, fields and closing brackets, by their level, and after colons. -/
structure Layout where
  gap : Nat → List Char
  pad : List Char
  isSpace_gap : ∀ level, ∀ c ∈ gap level, isSpace c = true
  isSpace_pad : ∀ c ∈ pad, isSpace c = true

theorem isSpace_of_mem_newline (level : Nat) : ∀ c ∈ newline level, isSpace c = true := by
  intro c hc
  rcases List.mem_cons.1 hc with rfl | hc
  · decide
  · obtain rfl := (List.mem_replicate.1 hc).2
    decide

def indented : Layout where
  gap := newline
  pad := [' ']
  isSpace_gap := isSpace_of_mem_newline
  isSpace_pad c hc := by
    rw [List.mem_singleton.1 hc]
    rfl

def compact : Layout where
  gap _ := []
  pad := []
  isSpace_gap _ _ hc := by cases hc
  isSpace_pad _ hc := by cases hc

namespace Layout

mutual

def chars (l : Layout) (level : Nat) : Json → List Char
  | .array (item :: items) =>
    '[' :: l.gap (level + 1) ++ (chars l (level + 1) item ++ moreItems l level items)
  | .object ((name, value) :: fields) =>
    '\x7b' :: l.gap (level + 1) ++ (stringChars name ++ ':' :: l.pad ++
      (chars l (level + 1) value ++ moreFields l level fields))
  | .array [] => ['[', ']']
  | .object [] => ['\x7b', '\x7d']
  | .null => nullChars
  | .bool b => boolChars b
  | .integer n => integerChars n
  | .float x => floatChars x
  | .string s => stringChars s

def moreItems (l : Layout) (level : Nat) : List Json → List Char
  | [] => l.gap level ++ [']']
  | item :: items =>
    ',' :: l.gap (level + 1) ++ (chars l (level + 1) item ++ moreItems l level items)

def moreFields (l : Layout) (level : Nat) : List (String × Json) → List Char
  | [] => l.gap level ++ ['\x7d']
  | (name, value) :: fields =>
    ',' :: l.gap (level + 1) ++ (stringChars name ++ ':' :: l.pad ++
      (chars l (level + 1) value ++ moreFields l level fields))

end

def itemsText (l : Layout) (level : Nat) : List Json → List Char
  | [] => []
  | item :: items => l.chars (level + 1) item ++ l.moreItems level items

def fieldsText (l : Layout) (level : Nat) : List (String × Json) → List Char
  | [] => []
  | (name, value) :: fields =>
    stringChars name ++ ':' :: l.pad ++ (l.chars (level + 1) value ++ l.moreFields level fields)

section Cons
variable (l : Layout) (level : Nat)

theorem chars_array_cons (item : Json) (items : List Json) :
    l.chars level (.array (item :: items)) =
      '[' :: (l.gap (level + 1) ++ l.itemsText level (item :: items)) := by
  rw [chars, itemsText, List.cons_append]

theorem chars_object_cons (field : String × Json) (fields : List (String × Json)) :
    l.chars level (.object (field :: fields)) =
      '\x7b' :: (l.gap (level + 1) ++ l.fieldsText level (field :: fields)) := by
  rw [chars, fieldsText, List.cons_append]

theorem moreItems_cons (item : Json) (items : List Json) :
    l.moreItems level (item :: items) =
      ',' :: (l.gap (level + 1) ++ l.itemsText level (item :: items)) := by
  rw [moreItems, itemsText, List.cons_append]

theorem moreFields_cons (field : String × Json) (fields : List (String × Json)) :
    l.moreFields level (field :: fields) =
      ',' :: (l.gap (level + 1) ++ l.fieldsText level (field :: fields)) := by
  rw [moreFields, fieldsText, List.cons_append]

end Cons

end Layout

section Indented

mutual

theorem chars_indented : ∀ (level : Nat) (j : Json), indented.chars level j = indentedChars level j
  | level, .array (item :: items) => by
    rw [Layout.chars, indentedChars, chars_indented, moreItems_indented, List.append_assoc]
    rfl
  | level, .object ((name, value) :: fields) => by
    rw [Layout.chars, indentedChars, chars_indented, moreFields_indented]
    simp [indented]
  | level, .array [] => by rw [Layout.chars, indentedChars]
  | level, .object [] => by rw [Layout.chars, indentedChars]
  | level, .null => by rw [Layout.chars, indentedChars]
  | level, .bool b => by rw [Layout.chars, indentedChars]
  | level, .integer n => by rw [Layout.chars, indentedChars]
  | level, .float x => by rw [Layout.chars, indentedChars]
  | level, .string s => by rw [Layout.chars, indentedChars]

theorem moreItems_indented : ∀ (level : Nat) (items : List Json),
    indented.moreItems level items = indentedItems level items
  | level, [] => by
    rw [Layout.moreItems, indentedItems]
    rfl
  | level, item :: items => by
    rw [Layout.moreItems, indentedItems, chars_indented, moreItems_indented, List.append_assoc]
    rfl

theorem moreFields_indented : ∀ (level : Nat) (fields : List (String × Json)),
    indented.moreFields level fields = indentedFields level fields
  | level, [] => by
    rw [Layout.moreFields, indentedFields]
    rfl
  | level, (name, value) :: fields => by
    rw [Layout.moreFields, indentedFields, chars_indented, moreFields_indented]
    simp [indented]

end

end Indented

section Compact

theorem itemChars_cons_cons (item item' : Json) (items : List Json) :
    itemChars (item :: item' :: items) = chars item ++ ',' :: itemChars (item' :: items) :=
  itemChars.eq_3 item (item' :: items) (List.cons_ne_nil _ _)

theorem fieldChars_cons_cons (name : String) (value : Json) (field : String × Json)
    (fields : List (String × Json)) :
    fieldChars ((name, value) :: field :: fields) =
      stringChars name ++ ':' :: chars value ++ ',' :: fieldChars (field :: fields) :=
  fieldChars.eq_3 name value (field :: fields) (List.cons_ne_nil _ _)

mutual

theorem chars_compact : ∀ (level : Nat) (j : Json), compact.chars level j = chars j
  | level, .array (item :: items) => by
    rw [Layout.chars_array_cons, itemsText_compact level _ (List.cons_ne_nil _ _), chars]
    rfl
  | level, .object (field :: fields) => by
    rw [Layout.chars_object_cons, fieldsText_compact level _ (List.cons_ne_nil _ _), chars]
    rfl
  | level, .array [] => by rw [Layout.chars, chars, itemChars]
  | level, .object [] => by rw [Layout.chars, chars, fieldChars]
  | level, .null => by rw [Layout.chars, chars]
  | level, .bool b => by rw [Layout.chars, chars]
  | level, .integer n => by rw [Layout.chars, chars]
  | level, .float x => by rw [Layout.chars, chars]
  | level, .string s => by rw [Layout.chars, chars]

theorem itemsText_compact : ∀ (level : Nat) (items : List Json), items ≠ [] →
    compact.itemsText level items = itemChars items
  | _, [], h => absurd rfl h
  | level, [item], _ => by
    rw [Layout.itemsText, chars_compact, Layout.moreItems, itemChars]
    rfl
  | level, item :: item' :: items, _ => by
    rw [Layout.itemsText, chars_compact, Layout.moreItems_cons,
      itemsText_compact level (item' :: items) (List.cons_ne_nil _ _), itemChars_cons_cons]
    rfl

theorem fieldsText_compact : ∀ (level : Nat) (fields : List (String × Json)), fields ≠ [] →
    compact.fieldsText level fields = fieldChars fields
  | _, [], h => absurd rfl h
  | level, [(name, value)], _ => by
    rw [Layout.fieldsText, chars_compact, Layout.moreFields, fieldChars]
    simp [compact]
  | level, (name, value) :: field :: fields, _ => by
    rw [Layout.fieldsText, chars_compact, Layout.moreFields_cons,
      fieldsText_compact level (field :: fields) (List.cons_ne_nil _ _), fieldChars_cons_cons]
    simp [compact]

end

end Compact

end SimCampaign.Json
