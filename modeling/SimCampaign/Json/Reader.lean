import SimCampaign.Json.Number

/-! JSON text as values. An object text can also be read field by field up to its first flaw. -/

namespace SimCampaign.Json

def isSpace (c : Char) : Bool := c == ' ' || c == '\n' || c == '\t' || c == '\r'

def skipSpace (cs : List Char) : List Char := cs.dropWhile isSpace

def hexDigit? (c : Char) : Option Nat :=
  if c.isDigit then some (c.toNat - '0'.toNat)
  else if 'a' ≤ c ∧ c ≤ 'f' then some (c.toNat - 'a'.toNat + 10)
  else if 'A' ≤ c ∧ c ≤ 'F' then some (c.toNat - 'A'.toNat + 10)
  else none

def hexUnit? (a b c d : Char) : Option Nat := do
  let a ← hexDigit? a
  let b ← hexDigit? b
  let c ← hexDigit? c
  let d ← hexDigit? d
  some (((a * 16 + b) * 16 + c) * 16 + d)

def isLeadingUnit (n : Nat) : Bool := 0xd800 ≤ n && n < 0xdc00

def isTrailingUnit (n : Nat) : Bool := 0xdc00 ≤ n && n < 0xe000

/-- The character of two units of sixteen bits. -/
def pairChar (leading trailing : Nat) : Char :=
  Char.ofNat (0x10000 + (leading - 0xd800) * 0x400 + (trailing - 0xdc00))

def simpleEscape? : Char → Option Char
  | '"' => some '"'
  | '\\' => some '\\'
  | '/' => some '/'
  | 'b' => some '\x08'
  | 'f' => some '\x0c'
  | 'n' => some '\n'
  | 'r' => some '\r'
  | 't' => some '\t'
  | _ => none

/-- The characters up to the closing quote, and what follows it. -/
def stringBody? : List Char → Option (List Char × List Char)
  | [] => none
  | '"' :: rest => some ([], rest)
  | '\\' :: 'u' :: a :: b :: c :: d :: '\\' :: 'u' :: e :: f :: g :: h :: rest =>
    match hexUnit? a b c d with
    | none => none
    | some n =>
      if isLeadingUnit n then
        match hexUnit? e f g h with
        | none => none
        | some m =>
          if isTrailingUnit m then (stringBody? rest).map fun (s, r) => (pairChar n m :: s, r)
          else none
      else if isTrailingUnit n then none
      else (stringBody? ('\\' :: 'u' :: e :: f :: g :: h :: rest)).map fun (s, r) =>
        (Char.ofNat n :: s, r)
  | '\\' :: 'u' :: a :: b :: c :: d :: rest =>
    match hexUnit? a b c d with
    | none => none
    | some n =>
      if isLeadingUnit n || isTrailingUnit n then none
      else (stringBody? rest).map fun (s, r) => (Char.ofNat n :: s, r)
  | '\\' :: c :: rest =>
    match simpleEscape? c with
    | none => none
    | some x => (stringBody? rest).map fun (s, r) => (x :: s, r)
  | ['\\'] => none
  | c :: rest =>
    if c.toNat < 0x20 then none else (stringBody? rest).map fun (s, r) => (c :: s, r)

def string? (cs : List Char) : Option (String × List Char) :=
  (stringBody? cs).map fun (s, rest) => (String.ofList s, rest)

mutual

/-- A value at the front of the text and what follows it. Arrays and objects may be nested `depth`
deep; `fuel` bounds the number of steps. -/
def value? : Nat → Nat → List Char → Option (Json × List Char)
  | 0, _, _ => none
  | fuel + 1, depth, cs =>
    match skipSpace cs with
    | 'n' :: 'u' :: 'l' :: 'l' :: rest => some (.null, rest)
    | 't' :: 'r' :: 'u' :: 'e' :: rest => some (.bool true, rest)
    | 'f' :: 'a' :: 'l' :: 's' :: 'e' :: rest => some (.bool false, rest)
    | '"' :: rest => (string? rest).map fun (s, rest) => (.string s, rest)
    | '[' :: rest =>
      match depth with
      | 0 => none
      | depth + 1 =>
        match skipSpace rest with
        | ']' :: rest => some (.array [], rest)
        | rest => (items? fuel depth rest).map fun (items, rest) => (.array items, rest)
    | '\x7b' :: rest =>
      match depth with
      | 0 => none
      | depth + 1 =>
        match skipSpace rest with
        | '\x7d' :: rest => some (.object [], rest)
        | rest => (fields? fuel depth rest).map fun (fields, rest) => (.object fields, rest)
    | rest => number? rest

/-- Values separated by commas up to the closing bracket. -/
def items? : Nat → Nat → List Char → Option (List Json × List Char)
  | 0, _, _ => none
  | fuel + 1, depth, cs =>
    match value? fuel depth cs with
    | none => none
    | some (item, rest) =>
      match skipSpace rest with
      | ',' :: rest => (items? fuel depth rest).map fun (items, rest) => (item :: items, rest)
      | ']' :: rest => some ([item], rest)
      | _ => none

/-- Fields separated by commas up to the closing brace. -/
def fields? : Nat → Nat → List Char → Option (List (String × Json) × List Char)
  | 0, _, _ => none
  | fuel + 1, depth, cs =>
    match field1? fuel depth cs with
    | none => none
    | some (field, rest) =>
      match skipSpace rest with
      | ',' :: rest => (fields? fuel depth rest).map fun (fields, rest) => (field :: fields, rest)
      | '\x7d' :: rest => some ([field], rest)
      | _ => none

/-- A name, a colon and a value. -/
def field1? : Nat → Nat → List Char → Option ((String × Json) × List Char)
  | 0, _, _ => none
  | fuel + 1, depth, cs =>
    match skipSpace cs with
    | '"' :: rest =>
      match string? rest with
      | none => none
      | some (name, rest) =>
        match skipSpace rest with
        | ':' :: rest => (value? fuel depth rest).map fun (value, rest) => ((name, value), rest)
        | _ => none
    | _ => none

end

def maxDepth : Nat := 127

def stepsFor (cs : List Char) : Nat := 3 * cs.length + 3

/-- A value at the front of a text and what follows it. -/
def prefixValue? (cs : List Char) : Option (Json × List Char) := value? (stepsFor cs) maxDepth cs

def parse? (text : String) : Option Json :=
  match prefixValue? text.toList with
  | some (value, rest) => if skipSpace rest = [] then some value else none
  | none => none

/-- What reading an object text from the front meets: its fields up to the first flaw, and whether
the text goes on and ends without one. -/
structure Fields where
  fields : List (String × Json)
  complete : Bool

def Fields.cons (field : String × Json) (fs : Fields) : Fields := ⟨field :: fs.fields, fs.complete⟩

def scanFields : Nat → Nat → List Char → Fields
  | 0, _, _ => ⟨[], false⟩
  | fuel + 1, depth, cs =>
    match field1? fuel depth cs with
    | none => ⟨[], false⟩
    | some (field, rest) =>
      match skipSpace rest with
      | ',' :: rest => (scanFields fuel depth rest).cons field
      | '\x7d' :: rest => ⟨[field], skipSpace rest = []⟩
      | _ => ⟨[field], false⟩

/-- A text as far as the start of its value tells. -/
inductive Outline where
  | object (fields : Fields)
  | other
  | malformed

/-- A text that starts another value is told from a malformed one by that value alone, and an array
by its bracket. -/
def outline (text : String) : Outline :=
  let cs := skipSpace text.toList
  match cs with
  | '\x7b' :: rest =>
    match skipSpace rest with
    | '\x7d' :: rest => .object ⟨[], skipSpace rest = []⟩
    | rest => .object (scanFields (stepsFor rest) (maxDepth - 1) rest)
  | '[' :: _ => .other
  | cs => if (prefixValue? cs).isSome then .other else .malformed

end SimCampaign.Json
