import SimCampaign.Json.Reader

/-! Objects of which only some members matter. The others are skipped: their numbers may be of any
size, their strings may escape what is no character, and they may be nested at any depth. -/

namespace SimCampaign.Json

section Skipping

/-- What follows the closing quote. -/
def skipString? : List Char → Option (List Char)
  | [] => none
  | '"' :: rest => some rest
  | '\\' :: 'u' :: a :: b :: c :: d :: rest =>
    if (hexUnit? a b c d).isSome then skipString? rest else none
  | '\\' :: c :: rest => if (simpleEscape? c).isSome then skipString? rest else none
  | ['\\'] => none
  | c :: rest => if c.toNat < 0x20 then none else skipString? rest

def skipUnsigned? (cs : List Char) : Option (List Char) := do
  let (whole, cs) := Decimal.spanDigits cs
  if whole = [] ∨ (whole.head? = some '0' ∧ 1 < whole.length) then none
  else
    let (_, cs) ← fraction? cs
    let (_, cs) ← exponent? cs
    some cs

def skipNumber? : List Char → Option (List Char)
  | '-' :: cs => skipUnsigned? cs
  | cs => skipUnsigned? cs

/-- What follows a name and a colon. -/
def skipName? (cs : List Char) : Option (List Char) :=
  match skipSpace cs with
  | '"' :: rest =>
    match (skipString? rest).map skipSpace with
    | some (':' :: rest) => some rest
    | _ => none
  | _ => none

mutual

/-- What follows a value. -/
def skipValue? : Nat → List Char → Option (List Char)
  | 0, _ => none
  | fuel + 1, cs =>
    match skipSpace cs with
    | 'n' :: 'u' :: 'l' :: 'l' :: rest => some rest
    | 't' :: 'r' :: 'u' :: 'e' :: rest => some rest
    | 'f' :: 'a' :: 'l' :: 's' :: 'e' :: rest => some rest
    | '"' :: rest => skipString? rest
    | '[' :: rest =>
      match skipSpace rest with
      | ']' :: rest => some rest
      | rest => skipParts? fuel false rest
    | '\x7b' :: rest =>
      match skipSpace rest with
      | '\x7d' :: rest => some rest
      | rest => skipParts? fuel true rest
    | rest => skipNumber? rest

/-- What follows the items of an array, or the fields of an object, which have names. -/
def skipParts? : Nat → Bool → List Char → Option (List Char)
  | 0, _, _ => none
  | fuel + 1, named, cs =>
    match (if named then skipName? cs else some cs).bind (skipValue? fuel) with
    | none => none
    | some rest =>
      match skipSpace rest with
      | ',' :: rest => skipParts? fuel named rest
      | c :: rest => if c = (if named then '\x7d' else ']') then some rest else none
      | [] => none

end

end Skipping

variable (names : List String)

/-- A name, a colon and a value, which is read if the name is among those that matter. -/
def member1? (fuel depth : Nat) (cs : List Char) : Option (List (String × Json) × List Char) :=
  match skipSpace cs with
  | '"' :: rest =>
    match string? rest with
    | none => none
    | some (name, rest) =>
      match skipSpace rest with
      | ':' :: rest =>
        if name ∈ names then
          (value? fuel depth rest).map fun (value, rest) => ([(name, value)], rest)
        else (skipValue? fuel rest).map fun rest => ([], rest)
      | _ => none
  | _ => none

def memberFields? : Nat → Nat → List Char → Option (List (String × Json) × List Char)
  | 0, _, _ => none
  | fuel + 1, depth, cs =>
    match member1? names fuel depth cs with
    | none => none
    | some (field, rest) =>
      match skipSpace rest with
      | ',' :: rest =>
        (memberFields? fuel depth rest).map fun (fields, rest) => (field ++ fields, rest)
      | '\x7d' :: rest => some (field, rest)
      | _ => none

/-- An object text up to its end, or any other value. -/
def parseMembers? (text : String) : Option Json :=
  match skipSpace text.toList with
  | '\x7b' :: rest =>
    match skipSpace rest with
    | '\x7d' :: rest => if skipSpace rest = [] then some (.object []) else none
    | rest =>
      match memberFields? names (stepsFor rest) (maxDepth - 1) rest with
      | some (fields, rest) => if skipSpace rest = [] then some (.object fields) else none
      | none => none
  | _ => parse? text

/-- The values of the named members of an object, each of which occurs once, or the items of an
array of as many. -/
def members? : Json → Option (List Json)
  | .object fields => names.mapM fun name =>
    match fields.filter (·.1 == name) with
    | [(_, j)] => some j
    | _ => none
  | .array items => if items.length = names.length then some items else none
  | _ => none

end SimCampaign.Json
