import SimCampaign.Json.Number

/-! JSON values as text: without spaces, or one field a line. -/

namespace SimCampaign.Json

def hexPad4 (n : Nat) : List Char :=
  let ds := Nat.toDigits 16 n
  List.replicate (4 - ds.length) '0' ++ ds

def escapeChar (c : Char) : List Char :=
  match c with
  | '"' => ['\\', '"']
  | '\\' => ['\\', '\\']
  | '\x08' => ['\\', 'b']
  | '\x0c' => ['\\', 'f']
  | '\n' => ['\\', 'n']
  | '\r' => ['\\', 'r']
  | '\t' => ['\\', 't']
  | c => if c.toNat < 0x20 then '\\' :: 'u' :: hexPad4 c.toNat else [c]

def stringChars (s : String) : List Char := '"' :: s.toList.flatMap escapeChar ++ ['"']

def integerChars (n : Int) : List Char :=
  (if n < 0 then ['-'] else []) ++ Decimal.digitChars n.natAbs

def nullChars : List Char := ['n', 'u', 'l', 'l']

def boolChars : Bool → List Char
  | true => ['t', 'r', 'u', 'e']
  | false => ['f', 'a', 'l', 's', 'e']

mutual

def chars : Json → List Char
  | .null => nullChars
  | .bool b => boolChars b
  | .integer n => integerChars n
  | .float x => floatChars x
  | .string s => stringChars s
  | .array items => '[' :: itemChars items
  | .object fields => '\x7b' :: fieldChars fields

def itemChars : List Json → List Char
  | [] => [']']
  | [item] => chars item ++ [']']
  | item :: items => chars item ++ ',' :: itemChars items

def fieldChars : List (String × Json) → List Char
  | [] => ['\x7d']
  | [(name, value)] => stringChars name ++ ':' :: chars value ++ ['\x7d']
  | (name, value) :: fields => stringChars name ++ ':' :: chars value ++ ',' :: fieldChars fields

end

def render (j : Json) : String := String.ofList j.chars

def newline (level : Nat) : List Char := '\n' :: List.replicate (2 * level) ' '

mutual

/-- Fields and items on lines of their own, indented by two spaces a level. -/
def indentedChars (level : Nat) : Json → List Char
  | .array (item :: items) =>
    '[' :: newline (level + 1) ++ indentedChars (level + 1) item ++ indentedItems level items
  | .object ((name, value) :: fields) =>
    '\x7b' :: newline (level + 1) ++ stringChars name ++ ':' :: ' ' ::
      indentedChars (level + 1) value ++ indentedFields level fields
  | .array [] => ['[', ']']
  | .object [] => ['\x7b', '\x7d']
  | .null => nullChars
  | .bool b => boolChars b
  | .integer n => integerChars n
  | .float x => floatChars x
  | .string s => stringChars s

def indentedItems (level : Nat) : List Json → List Char
  | [] => newline level ++ [']']
  | item :: items =>
    ',' :: newline (level + 1) ++ indentedChars (level + 1) item ++ indentedItems level items

def indentedFields (level : Nat) : List (String × Json) → List Char
  | [] => newline level ++ ['\x7d']
  | (name, value) :: fields =>
    ',' :: newline (level + 1) ++ stringChars name ++ ':' :: ' ' ::
      indentedChars (level + 1) value ++ indentedFields level fields

end

def renderIndented (j : Json) : String := String.ofList (j.indentedChars 0)

end SimCampaign.Json
