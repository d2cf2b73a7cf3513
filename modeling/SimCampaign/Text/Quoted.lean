import SimCampaign.Text.Hidden

/-! Text in double quotes, each character in a form that shows what it is; lists in brackets. -/

namespace SimCampaign.Text

def hexDigits (n : Nat) : List Char := Nat.toDigits 16 n

def escape (c : Char) : List Char :=
  match c with
  | '"' => ['\\', '"']
  | '\\' => ['\\', '\\']
  | '\t' => ['\\', 't']
  | '\r' => ['\\', 'r']
  | '\n' => ['\\', 'n']
  | '\x00' => ['\\', '0']
  | c => if isHidden c then '\\' :: 'u' :: '\x7b' :: hexDigits c.toNat ++ ['\x7d'] else [c]

def quoted (s : String) : String := String.ofList ('"' :: s.toList.flatMap escape ++ ['"'])

def bracketed (items : List String) : String := "[" ++ ", ".intercalate items ++ "]"

def quotedList (names : List String) : String := bracketed (names.map quoted)

def natList (ns : List Nat) : String := bracketed (ns.map toString)

/-- An optional length, as it appears in messages. -/
def optionalNat : Option Nat → String
  | none => "None"
  | some n => "Some(" ++ toString n ++ ")"

end SimCampaign.Text
