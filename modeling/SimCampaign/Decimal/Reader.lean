/-! Decimal text as a double, correctly rounded. -/

namespace SimCampaign.Decimal

/-- The text of a number: digits before and after the point, and a power of ten. -/
structure Numeral where
  whole : List Char
  fraction : List Char
  exponent : Int
  deriving DecidableEq, Repr

def natOfDigits (ds : List Char) : Nat :=
  ds.foldl (fun n c => 10 * n + (c.toNat - '0'.toNat)) 0

/-- The digits at the front, and what follows them. -/
def spanDigits (cs : List Char) : List Char × List Char :=
  (cs.takeWhile Char.isDigit, cs.dropWhile Char.isDigit)

/-- Digits after an optional sign, and nothing else. -/
def signedDigits? : List Char → Option Int
  | '-' :: cs => (digits? cs).map (fun n => -(n : Int))
  | '+' :: cs => (digits? cs).map Int.ofNat
  | cs => (digits? cs).map Int.ofNat
where
  digits? (cs : List Char) : Option Nat :=
    if cs ≠ [] ∧ cs.all Char.isDigit then some (natOfDigits cs) else none

/-- Digits with at most one point, at least one digit on either side of it, then at most one
exponent. -/
def numeral? (cs : List Char) : Option Numeral :=
  let (whole, rest) := spanDigits cs
  let (fraction, rest) := match rest with
    | '.' :: rest => spanDigits rest
    | rest => ([], rest)
  if whole = [] ∧ fraction = [] then none
  else match rest with
    | [] => some ⟨whole, fraction, 0⟩
    | 'e' :: rest | 'E' :: rest => (signedDigits? rest).map (⟨whole, fraction, ·⟩)
    | _ => none

/-- Rounds to the nearest double. -/
def Numeral.toFloat (n : Numeral) : Float :=
  let digits := natOfDigits (n.whole ++ n.fraction)
  let exponent := n.exponent - n.fraction.length
  let place := exponent + (n.whole.length + n.fraction.length : Nat)
  if digits = 0 then 0.0
  -- Beyond the outermost places the answer is known, and no power of ten is computed.
  else if place < -400 then 0.0
  else if 400 + (n.whole.length + n.fraction.length : Nat) < place then 1.0 / 0.0
  else Float.ofScientific digits (exponent < 0) exponent.natAbs

def asciiLower (cs : List Char) : List Char := cs.map Char.toLower

def unsigned? (cs : List Char) : Option Float :=
  let name := asciiLower cs
  if name = ['n', 'a', 'n'] then some (0.0 / 0.0)
  else if name = ['i', 'n', 'f'] ∨ name = ['i', 'n', 'f', 'i', 'n', 'i', 't', 'y'] then
    some (1.0 / 0.0)
  else (numeral? cs).map Numeral.toFloat

/-- A number with an optional sign, or a name of infinity or of the undefined number in any case. -/
def float? : List Char → Option Float
  | '-' :: cs => (unsigned? cs).map Float.neg
  | '+' :: cs => unsigned? cs
  | cs => unsigned? cs

/-- A natural number of at most `bound`, with an optional plus sign. -/
def natUpTo? (bound : Nat) (cs : List Char) : Option Nat :=
  let ds := match cs with
    | '+' :: ds => ds
    | ds => ds
  (signedDigits?.digits? ds).filter (· ≤ bound)

/-- An integer of 64 bits, with an optional sign. -/
def int64? (cs : List Char) : Option Int64 :=
  (signedDigits? cs).bind fun n =>
    if Int64.minValue.toInt ≤ n ∧ n ≤ Int64.maxValue.toInt then some (Int64.ofInt n) else none

end SimCampaign.Decimal
