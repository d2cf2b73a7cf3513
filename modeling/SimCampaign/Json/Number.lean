import SimCampaign.Decimal.Layout
import SimCampaign.Decimal.Reader
import SimCampaign.Json.Basic

/-! Numbers of JSON text. Reading rounds twice: the digits become a double, which is scaled by a
power of ten once. Writing gives the fewest digits. -/

namespace SimCampaign.Json

/-- Digits are dropped from where the next one would exceed this. -/
def maxSignificand : Nat := Nat.pow 2 64 - 1

/-- Appends digits to `n` as long as the bound allows, and counts those taken. -/
def appendDigits : Nat → List Char → Nat × Nat
  | n, [] => (n, 0)
  | n, c :: cs =>
    let next := 10 * n + (c.toNat - '0'.toNat)
    if next ≤ maxSignificand then
      let (n, taken) := appendDigits next cs
      (n, taken + 1)
    else (n, 0)

def maxPower : Nat := 308

def powerOfTen (e : Nat) : Float := Float.ofScientific 1 false e

def divideByPower (x : Float) (e : Nat) : Float :=
  if e ≤ maxPower then x / powerOfTen e
  else if x == 0.0 then x
  else divideByPower (x / powerOfTen maxPower) (e - maxPower)
termination_by e
decreasing_by
  have : 0 < maxPower := by decide
  omega

/-- `n * 10 ^ e`, or nothing beyond the largest double. -/
def scale? (n : Nat) (e : Int) : Option Float :=
  let x := Float.ofNat n
  if e < 0 then some (divideByPower x e.natAbs)
  else if x == 0.0 then some x
  else if maxPower < e.natAbs then none
  else
    let y := x * powerOfTen e.natAbs
    if y.isInf then none else some y

def signed (negative : Bool) (x : Float) : Float := if negative then -x else x

/-- The value of a number without fraction or exponent. The double `-0` stands for the integer. -/
def ofWhole? (negative : Bool) (whole : List Char) : Option Json :=
  let (n, taken) := appendDigits 0 whole
  if taken < whole.length then
    (scale? n (whole.length - taken : Nat)).map (.float ∘ signed negative)
  else if !negative then some (.integer n)
  else if n = 0 ∨ Nat.pow 2 63 < n then some (.float (-Float.ofNat n))
  else some (.integer (-n))

def ofDecimal? (negative : Bool) (whole fraction : List Char) (exponent : Int) : Option Json :=
  let (n, taken) := appendDigits 0 whole
  let (n, places) := appendDigits n fraction
  (scale? n (exponent + (whole.length - taken : Nat) - places)).map (.float ∘ signed negative)

/-- An exponent and what follows it, or nothing read where there is none. -/
def exponent? : List Char → Option (Option Int × List Char)
  | 'e' :: cs | 'E' :: cs =>
    let (negative, cs) := match cs with
      | '-' :: cs => (true, cs)
      | '+' :: cs => (false, cs)
      | cs => (false, cs)
    let (digits, rest) := Decimal.spanDigits cs
    if digits = [] then none
    else
      let n : Int := Decimal.natOfDigits digits
      some (some (if negative then -n else n), rest)
  | cs => some (none, cs)

/-- The digits after a point and what follows them, or nothing read where there is no point. -/
def fraction? : List Char → Option (Option (List Char) × List Char)
  | '.' :: cs =>
    let (digits, rest) := Decimal.spanDigits cs
    if digits = [] then none else some (some digits, rest)
  | cs => some (none, cs)

/-- A number without its sign at the front of the text, and what follows it. -/
def unsigned? (negative : Bool) (cs : List Char) : Option (Json × List Char) := do
  let (whole, cs) := Decimal.spanDigits cs
  if whole = [] ∨ (whole.head? = some '0' ∧ 1 < whole.length) then none
  else
    let (fraction, cs) ← fraction? cs
    let (exponent, cs) ← exponent? cs
    let value ← match fraction, exponent with
      | none, none => ofWhole? negative whole
      | fraction, exponent => ofDecimal? negative whole (fraction.getD []) (exponent.getD 0)
    some (value, cs)

/-- A number at the front of the text and what follows it. -/
def number? : List Char → Option (Json × List Char)
  | '-' :: cs => unsigned? true cs
  | cs => unsigned? false cs

/-- Finite doubles whose leading digit stands between these places are written positionally. -/
def positionalPlaces : Int × Int := (-5, 15)

/-- The text of a double: at least one place after the point, and `null` for what is not finite. -/
def floatChars (x : Float) : List Char :=
  match Binary64.ofFloat x with
  | .finite negative m q =>
    let d := Decimal.shortest .even m q
    let place := d.leadingPlace
    let magnitude :=
      if m = 0 then ['0', '.', '0']
      else if positionalPlaces.1 ≤ place ∧ place ≤ positionalPlaces.2 then
        d.positional ++ (if 0 ≤ d.exponent then ['.', '0'] else [])
      else d.scientific
    (if negative then ['-'] else []) ++ magnitude
  | _ => ['n', 'u', 'l', 'l']

end SimCampaign.Json
