import SimCampaign.Decimal.Shortest

/-! Decimals as text: all places written out, or one digit before the point and an exponent. -/

namespace SimCampaign.Decimal

def zeros (n : Nat) : List Char := List.replicate n '0'

def digitChars (n : Nat) : List Char := Nat.toDigits 10 n

/-- All places, the ones after the point only if there are any. -/
def positional (d : Decimal) : List Char :=
  let ds := digitChars d.digits
  if 0 ≤ d.exponent then ds ++ (if d.digits = 0 then [] else zeros d.exponent.toNat)
  else
    let places := (-d.exponent).toNat
    if ds.length ≤ places then '0' :: '.' :: zeros (places - ds.length) ++ ds
    else ds.take (ds.length - places) ++ '.' :: ds.drop (ds.length - places)

/-- One digit before the point and the place of that digit, always signed. -/
def scientific (d : Decimal) : List Char :=
  let place := d.leadingPlace
  let exponent := (if place < 0 then '-' else '+') :: digitChars place.natAbs
  match digitChars d.digits with
  | [] => []
  | c :: [] => c :: 'e' :: exponent
  | c :: cs => c :: '.' :: cs ++ 'e' :: exponent

/-- The text of a number in messages, tables and names: never an exponent, `-0` with its sign. -/
def plain (x : Float) : String :=
  match Binary64.ofFloat x with
  | .nan => "NaN"
  | .infinite negative => if negative then "-inf" else "inf"
  | .finite negative m q =>
    String.ofList ((if negative then ['-'] else []) ++ positional (shortest .up m q))

end SimCampaign.Decimal
