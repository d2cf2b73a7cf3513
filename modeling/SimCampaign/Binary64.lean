/-! Doubles as exact numbers: sign, significand and power of two, read off the bits. -/

namespace SimCampaign

/-- What a double stands for; a finite one is `± significand * 2 ^ exponent`. -/
inductive Binary64 where
  | nan
  | infinite (negative : Bool)
  | finite (negative : Bool) (significand : Nat) (exponent : Int)
  deriving DecidableEq, Repr

namespace Binary64

/-- The least exponent of a double, shared by zero and the subnormal numbers. -/
def minExponent : Int := -1074

def ofBits (bits : UInt64) : Binary64 :=
  let n := bits.toNat
  let negative := decide (Nat.pow 2 63 ≤ n)
  let biased : Nat := n / Nat.pow 2 52 % Nat.pow 2 11
  let fraction := n % Nat.pow 2 52
  if biased = 2047 then
    if fraction = 0 then .infinite negative else .nan
  else if biased = 0 then
    .finite negative fraction minExponent
  else
    .finite negative (Nat.pow 2 52 + fraction) ((biased : Int) - 1075)

def ofFloat (x : Float) : Binary64 := ofBits x.toBits

/-- The whole part of a number, cut toward zero. From the exponent zero on there is nothing to cut. -/
def truncate (x : Float) : Float :=
  match ofFloat x with
  | .finite negative m e =>
    if 0 ≤ e then x
    else
      let whole := Float.ofNat (m / Nat.pow 2 (-e).toNat)
      if negative then -whole else whole
  | _ => x

/-- What a number has beyond its whole part. An infinite number has none that is a number. -/
def fraction (x : Float) : Float := x - truncate x

/-- The nearest natural number to the magnitude of a finite number, a half going up. -/
def roundMagnitude (significand : Nat) (exponent : Int) : Nat :=
  if 0 ≤ exponent then significand * Nat.pow 2 exponent.toNat
  else (2 * significand + Nat.pow 2 (-exponent).toNat) / Nat.pow 2 ((-exponent).toNat + 1)

/-- Two numbers at the same place of the order in which `NaN` is one number and zero has no sign. -/
def same (x y : Float) : Bool := x == y || (x.isNaN && y.isNaN)

/-- The order in which `NaN` is above every other number and zero has no sign. -/
def order (x y : Float) : Ordering :=
  if same x y then .eq
  else if y.isNaN then .lt
  else if x.isNaN then .gt
  else if x < y then .lt
  else .gt

end Binary64
end SimCampaign
