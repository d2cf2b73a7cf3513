import SimCampaign.Binary64

/-! The fewest decimal digits that read back as a given double, by exact integer arithmetic. -/

namespace SimCampaign

/-- The number `digits * 10 ^ exponent`. -/
structure Decimal where
  digits : Nat
  exponent : Int
  deriving DecidableEq, Repr

namespace Decimal

/-- Which of two equally near neighbours is taken. -/
inductive Tie where
  | up
  | even
  deriving DecidableEq, Repr

/-- The numbers that round to one double, as fractions over the common denominator `scale`: all
between `low` and `high`, the ends included if `closed`. -/
structure Cell where
  low : Nat
  value : Nat
  high : Nat
  scale : Nat
  closed : Bool
  deriving Repr

/-- The cell of `m * 2 ^ q`. -/
def Cell.ofBinary (m : Nat) (q : Int) : Cell :=
  let up := Nat.pow 2 (q - 2).toNat
  -- Below a power of two the neighbouring double is half as far away.
  let toLow := if m = Nat.pow 2 52 ∧ Binary64.minExponent < q then 1 else 2
  { low := (4 * m - toLow) * up
    value := 4 * m * up
    high := (4 * m + 2) * up
    scale := Nat.pow 2 (2 - q).toNat
    closed := m % 2 = 0 }

/-- Whether `d / scale` lies in the cell once both are multiplied by `factor`. -/
def Cell.contains (c : Cell) (factor d : Nat) : Bool :=
  if c.closed then c.low * factor ≤ d && d ≤ c.high * factor
  else c.low * factor < d && d < c.high * factor

/-- The neighbour of the value on the grid of multiples of `10 ^ p` that stands for it: one inside
the cell, of two the nearer. -/
def Cell.onGrid? (c : Cell) (tie : Tie) (p : Int) : Option Nat :=
  let factor := Nat.pow 10 (-p).toNat
  let unit := c.scale * Nat.pow 10 p.toNat
  let value := c.value * factor
  let below := value / unit
  match c.contains factor (below * unit), c.contains factor ((below + 1) * unit) with
  | false, false => none
  | true, false => some below
  | false, true => some (below + 1)
  | true, true =>
    let distance := 2 * (value - below * unit)
    if distance < unit then some below
    else if unit < distance then some (below + 1)
    else match tie with
      | .up => some (below + 1)
      | .even => some (if below % 2 = 0 then below else below + 1)

def digitCount (n : Nat) : Nat := (Nat.toDigits 10 n).length

/-- The place of the leading digit: `10 ^ k ≤ value < 10 ^ (k + 1)`. -/
def Cell.leadingPlace (c : Cell) : Int :=
  if c.scale ≤ c.value then (digitCount (c.value / c.scale) : Int) - 1
  else -(digitCount ((c.scale - 1) / c.value) : Int)

/-- Moves the zeros at the end of `digits` into the exponent; `fuel` bounds their number. -/
def dropZeros : Nat → Decimal → Decimal
  | 0, d => d
  | fuel + 1, d =>
    if d.digits ≠ 0 ∧ d.digits % 10 = 0 then dropZeros fuel ⟨d.digits / 10, d.exponent + 1⟩ else d

/-- Seventeen significant digits tell any two doubles apart. -/
def maxDigits : Nat := 17

/-- Tries one more digit at a time, from the coarsest grid on. -/
def Cell.search (c : Cell) (tie : Tie) (leading : Int) : List Nat → Decimal
  | [] => ⟨0, 0⟩
  | n :: more =>
    match c.onGrid? tie (leading - n) with
    | some d => dropZeros maxDigits ⟨d, leading - n⟩
    | none => c.search tie leading more

/-- The shortest decimal that rounds to `m * 2 ^ q`, and of those the nearest to it. -/
def shortest (tie : Tie) (m : Nat) (q : Int) : Decimal :=
  if m = 0 then ⟨0, 0⟩
  else
    let c := Cell.ofBinary m q
    c.search tie c.leadingPlace (List.range maxDigits)

/-- The place of the leading digit of a decimal other than zero. -/
def leadingPlace (d : Decimal) : Int := d.exponent + digitCount d.digits - 1

end Decimal
end SimCampaign
