import SimCampaign.Decimal.Reader
import SimCampaign.Binary64

/-! Data rates and durations in whole units. -/

namespace SimCampaign

def maxUInt64 : Nat := Nat.pow 2 64 - 1

structure DataRate where
  bps : UInt64
  deriving DecidableEq, Repr

namespace DataRate

def mbps (r : DataRate) : Float := r.bps.toFloat / 1e6

def display (r : DataRate) : String := toString r.bps.toNat ++ "bps"

def ofText? (s : String) : Option DataRate :=
  (Decimal.natUpTo? maxUInt64 s.toList).map fun n => ⟨n.toUInt64⟩

def add (a b : DataRate) : DataRate := ⟨a.bps + b.bps⟩

def sum (rates : List DataRate) : DataRate := rates.foldl add ⟨0⟩

/-- Rounds to the nearest rate, a half going up. What is too large becomes the largest rate. -/
def ofFloat (x : Float) : DataRate :=
  match Binary64.ofFloat x with
  | .finite false m q => ⟨(min (Binary64.roundMagnitude m q) maxUInt64).toUInt64⟩
  | .infinite false => ⟨maxUInt64.toUInt64⟩
  | _ => ⟨0⟩

/-- The digits of a rate without `bps` and the factor of the unit letter that may end it. -/
def splitUnit (value : List Char) : List Char × Float :=
  match value.getLast? with
  | some 'k' | some 'K' => (value.dropLast, 1e3)
  | some 'M' => (value.dropLast, 1e6)
  | some 'G' => (value.dropLast, 1e9)
  | _ => (value, 1.0)

def dropSuffix? (suffix cs : List Char) : Option (List Char) :=
  if suffix.isSuffixOf cs then some (cs.take (cs.length - suffix.length)) else none

/-- Reads a rate such as `100Mbps` or `2.5Gbps`: digits with at most one point, an optional unit
letter, and `bps`. -/
def parse? (s : String) : Option DataRate := do
  let value ← dropSuffix? ['b', 'p', 's'] s.toList
  let (digits, factor) := splitUnit value
  if digits = [] ∨ !digits.all (fun c => c.isDigit || c == '.') then none
  else
    let x ← Decimal.float? digits
    some (ofFloat (x * factor))

end DataRate

structure Duration where
  us : UInt64
  deriving DecidableEq, Repr

namespace Duration

def secs (d : Duration) : Float := d.us.toFloat / 1e6

def display (d : Duration) : String := toString d.us.toNat ++ "us"

def ofText? (s : String) : Option Duration :=
  (Decimal.natUpTo? maxUInt64 s.toList).map fun n => ⟨n.toUInt64⟩

def add (a b : Duration) : Duration := ⟨a.us + b.us⟩

def sub (a b : Duration) : Duration := ⟨a.us - b.us⟩

end Duration
end SimCampaign
