import SimCampaign.Decimal.Layout

/-! Values of simulation parameters. -/

namespace SimCampaign.Param

inductive Value where
  | bool (b : Bool)
  | int (n : Int64)
  | float (x : Float)
  | text (s : String)
  deriving Inhabited

inductive Kind where
  | bool
  | int
  | float
  | text
  deriving DecidableEq, Repr

def Kind.name : Kind → String
  | .bool => "bool"
  | .int => "int"
  | .float => "float"
  | .text => "string"

def Kind.rank : Kind → Nat
  | .bool => 0
  | .int => 1
  | .float => 2
  | .text => 3

namespace Value

def kind : Value → Kind
  | .bool _ => .bool
  | .int _ => .int
  | .float _ => .float
  | .text _ => .text

def number? : Value → Option Float
  | .int n => some (Float.ofInt n.toInt)
  | .float x => some x
  | _ => none

/-- The text of a value on a command line, in a name and in a table. -/
def display : Value → String
  | .bool b => if b then "true" else "false"
  | .int n => toString n.toInt
  | .float x => Decimal.plain x
  | .text s => s

/-- Values of different kinds differ. Of the numbers, `NaN` is equal to itself and zero has no
sign. -/
def same : Value → Value → Bool
  | .bool a, .bool b => a == b
  | .int a, .int b => a == b
  | .float a, .float b => Binary64.same a b
  | .text a, .text b => a == b
  | _, _ => false

instance : BEq Value := ⟨same⟩

/-- Values are ordered by kind first. -/
def order : Value → Value → Ordering
  | .bool a, .bool b => compare a b
  | .int a, .int b => compare a b
  | .float a, .float b => Binary64.order a b
  | .text a, .text b => compare a b
  | a, b => compare a.kind.rank b.kind.rank

def ofNat (n : Nat) : Value := .int (Int64.ofNat n)

end Value
end SimCampaign.Param
