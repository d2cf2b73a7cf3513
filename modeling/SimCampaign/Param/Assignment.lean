import SimCampaign.Param.Error
import SimCampaign.Record

/-! The parameter values of one simulation, in the order of the space they come from. -/

namespace SimCampaign.Param

abbrev Assignment := Record Value

namespace Assignment

def samePairs : List (String × Value) → List (String × Value) → Bool
  | [], [] => true
  | (n, v) :: ps, (m, w) :: qs => n == m && v == w && samePairs ps qs
  | _, _ => false

/-- Assignments are equal if they have equal values under the same names in the same order. -/
def same (a b : Assignment) : Bool := samePairs a.pairs b.pairs

def display (a : Assignment) : String :=
  "\x7b" ++ ", ".intercalate (a.pairs.map fun (name, v) => name ++ "=" ++ v.display) ++ "\x7d"

def require (a : Assignment) (name : String) : Except Error Value :=
  match a.get? name with
  | some v => .ok v
  | none => .error (.missing name)

def int (a : Assignment) (name : String) : Except Error Int64 := do
  match ← a.require name with
  | .int n => .ok n
  | v => .error (.wrongKind name .int v.kind)

def count (a : Assignment) (name : String) : Except Error Nat := do
  let n ← a.int name
  if n < 0 then .error (.negative name n) else .ok n.toInt.toNat

/-- A number; integers are widened. -/
def float (a : Assignment) (name : String) : Except Error Float := do
  let v ← a.require name
  match v.number? with
  | some x => .ok x
  | none => .error (.wrongKind name .float v.kind)

def text (a : Assignment) (name : String) : Except Error String := do
  match ← a.require name with
  | .text s => .ok s
  | v => .error (.wrongKind name .text v.kind)

def bool (a : Assignment) (name : String) : Except Error Bool := do
  match ← a.require name with
  | .bool b => .ok b
  | v => .error (.wrongKind name .bool v.kind)

end Assignment
end SimCampaign.Param
