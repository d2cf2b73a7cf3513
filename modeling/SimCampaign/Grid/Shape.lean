/-! The lengths of the dimensions of an array, and how many cells they make. -/

namespace SimCampaign.Grid

def cellCount : List Nat → Nat
  | [] => 1
  | n :: shape => n * cellCount shape

/-- The product of the lengths other than zero. -/
def volume (shape : List Nat) : Nat := cellCount (shape.filter (· != 0))

/-- The greatest volume that an index can address. -/
def maxVolume : Nat := Nat.pow 2 63 - 1

/-- Why a number of cells does not make a grid of a shape. -/
inductive Misfit where
  | overflow
  | outOfBounds
  | incompatible
  deriving DecidableEq, Repr

def Misfit.message : Misfit → String
  | .overflow => "ShapeError/Overflow: arithmetic overflow"
  | .outOfBounds => "ShapeError/OutOfBounds: out of bounds indexing"
  | .incompatible => "ShapeError/IncompatibleShape: incompatible shapes"

/-- Empty dimensions do not make a shape addressable. Cells that are at hand are. -/
def misfit? (shape : List Nat) (count : Nat) : Option Misfit :=
  if maxVolume < volume shape ∧ count < volume shape then some .overflow
  else if count < cellCount shape then some .outOfBounds
  else if cellCount shape < count then some .incompatible
  else none

end SimCampaign.Grid
