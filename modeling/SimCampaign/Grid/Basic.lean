import SimCampaign.Grid.Shape
import SimCampaign.Param.Space

/-! Values over named dimensions, in row-major order: the last dimension varies fastest. -/

namespace SimCampaign
open Param (Dim)

structure Grid (α : Type) where
  dims : List Dim
  cells : List α

namespace Grid
variable {α β : Type}

def shape (g : Grid α) : List Nat := g.dims.map Dim.length

/-- One cell for every choice of an index along each dimension. -/
def Full (g : Grid α) : Prop := g.cells.length = cellCount g.shape

/-- The `i`-th of the pieces of `size` elements that a list is cut into. -/
def block (size i : Nat) (xs : List α) : List α := (xs.drop (i * size)).take size

def at? : List Nat → List Nat → List α → Option α
  | [], [], xs => xs.head?
  | n :: shape, i :: index, xs =>
    if i < n then at? shape index (block (cellCount shape) i xs) else none
  | _, _, _ => none

def get? (g : Grid α) (index : List Nat) : Option α := at? g.shape index g.cells

/-- All multi-indices in row-major order. -/
def indices : List Nat → List (List Nat)
  | [] => [[]]
  | n :: shape => (List.range n).flatMap fun i => (indices shape).map (i :: ·)

/-- The elements whose index along the axis is `i`. -/
def slice : List Nat → Nat → Nat → List α → List α
  | _ :: shape, 0, i, xs => block (cellCount shape) i xs
  | n :: shape, axis + 1, i, xs =>
    (List.range n).flatMap fun k => slice shape axis i (block (cellCount shape) k xs)
  | [], _, _, xs => xs

/-- The lists of elements that differ only in their index along the axis, in row-major order of the
other indices. -/
def lanes : List Nat → Nat → List α → List (List α)
  | n :: shape, 0, xs =>
    (List.range (cellCount shape)).map fun j =>
      (List.range n).filterMap fun i => xs[i * cellCount shape + j]?
  | n :: shape, axis + 1, xs =>
    (List.range n).flatMap fun k => lanes shape axis (block (cellCount shape) k xs)
  | [], _, _ => []

def axis? (dims : List Dim) (name : String) : Option Nat := dims.findIdx? (·.name == name)

def dim? (g : Grid α) (name : String) : Option Dim := g.dims.find? (·.name == name)

/-- Fixes the index along an axis, which is no dimension any more. -/
def dropAxis (g : Grid α) (axis i : Nat) : Grid α :=
  { dims := g.dims.eraseIdx axis, cells := slice g.shape axis i g.cells }

/-- Reduces each lane along an axis, which is no dimension any more. -/
def reduceAxis (g : Grid α) (axis : Nat) (f : List α → β) : Grid β :=
  { dims := g.dims.eraseIdx axis, cells := (lanes g.shape axis g.cells).map f }

/-- Drops those of the first `n` axes that have length one, the last first. -/
def squeezeFirst (g : Grid α) : Nat → Grid α
  | 0 => g
  | n + 1 => (if g.shape[n]? = some 1 then g.dropAxis n 0 else g).squeezeFirst n

def squeeze (g : Grid α) : Grid α := g.squeezeFirst g.dims.length

/-- The texts of the coordinates at a multi-index. -/
def coordTexts : List Dim → List Nat → List String
  | d :: dims, i :: index =>
    ((d.coords[i]?.map Param.Value.display).getD "") :: coordTexts dims index
  | _, _ => []

end Grid
end SimCampaign
