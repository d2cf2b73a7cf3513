import SimCampaign.Grid.Basic
import SimCampaign.Statistics
import SimCampaign.Text.Csv
import SimCampaign.Text.Quoted

/-! Metric values over repetitions, reduced to means and confidence intervals, sliced by coordinates
and written as tables. -/

namespace SimCampaign
open Param (Dim)

def runsDim : String := "runs"

def metricsDim : String := "metrics"

namespace Aggregate

inductive Error where
  | unknownDim (name : String)
  | unknownCoord (dim value : String)
  | shape (expected got : List Nat)
  | notOneDim (names : List String)
  deriving DecidableEq, Repr

def Error.message : Error → String
  | .unknownDim name => "unknown dimension `" ++ name ++ "`"
  | .unknownCoord dim value => "dimension `" ++ dim ++ "` has no coordinate " ++ value
  | .shape expected got =>
    "dimensions of lengths " ++ Text.natList expected ++ " do not match data of shape " ++
      Text.natList got
  | .notOneDim names => "expected a single dimension, got " ++ Text.quotedList names

end Aggregate

abbrev MetricArray := Grid Float

namespace MetricArray

/-- Values of a given shape over dimensions of the same lengths. -/
def ofShape (dims : List Dim) (shape : List Nat) (cells : List Float) :
    Except Aggregate.Error MetricArray :=
  if dims.map Dim.length = shape then .ok ⟨dims, cells⟩
  else .error (.shape (dims.map Dim.length) shape)

end MetricArray

structure Estimate where
  mean : Float
  halfWidth : Float
  deriving Inhabited

namespace Estimate

def score95 : Float := 1.96

def ofLane (runs : Nat) (xs : List Float) : Estimate :=
  { mean := Statistics.mean xs
    halfWidth := score95 * Statistics.populationDeviation xs / (Float.ofNat runs).sqrt }

end Estimate

structure Aggregate where
  grid : Grid Estimate
  runs : Nat

namespace Aggregate

def dims (a : Aggregate) : List Dim := a.grid.dims

def dim? (a : Aggregate) (name : String) : Option Dim := a.grid.dim? name

def means (a : Aggregate) : List Float := a.grid.cells.map Estimate.mean

def halfWidths (a : Aggregate) : List Float := a.grid.cells.map Estimate.halfWidth

def axis (dims : List Dim) (name : String) : Except Error Nat :=
  match Grid.axis? dims name with
  | some i => .ok i
  | none => .error (.unknownDim name)

def ofArray (m : MetricArray) : Except Error Aggregate := do
  let axis ← axis m.dims runsDim
  let runs := m.shape.getD axis 0
  .ok { grid := m.reduceAxis axis (Estimate.ofLane runs), runs }

def squeeze (a : Aggregate) : Aggregate := { a with grid := a.grid.squeeze }

/-- Keeps what has the coordinate along the dimension. -/
def select (a : Aggregate) (name : String) (v : Param.Value) : Except Error Aggregate := do
  let axis ← axis a.dims name
  match (a.dim? name).bind (·.position? v) with
  | some i => .ok { a with grid := a.grid.dropAxis axis i }
  | none => .error (.unknownCoord name v.display)

def series (a : Aggregate) : Except Error (List Float × List Float) :=
  if a.dims.length = 1 then .ok (a.means, a.halfWidths)
  else .error (.notOneDim (a.dims.map Dim.name))

def csvHeader (a : Aggregate) : List String := a.dims.map Dim.name ++ ["mean", "ci95"]

def csvRow (a : Aggregate) (index : List Nat) (e : Estimate) : List String :=
  Grid.coordTexts a.dims index ++ [Decimal.plain e.mean, Decimal.plain e.halfWidth]

/-- One row for each cell: the coordinates, the mean and the half-width. -/
def csv (a : Aggregate) : String :=
  Text.Csv.render (a.csvHeader ::
    (Grid.indices a.grid.shape).zipWith (csvRow a) a.grid.cells)

end Aggregate
end SimCampaign
