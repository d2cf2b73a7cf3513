import SimCampaign.Chart.Figure
import SimCampaign.Grid.Aggregate

/-! Line charts of a scalar metric over one dimension, one line for each value of another. -/

namespace SimCampaign.Chart
open Param (Dim)

inductive Error where
  | missingDim (name : String)
  | extraDims (names : List String)
  | groupDims (names : List String)
  | seriesLength (name : String) (expected got : Nat)
  | xValues (dim : String) (expected got : Nat)
  | aggregate (cause : Aggregate.Error)
  deriving DecidableEq, Repr

def Error.message : Error → String
  | .missingDim name => "missing dimension `" ++ name ++ "`"
  | .extraDims names => "cannot plot over dimensions " ++ Text.quotedList names
  | .groupDims names => "expected exactly one group dimension, got " ++ Text.quotedList names
  | .seriesLength name expected got =>
    "series `" ++ name ++ "` has " ++ toString got ++ " values for " ++ toString expected ++
      " ticks"
  | .xValues dim expected got =>
    toString got ++ " x values for dimension `" ++ dim ++ "` of length " ++ toString expected
  | .aggregate cause => cause.message

def ofAggregate : Except Aggregate.Error α → Except Error α := Except.mapError .aggregate

/-- Fixes the dimensions that `fixes` asks for at their only coordinate, one after another. -/
def fixSingles (fixes : Dim → Bool) : List Dim → Aggregate → Except Error Aggregate
  | [], a => .ok a
  | d :: dims, a =>
    match fixes d, d.coords with
    | true, [only] => do fixSingles fixes dims (← ofAggregate (a.select d.name only))
    | _, _ => fixSingles fixes dims a

/-- Fixes every dimension of length one that is not to be kept. What is left has to be what is to be
kept. -/
def keepDims (a : Aggregate) (keep : List String) : Except Error Aggregate := do
  let fixed ← fixSingles (fun d => !keep.contains d.name) a.dims a
  let extra := a.dims.filter fun d => !keep.contains d.name && d.length != 1
  if extra ≠ [] then .error (.extraDims (extra.map Dim.name))
  else match keep.find? fun name => (fixed.dim? name).isNone with
    | some name => .error (.missingDim name)
    | none => .ok fixed

structure LinePlot where
  x : String
  /-- Replaces the coordinates on the x axis. -/
  xValues? : Option (List Param.Value) := none
  /-- The dimension with one line for each of its values. -/
  hue? : Option String := none
  title? : Option String := none
  xLabel : String
  yLabel : String
  yRange? : Option (Float × Float) := none
  xScale : Scale := .linear
  yScale : Scale := .linear

/-- The name of the line or the bars of one value of a dimension. -/
def seriesName (dim : String) (v : Param.Value) : String := dim ++ "=" ++ v.display

namespace LinePlot

def require (a : Aggregate) (name : String) : Except Error Dim :=
  match a.dim? name with
  | some d => .ok d
  | none => .error (.missingDim name)

def xCoords (p : LinePlot) (d : Dim) : Except Error Coords :=
  match p.xValues? with
  | none => .ok (.ofValues d.coords)
  | some vs =>
    if vs.length = d.length then .ok (.ofValues vs) else .error (.xValues p.x d.length vs.length)

def hueTrace (a : Aggregate) (x : Coords) (hue : String) (v : Param.Value) :
    Except Error Trace := do
  let (y, errors) ← ofAggregate (do (← a.select hue v).series)
  .ok (.line (some (seriesName hue v)) x y errors)

def traces (p : LinePlot) (a : Aggregate) (x : Coords) : Except Error (List Trace) := do
  match p.hue? with
  | some hue => (← require a hue).coords.mapM (hueTrace a x hue)
  | none =>
    let (y, errors) ← ofAggregate a.series
    .ok [.line none x y errors]

/-- The range of a logarithmic axis is in decades. -/
def axisRange (scale : Scale) (range : Float × Float) : Float × Float :=
  match scale with
  | .linear => range
  | .log => (range.1.log10, range.2.log10)

def figure (p : LinePlot) (traces : List Trace) : Figure where
  traces := traces
  title? := p.title?
  grouped := false
  xAxis := { title := p.xLabel, scale? := some p.xScale, showsGrid := true }
  yAxis :=
    { title := p.yLabel, scale? := some p.yScale, showsGrid := true
      range? := p.yRange?.map (axisRange p.yScale) }

/-- Draws an aggregate that has the x dimension, the hue dimension if there is one, and no other of
more than one coordinate. -/
def render (p : LinePlot) (a : Aggregate) : Except Error Figure := do
  let kept ← keepDims a (p.x :: p.hue?.toList)
  let x ← p.xCoords (← require kept p.x)
  .ok (p.figure (← p.traces kept x))

end LinePlot
end SimCampaign.Chart
