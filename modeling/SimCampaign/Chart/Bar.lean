import SimCampaign.Chart.Line

/-! Grouped bar charts of a vector metric: one bar of each series at every tick. -/

namespace SimCampaign.Chart
open Param (Dim)

structure BarSeries where
  name : String
  values : List Float
  errors : List Float

structure BarPlot where
  title? : Option String := none
  xLabel : String
  yLabel : String
  ticks : List String

namespace BarPlot

/-- A series has one value and one error for each tick. -/
def trace (ticks : List String) (s : BarSeries) : Except Error Trace :=
  if s.values.length ≠ ticks.length then
    .error (.seriesLength s.name ticks.length s.values.length)
  else if s.errors.length ≠ ticks.length then
    .error (.seriesLength s.name ticks.length s.errors.length)
  else .ok (.bar s.name ticks s.values s.errors)

def render (p : BarPlot) (series : List BarSeries) : Except Error Figure := do
  .ok
    { traces := ← series.mapM (trace p.ticks)
      title? := p.title?
      grouped := true
      xAxis := { title := p.xLabel }
      yAxis := { title := p.yLabel, showsGrid := true } }

end BarPlot

/-- The one dimension besides the metrics that has more than one coordinate. -/
def groupDim (a : Aggregate) : Except Error String :=
  match a.dims.filter fun d => d.name != metricsDim && decide (1 < d.length) with
  | [d] => .ok d.name
  | ds => .error (.groupDims (ds.map Dim.name))

def groupSeries (a : Aggregate) (group : String) (v : Param.Value) : Except Error BarSeries := do
  let (values, errors) ← ofAggregate (do (← a.select group v).series)
  .ok ⟨seriesName group v, values, errors⟩

/-- One series for each coordinate of the group. Once dimensions of length one are fixed, the group
has to be the only dimension besides the metrics. -/
def barGroups (a : Aggregate) (group : String) : Except Error (List BarSeries) := do
  if (a.dim? metricsDim).isNone then .error (.missingDim metricsDim)
  else
    let fixed ← fixSingles (fun d => d.name != group && d.name != metricsDim) a.dims a
    let rest := (fixed.dims.map Dim.name).filter (· != metricsDim)
    if rest ≠ [group] then .error (.groupDims rest)
    else
      let coords := ((fixed.dim? group).map Dim.coords).getD []
      coords.mapM (groupSeries fixed group)

end SimCampaign.Chart
