import SimCampaign.Chart.Bar
import SimCampaign.Metric.Reducer
import SimCampaign.Study.Report
import SimCampaign.Study.Sweep

/-! The charts and tables of a sweep. -/

namespace SimCampaign.Study
open Param (Space)

/-- How throughput is measured and what it is compared with. -/
structure Normalization where
  window : Metric.Window
  load : Metric.OfferedLoad

namespace Normalization

def byPhysicalRate : Normalization := ⟨.full, .physicalShare⟩

def byApplicationRate : Normalization := ⟨.skipFirstInterval, .applicationRate⟩

end Normalization

/-- Where charts go: a folder of images, and a folder within it and within each bar folder. -/
structure Layout where
  images : String
  subfolder? : Option String

namespace Layout

def within (l : Layout) (folder : String) : String :=
  match l.subfolder? with
  | some sub => Path.join folder sub
  | none => folder

def lineFolder (l : Layout) : String := l.within l.images

def barFolder (l : Layout) (folder : String) : String := l.within (Path.join l.images folder)

end Layout

structure LineChart where
  reducer : Metric.Reducer
  yLabel : String
  yRange? : Option (Float × Float) := none
  file : String

structure BarChart where
  reducer : Metric.Reducer
  yLabel : String
  file : String

/-- Normalized by the application rate, throughput is shown in itself too. -/
def lineCharts (n : Normalization) : List LineChart :=
  let normalized := Metric.normalizedThroughput n.window n.load
  let label := "Aggr. Throughput / Aggr. Offered Rate"
  (match n.load with
    | .physicalShare => [{ reducer := normalized, yLabel := label, file := "thr" }]
    | .applicationRate => [
      { reducer := normalized, yLabel := label, file := "norm_thr" },
      { reducer := Metric.throughput n.window, yLabel := "Aggregated Throughput [Mbps]",
        file := "aggr_thr" }]) ++ [
    { reducer := Metric.delay, yLabel := "Avg delay [ms]", file := "avg_delay" },
    { reducer := Metric.delay, yLabel := "Avg delay [ms]", yRange? := some (0.0, 100.0),
      file := "avg_delay_100ms" },
    { reducer := Metric.delayDeviation, yLabel := "Delay stdev [ms]", file := "delay_stdev" },
    { reducer := Metric.delayVariation, yLabel := "Avg delay variation [ms]",
      file := "avg_delay_variation" },
    { reducer := Metric.fairness n.window, yLabel := "Jain's Fairness Index",
      file := "jain_fairness" }]

def barCharts (n : Normalization) : List BarChart := [
  { reducer := Metric.entityThroughput n.window, yLabel := "Throughput [Mbps]",
    file := "user_thr" },
  { reducer := Metric.entityDelay, yLabel := "Avg delay [ms]", file := "user_delay" }]

def linePlot (s : Sweep) (c : LineChart) : Chart.LinePlot :=
  { x := s.x, xValues? := some s.xValues, hue? := some s.hue, xLabel := s.xLabel, yLabel := c.yLabel
    yRange? := c.yRange?, xScale := s.xScale }

def lineFigure (s : Sweep) (c : LineChart) (a : Aggregate) : Except Report Chart.Figure :=
  ((linePlot s c).render a).mapError fun e =>
    (Report.ofChart e).within ("failed to plot " ++ c.file)

def ticks (a : Aggregate) : List String :=
  ((a.dim? metricsDim).map fun d => d.coords.map Param.Value.display).getD []

/-- The figure of a bar chart, grouped by the one dimension that is left. -/
def barFigure (c : BarChart) (a : Aggregate) : Except Chart.Error Chart.Figure := do
  let series ← Chart.barGroups a (← Chart.groupDim a)
  Chart.BarPlot.render { xLabel := "Node ID", yLabel := c.yLabel, ticks := ticks a } series

/-- The space of the bar charts of one folder. Bars need a fixed number of stations. -/
def barSpace (s : Sweep) (v : Param.Value) : Except Report Space := do
  let space ← (s.space.set s.forEach (.single v)).mapError Report.ofParam
  if (space.get? Metric.Name.stations).map (·.values.length) = some 1 then .ok space
  else .error ⟨"cannot plot bar metric over a list of " ++ Metric.Name.stations, []⟩

section Drawing
variable (results : Campaign.Results) (runs : Nat)

def aggregate (space : Space) (reducer : Metric.Reducer) : Except Report Aggregate := do
  let array ← (Campaign.evaluate results reducer space runs).mapError Report.ofCampaign
  (Aggregate.ofArray array).mapError Report.ofAggregate

def loggedAggregate (space : Space) (reducer : Metric.Reducer) : Session Report Aggregate := do
  Session.logAll (Campaign.messages results reducer space runs)
  Session.ofExcept (aggregate results runs space reducer)

def operate (c : Change) : Session Report Unit := (Session.operate c).mapError Report.ofIo

/-- Leaves a page, the chart description and the table in a folder. -/
def keepChart (folder file : String) (f : Chart.Figure) (a : Aggregate) : Session Report Unit := do
  operate (FileTree.makeFolders folder)
  operate (FileTree.writeFile (Path.join folder (file ++ ".html")) (.page f))
  operate (FileTree.writeFile (Path.join folder (file ++ ".json")) (.figure f))
  operate (FileTree.makeFolders folder)
  operate (FileTree.writeFile (Path.join folder (file ++ ".csv")) (.text a.csv))

def drawLine (s : Sweep) (l : Layout) (c : LineChart) : Session Report Unit := do
  Session.log (.info ("Plotting (line): " ++ c.reducer.name))
  let a ← loggedAggregate results runs s.space c.reducer
  let f ← Session.ofExcept (lineFigure s c a)
  keepChart l.lineFolder c.file f a

def drawBar (s : Sweep) (l : Layout) (c : BarChart) (folder : String × Param.Value) :
    Session Report Unit := do
  let space ← Session.ofExcept (barSpace s folder.2)
  Session.log (.info ("Plotting (bar): " ++ c.reducer.name))
  let a ← loggedAggregate results runs space c.reducer
  let f ← Session.ofExcept ((barFigure c a).mapError Report.ofChart)
  keepChart (l.barFolder folder.1) c.file f a

/-- Draws the line charts of a sweep, then its bar charts, up to the first failure. -/
def plotAll (s : Sweep) (n : Normalization) (l : Layout) : Session Report Unit := do
  (lineCharts n).forM (drawLine results runs s l)
  (barCharts n).forM fun c => s.barFolders.forM (drawBar results runs s l c)

end Drawing
end SimCampaign.Study
