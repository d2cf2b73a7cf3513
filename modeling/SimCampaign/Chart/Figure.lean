import SimCampaign.Json.Writer
import SimCampaign.Param.Space

/-! Charts as data: traces, axes and titles, and their JSON description. -/

namespace SimCampaign.Chart

inductive Scale where
  | linear
  | log
  deriving DecidableEq, Repr

def Scale.name : Scale → String
  | .linear => "linear"
  | .log => "log"

/-- Positions on an axis: numbers, or labels in their order. -/
inductive Coords where
  | numbers (xs : List Float)
  | labels (names : List String)
  deriving Inhabited

/-- Values are numbers if all of them are, else labels. -/
def Coords.ofValues (vs : List Param.Value) : Coords :=
  match vs.mapM Param.Value.number? with
  | some xs => .numbers xs
  | none => .labels (vs.map Param.Value.display)

inductive Trace where
  | line (name? : Option String) (x : Coords) (y errors : List Float)
  | bar (name : String) (ticks : List String) (y errors : List Float)
  deriving Inhabited

structure Axis where
  title : String
  scale? : Option Scale := none
  showsGrid : Bool := false
  range? : Option (Float × Float) := none

structure Figure where
  traces : List Trace
  title? : Option String
  grouped : Bool
  xAxis : Axis
  yAxis : Axis

section Description

def numbersJson (xs : List Float) : Json := .array (xs.map .float)

def stringsJson (names : List String) : Json := .array (names.map .string)

def titleJson (text : String) : Json := .object [("text", .string text)]

def Coords.toJson : Coords → Json
  | .numbers xs => numbersJson xs
  | .labels names => stringsJson names

def errorsJson (errors : List Float) : Json :=
  .object [("type", .string "data"), ("array", numbersJson errors)]

def Trace.toJson : Trace → Json
  | .line name? x y errors =>
    .object ([("type", .string "scatter")] ++
      (match name? with
        | some name => [("name", .string name)]
        | none => [("showlegend", .bool false)]) ++
      [("x", x.toJson), ("y", numbersJson y), ("mode", .string "lines+markers"),
        ("error_y", errorsJson errors)])
  | .bar name ticks y errors =>
    .object [("type", .string "bar"), ("x", stringsJson ticks), ("y", numbersJson y),
      ("name", .string name), ("error_y", errorsJson errors)]

def Axis.toJson (a : Axis) : Json :=
  .object ([("title", titleJson a.title)] ++
    (match a.scale? with
      | some s => [("type", .string s.name)]
      | none => []) ++
    (match a.range? with
      | some (low, high) => [("range", numbersJson [low, high])]
      | none => []) ++
    (if a.showsGrid then [("showgrid", .bool true)] else []))

def Figure.toJson (f : Figure) : Json :=
  .object [("data", .array (f.traces.map Trace.toJson)),
    ("layout", .object (
      (match f.title? with
        | some title => [("title", titleJson title)]
        | none => []) ++
      [("xaxis", f.xAxis.toJson), ("yaxis", f.yAxis.toJson)] ++
      (if f.grouped then [("barmode", .string "group")] else []))),
    ("config", .object [])]

def drawingScript : String := "plotly.min.js"

def Figure.toPage (f : Figure) : String :=
  "<!DOCTYPE html>\n<html><head><script src=" ++ drawingScript ++ "></script></head>\n" ++
    "<body><div id=chart></div><script>Plotly.newPlot(document.getElementById(\"chart\"), " ++
    f.toJson.render ++ ");</script></body></html>\n"

end Description
end SimCampaign.Chart
