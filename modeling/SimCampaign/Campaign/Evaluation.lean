import SimCampaign.Archive.Error
import SimCampaign.Grid.Aggregate
import SimCampaign.Metric.Basic

/-! The values of a metric over a parameter space: one for every repetition of every assignment. -/

namespace SimCampaign.Campaign
open Param (Assignment Dim Space)

inductive Error where
  | metric (run reducer : String) (cause : Metric.Error)
  | shape (run : String) (expected got : Option Nat)
  | notRun (params : String) (expected got : Nat)
  | misshapen (cause : Grid.Misfit)
  | aggregate (cause : Aggregate.Error)
  | io (cause : IoError)
  | archive (cause : Archive.Error)
  | other (text : String)
  deriving DecidableEq, Repr

namespace Error

def message : Error → String
  | .metric run reducer _ => "failed to compute " ++ reducer ++ " for run " ++ run
  | .shape run expected got =>
    "run " ++ run ++ " has metric length " ++ Text.optionalNat got ++ ", expected " ++
      Text.optionalNat expected
  | .notRun params expected got =>
    params ++ " has " ++ toString got ++ " of " ++ toString expected ++ " runs"
  | .misshapen cause => cause.message
  | .aggregate cause => cause.message
  | .io _ => "campaign I/O error"
  | .archive cause => cause.message
  | .other text => text

def causes : Error → List String
  | .metric _ _ cause => [cause.message]
  | .io cause => [cause.message]
  | .archive cause => cause.causes
  | _ => []

/-- An archive's error, failures of file operations told apart. -/
def ofArchive : Archive.Error → Error
  | .io cause => .io cause
  | e => .archive e

end Error

/-- The results that a campaign has of the first repetitions of an assignment. -/
abbrev Results := Assignment → Nat → Except Error (List Run)

def runsOf (results : Results) (runs : Nat) (params : Assignment) : Except Error (List Run) := do
  let found ← results params runs
  if found.length = runs then .ok found else .error (.notRun params.display runs found.length)

def valueOf (reducer : Metric.Reducer) (r : Run) : Except Error (String × Metric.Value) :=
  match reducer.compute r with
  | .ok v => .ok (r.id, v)
  | .error cause => .error (.metric r.id reducer.name cause)

def valuesOf (results : Results) (reducer : Metric.Reducer) (runs : Nat) (params : Assignment) :
    Except Error (List (String × Metric.Value)) := do
  (← runsOf results runs params).mapM (valueOf reducer)

/-- The values of all repetitions of all assignments, in order. -/
def values (results : Results) (reducer : Metric.Reducer) (space : Space) (runs : Nat) :
    Except Error (List (String × Metric.Value)) := do
  .ok (← space.assignments.mapM (valuesOf results reducer runs)).flatten

/-- The length of the first value, if it is a vector. -/
def vectorLength? (values : List (String × Metric.Value)) : Option Nat :=
  values.head?.bind (·.2.length?)

def runCoords (runs : Nat) : List Param.Value := (List.range runs).map .ofNat

/-- The dimensions of the space, the repetitions and, for vectors, their numbers. -/
def arrayDims (reducer : Metric.Reducer) (space : Space) (runs : Nat) (length? : Option Nat) :
    List Dim :=
  space.dims ++ ⟨runsDim, runCoords runs⟩ ::
    match length? with
    | some n => [⟨metricsDim, (reducer.labels n).map .text⟩]
    | none => []

/-- The first value that is not of the expected shape. -/
def oddShape? (expected : Option Nat) (values : List (String × Metric.Value)) : Option Error :=
  (values.find? fun (_, v) => v.length? ≠ expected).map fun (id, v) => .shape id expected v.length?

def assemble (dims : List Dim) (cells : List Float) : Except Error MetricArray :=
  let shape := dims.map Dim.length
  match Grid.misfit? shape cells.length with
  | some cause => .error (.misshapen cause)
  | none => (MetricArray.ofShape dims shape cells).mapError .aggregate

/-- Evaluates a metric on every repetition of every assignment. The dimensions of the array are
those of the space, then the repetitions, then the numbers of a vector. -/
def evaluate (results : Results) (reducer : Metric.Reducer) (space : Space) (runs : Nat) :
    Except Error MetricArray := do
  let values ← values results reducer space runs
  let length? := vectorLength? values
  match oddShape? length? values with
  | some e => .error e
  | none => assemble (arrayDims reducer space runs length?) (values.flatMap (·.2.toList))

section Messages

/-- The warnings up to the first run that the metric fails on, and whether there is none. -/
def runMessages (reducer : Metric.Reducer) : List Run → List Message × Bool
  | [] => ([], true)
  | r :: rs =>
    match reducer.compute r with
    | .error _ => ([], false)
    | .ok _ =>
      let (ms, all) := runMessages reducer rs
      (reducer.warnings r ++ ms, all)

def assignmentMessages (results : Results) (reducer : Metric.Reducer) (runs : Nat) :
    List Assignment → List Message
  | [] => []
  | params :: rest =>
    match runsOf results runs params with
    | .error _ => []
    | .ok found =>
      let (ms, all) := runMessages reducer found
      if all then ms ++ assignmentMessages results reducer runs rest else ms

/-- What an evaluation logs: a line about itself, then the warnings of the values up to the first
failure. -/
def messages (results : Results) (reducer : Metric.Reducer) (space : Space) (runs : Nat) :
    List Message :=
  let assignments := space.assignments
  .info ("Computing " ++ reducer.name ++ " over " ++ toString assignments.length ++
    " parameter assignments") :: assignmentMessages results reducer runs assignments

end Messages
end SimCampaign.Campaign
