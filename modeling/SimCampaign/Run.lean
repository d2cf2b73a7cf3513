import SimCampaign.Log
import SimCampaign.Param.Assignment

/-! The outcome of one simulation: its parameters and the texts it left. -/

namespace SimCampaign

structure Run where
  id : String
  repetition : Nat
  params : Param.Assignment
  artifacts : List (String × String)

namespace Run

def artifact? (r : Run) (name : String) : Option String := r.artifacts.lookup name

def standardOutput : String := "stdout"

def standardError : String := "stderr"

/-- Whether the simulator wrote anything to its standard error stream. -/
def isBroken (r : Run) : Bool :=
  match r.artifact? standardError with
  | some text => text != ""
  | none => false

def brokenMessage (r : Run) : Message := .warn ("invalid simulation: " ++ r.id)

/-- The ids of the broken runs, and a warning for each. -/
def flagBroken (runs : List Run) : List String × List Message :=
  let broken := runs.filter isBroken
  (broken.map (·.id), broken.map brokenMessage)

end Run
end SimCampaign
