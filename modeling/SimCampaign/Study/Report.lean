import SimCampaign.Archive.Session
import SimCampaign.Campaign.Evaluation
import SimCampaign.Chart.Line

/-! Failures as a command reports them: a message, and what stands behind it. -/

namespace SimCampaign

structure Report where
  message : String
  causes : List String
  deriving DecidableEq, Repr

namespace Report

def chain (r : Report) : List String := r.message :: r.causes

def within (r : Report) (message : String) : Report := ⟨message, r.chain⟩

def ofCampaign (e : Campaign.Error) : Report := ⟨e.message, e.causes⟩

def ofArchive (e : Archive.Error) : Report := ⟨e.message, e.causes⟩

def ofAggregate (e : Aggregate.Error) : Report := ⟨e.message, []⟩

def ofChart (e : Chart.Error) : Report := ⟨e.message, []⟩

def ofIo (e : IoError) : Report := ⟨e.message, []⟩

def ofParam (e : Param.Error) : Report := ⟨e.message, []⟩

/-- Indents the lines of a cause, the first one by its number if there are several causes. -/
def causeLines (number? : Option Nat) (cause : String) : List String :=
  let pieces := (cause.toList.splitOnP (· == '\n')).map String.ofList
  let (first, indent) := match number? with
    | some n =>
      let digits := toString n
      ("".pushn ' ' (5 - digits.length) ++ digits ++ ": ", "       ")
    | none => ("    ", "    ")
  match pieces with
  | [] => []
  | p :: ps => (first ++ p) :: ps.map (indent ++ ·)

def numbered : List String → List String
  | [] => []
  | [cause] => causeLines none cause
  | causes => causes.zipIdx.flatMap fun (cause, i) => causeLines (some i) cause

def lines (r : Report) : List String :=
  (("Error: " ++ r.message).toList.splitOnP (· == '\n')).map String.ofList ++
    if r.causes = [] then [] else "" :: "Caused by:" :: numbered r.causes

end Report
end SimCampaign
