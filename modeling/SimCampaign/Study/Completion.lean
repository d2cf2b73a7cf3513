import SimCampaign.Archive.Pool
import SimCampaign.Study.Report

/-! Completing an archive: the missing runs of a space are simulated, and the broken ones are
reported or simulated once more. -/

namespace SimCampaign.Study
open Param (Assignment Space)

/-- The archive as a source of results, its files as they are now. -/
def archived (a : Archive) (t : FileTree) : Campaign.Results := fun params runs =>
  (a.results t params runs).mapError Campaign.Error.ofArchive

def reportArchive (s : Session Archive.Error α) : Session Report α :=
  s.mapError fun e => Report.ofCampaign (Campaign.Error.ofArchive e)

/-- The ids of the broken runs among the results of an assignment. Each is warned of. -/
def brokenOf (a : Archive) (runs : Nat) (params : Assignment) : Session Report (List String) := do
  let t ← Session.files
  let found ← Session.ofExcept ((archived a t params runs).mapError Report.ofCampaign)
  let (ids, warnings) := Run.flagBroken found
  Session.logAll warnings
  return ids

def brokenRuns (a : Archive) (space : Space) (runs : Nat) : Session Report (List String) := do
  return (← space.assignments.mapM (brokenOf a runs)).flatten

def brokenSummary (broken : Nat) : Message :=
  .warn (toString broken ++ " simulations wrote to stderr, pass --remove-broken to run them again")

/-- Simulates what is missing of a space. Broken runs are then deleted and simulated again, once, or
stay with a warning. -/
def complete (a : Archive) (tools : Archive.Tools) (space : Space) (runs : Nat)
    (removesBroken : Bool) : Session Report Unit := do
  reportArchive (a.runMissing tools space runs)
  let broken ← brokenRuns a space runs
  if broken ≠ [] then
    if removesBroken then
      (a.removeRuns broken).mapError Report.ofArchive
      reportArchive (a.runMissing tools space runs)
    else Session.log (brokenSummary broken.length)

end SimCampaign.Study
