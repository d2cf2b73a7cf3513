import SimCampaign.CommandLine.Arguments
import SimCampaign.Study.Completion
import SimCampaign.Study.Plots
import SimCampaign.Study.SpaceFile

/-! What a command does: it takes hold of an archive, simulates what is missing and draws charts. -/

namespace SimCampaign

def Report.ofSpaceFile (e : SpaceFile.Error) : Report := ⟨e.message, e.causes⟩

namespace CommandLine
open Study (Layout Normalization ParamSet Sweep)

namespace Arguments

def directory (args : Arguments) : String :=
  Path.joinAll args.settings.tree ["campaigns", args.settings.script ++ "-" ++ args.campaignName]

def archive (args : Arguments) : Archive :=
  { tree := Text.encode args.settings.tree, script := args.settings.script, directory := args.directory
    profile := args.settings.profile, maxParallel := args.settings.cores
    builds := args.settings.builds }

def images (args : Arguments) : String := Path.join args.directory "img"

def withCores (args : Arguments) (what : String) : Message :=
  .info ("Running " ++ what ++ " with " ++ toString args.settings.cores ++ " core(s)")

end Arguments

section Study
variable (args : Arguments) (tools : Archive.Tools)

def complete (s : Sweep) : Session Report Unit :=
  Study.complete args.archive tools s.space args.settings.runs args.settings.removesBroken

def plot (s : Sweep) (n : Normalization) (l : Layout) : Session Report Unit := do
  Study.plotAll (Study.archived args.archive (← Session.files)) args.settings.runs s n l

def completeSet (set : ParamSet) : Session Report Sweep := do
  Session.log (args.withCores set.name)
  let s ← Session.ofExcept ((set.sweep args.settings.baseline).mapError Report.ofParam)
  complete args tools s
  return s

def plotSet (set : ParamSet) : Session Report Unit := do
  let s ← completeSet args tools set
  plot args s .byPhysicalRate ⟨Path.join args.images set.name, none⟩

def truthText (b : Bool) : String := (Param.Value.bool b).display

/-- One setting of smart start and contention access at a fixed rate. -/
def fixedRate (rate : String) (setting : Bool × Bool) : Session Report Unit := do
  let (smartStart, access) := setting
  Session.log (args.withCores ("appRate=" ++ rate ++ ", smartStart=" ++ truthText smartStart ++
    ", accessCbapIfAllocated=" ++ truthText access))
  let s ← Session.ofExcept
    ((Study.fixedRate args.settings.baseline rate smartStart access).mapError Report.ofParam)
  complete args tools s
  let folder := "smartStart_" ++ truthText smartStart ++ "_cbap_" ++ truthText access
  plot args s .byApplicationRate ⟨Path.join args.images rate, some folder⟩

/-- A space that fixes the application rate is compared with it. -/
def normalization (space : Param.Space) : Normalization :=
  if (space.get? Metric.Name.applicationRate).isSome then .byApplicationRate else .byPhysicalRate

def custom (c : CustomStudy) : Session Report Unit := do
  let space ← Session.ofExcept
    ((SpaceFile.read (← Session.files) c.spaceFile).mapError Report.ofSpaceFile)
  let s := Sweep.ofSpace space c.x c.hue (c.xLabel?.getD c.x) c.forEach
  complete args tools s
  let folder := (Path.stem? c.spaceFile).getD "custom"
  plot args s (normalization space) ⟨Path.join args.images folder, none⟩

def perform : Session Report Unit := do
  match args.command with
  | .run set => discard (completeSet args tools set)
  | .plot set => plotSet args tools set
  | .fixedRate rate => Study.accessSettings.forM (fixedRate args tools rate)
  | .custom c => custom args tools c

/-- Runs a command. What it did before a failure stays. -/
def execute : Session Report Unit := do
  (args.archive.setup tools).mapError Report.ofArchive
  (args.archive.build tools).mapError Report.ofArchive
  perform args tools

end Study

/-- How a call of the program ends. -/
inductive Outcome where
  | done
  | failed (report : Report)
  | refused
  deriving DecidableEq, Repr

namespace Outcome

def exitCode : Outcome → Nat
  | .done => 0
  | .failed _ => 1
  | .refused => 2

def lines : Outcome → List String
  | .failed report => report.lines
  | _ => []

end Outcome

/-- A call of the program. Only a command line that is read changes anything. -/
def call (tools : Archive.Tools) (args : List String) (w : World) : Outcome × World :=
  match Arguments.read args with
  | .error .help => (.done, w)
  | .error .invalid => (.refused, w)
  | .ok args =>
    match (execute args tools).run.run w with
    | (.ok _, w) => (.done, w)
    | (.error report, w) => (.failed report, w)

end CommandLine
end SimCampaign
