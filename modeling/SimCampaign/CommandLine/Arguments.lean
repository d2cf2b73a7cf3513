import SimCampaign.Archive.Error
import SimCampaign.CommandLine.Options
import SimCampaign.Decimal.Reader
import SimCampaign.Quantity
import SimCampaign.Study.ParamSet

/-! The arguments of a study: where its campaign is, how the simulations are set, and the command.
-/

namespace SimCampaign.CommandLine
open Study (Baseline ParamSet)

/-- A parameter space in a file, and how it is plotted. -/
structure CustomStudy where
  spaceFile : String
  x : String
  hue : String
  forEach : String
  xLabel? : Option String

inductive Command where
  | run (set : ParamSet)
  | plot (set : ParamSet)
  | fixedRate (rate : String)
  | custom (study : CustomStudy)

/-- What is set ahead of the command. -/
structure Settings where
  tree : String := "."
  campaignName? : Option String := none
  script : String := "scheduler_comparison_qd_dense"
  cores : Nat := 1
  runs : Nat := 5
  profile : Archive.Profile := .optimized
  builds : Bool := false
  removesBroken : Bool := false
  baseline : Baseline := {}

structure Arguments where
  settings : Settings
  campaignName : String
  command : Command

def natural? : List Char → Option Nat := Decimal.natUpTo? maxUInt64

def baselineOptions : Options Baseline := [
  ("application-type", .text fun s b => { b with applicationType := s }),
  ("norm-offered-traffic", .read Decimal.float? fun x b => { b with normalizedLoad := x }),
  ("socket-type", .text fun s b => { b with socketType := s }),
  ("mpdu-aggregation-size", .read Decimal.int64? fun n b => { b with aggregationSize := n }),
  ("phy-mode", .text fun s b => { b with scheme := s }),
  ("simulation-time", .read Decimal.float? fun x b => { b with simulationTime := x }),
  ("num-stas", .read Decimal.int64? fun n b => { b with stations := n }),
  ("dont-access-cbap-if-allocated", .flag fun b => { b with accessIfAllocated := false }),
  ("bi-duration-us", .read Decimal.int64? fun n b => { b with beaconInterval := n }),
  ("onoff-period-mean", .read Decimal.float? fun x b => { b with periodMean := x }),
  ("onoff-period-stdev", .read Decimal.float? fun x b => { b with periodDeviation := x }),
  ("smart-start-off", .flag fun b => { b with smartStart := false })]

section Top

def Action.ofBaseline : Action Baseline → Action Settings
  | .flag set => .flag fun s => { s with baseline := set s.baseline }
  | .value set? => .value fun text s => (set? text s.baseline).map fun b => { s with baseline := b }

def readProfile (text : String) (s : Settings) : Option Settings :=
  (Archive.Profile.ofName text).toOption.map fun p => { s with profile := p }

def topOptions : Options Settings := [
  ("ns3-dir", .path fun p s => { s with tree := p }),
  ("campaign-name", .text fun name s => { s with campaignName? := some name }),
  ("script", .text fun script s => { s with script }),
  ("cores", .read natural? fun n s => { s with cores := n }),
  ("num-runs", .read natural? fun n s => { s with runs := n }),
  ("profile", .value readProfile),
  ("build", .flag fun s => { s with builds := true }),
  ("remove-broken", .flag fun s => { s with removesBroken := true })] ++
  baselineOptions.map fun (name, action) => (name, action.ofBaseline)

end Top

section Command

def readSet (args : List String) : Except Stop ParamSet := do
  let options : Options (Option ParamSet) :=
    [("param-set", .value fun text _ => (ParamSet.ofName? text).map some)]
  orInvalid (← scanAll options none args)

def readRate (args : List String) : Except Stop String :=
  scanAll [("app-rate", .text fun rate _ => rate)] "100Mbps" args

structure CustomParts where
  spaceFile? : Option String := none
  x? : Option String := none
  hue? : Option String := none
  forEach? : Option String := none
  xLabel? : Option String := none

def customOptions : Options CustomParts := [
  ("params", .path fun p c => { c with spaceFile? := some p }),
  ("x", .text fun s c => { c with x? := some s }),
  ("hue", .text fun s c => { c with hue? := some s }),
  ("for-each", .text fun s c => { c with forEach? := some s }),
  ("xlabel", .text fun s c => { c with xLabel? := some s })]

/-- All parts but the label are required. -/
def CustomParts.study? (c : CustomParts) : Option CustomStudy := do
  some
    { spaceFile := ← c.spaceFile?, x := ← c.x?, hue := ← c.hue?, forEach := ← c.forEach?
      xLabel? := c.xLabel? }

def readCustom (args : List String) : Except Stop CustomStudy := do
  orInvalid (← scanAll customOptions {} args).study?

def commands : List (String × (List String → Except Stop Command)) := [
  ("run", fun args => .run <$> readSet args),
  ("plot", fun args => .plot <$> readSet args),
  ("fixed-app-rate", fun args => .fixedRate <$> readRate args),
  ("custom", fun args => .custom <$> readCustom args)]

/-- Help is there for the program and for each command, help itself among them. -/
def readHelp : List String → Stop
  | [] => .help
  | [name] => if name = "help" ∨ (commands.lookup name).isSome then .help else .invalid
  | _ => .invalid

def readCommand : List String → Except Stop Command
  | [] => .error .invalid
  | "help" :: args => .error (readHelp args)
  | name :: args =>
    match commands.lookup name with
    | some read => read args
    | none => .error .invalid

end Command

/-- Reads the options of the program, then the command with its own. What is missing or refused
ahead of the command is told after what the command says. -/
def Arguments.read (args : List String) : Except Stop Arguments := do
  let top ← scan topOptions ⟨{}, []⟩ args
  let command ← readCommand top.rest
  let settings ← orInvalid top.settings?
  let campaignName ← orInvalid settings.campaignName?
  .ok { settings, campaignName, command }

end SimCampaign.CommandLine
