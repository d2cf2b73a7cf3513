import SimCampaign.Archive.Error
import SimCampaign.Archive.Metadata
import SimCampaign.Archive.Session
import SimCampaign.Archive.Simulator
import SimCampaign.Run

/-! Archives of simulation runs. Each run has a folder of its own, named by a hash of its
parameters; it is done once its record is there, which is written last. -/

namespace SimCampaign

structure Archive where
  /-- The root of the simulator's source tree, a path that need not be text. -/
  tree : ByteArray
  /-- The simulation script. -/
  script : String
  /-- Where the runs are kept. -/
  directory : String
  profile : Archive.Profile := .optimized
  /-- How many simulations run at once, or zero for one on each processor. -/
  maxParallel : Nat := 0
  /-- Whether the simulator is built first. -/
  builds : Bool := false
  /-- Whether the archive of another script or tree is deleted. -/
  overwrites : Bool := false

namespace Archive

/-- A worker goes on with its own runs. If it has none, it takes over those of another one that have
not begun, from a place in the list on. -/
structure Turn where
  worker : Nat
  victim : Nat
  first : Nat

/-- The programs that an archive calls, the clock, and the threads. -/
structure Tools where
  simulator : Simulator
  buildTool : BuildTool
  now : (moment : Nat) → String
  /-- How long the simulation took that was started at a moment. -/
  seconds : (moment : Nat) → Float
  cores : Nat := 1
  /-- Whether the threads of a pool can be had. -/
  spawns : (moment workers : Nat) → Bool := fun _ _ => true
  /-- In which order the workers of a pool go on, until nothing else is known of it. -/
  schedule : (moment : Nat) → List Turn := fun _ => []

section Paths
variable (a : Archive)

def treeText? : Option String := Text.decode? a.tree

def ownerPath : String := Path.join a.directory "campaign.json"

def ownerFile : Location := Path.resolve a.ownerPath

def runsFolder : String := Path.join a.directory "data"

def runPath (id : String) : String := Path.join a.runsFolder id

def runFolder (id : String) : Location := Path.resolve (a.runPath id)

def recordName : String := "run.json"

def recordPath (id : String) : String := Path.join (a.runPath id) recordName

def recordFile (id : String) : Location := a.runFolder id ++ [recordName]

def program? : Option String :=
  a.treeText?.map fun tree => Path.joinAll tree
    ["build", a.profile.name, "scratch", "ns3-dev-" ++ a.script ++ "-" ++ a.profile.name]

def libraries : ByteArray := ["build", a.profile.name, "lib"].foldl Path.joinBytes a.tree

end Paths

def isDone (a : Archive) (t : FileTree) (id : String) : Bool := t.finds (a.recordPath id)

def operate (c : Change) : Session Error Unit := (Session.operate c).mapError .io

section Setup

def claim (a : Archive) (tools : Tools) : Session Error Unit := do
  operate (FileTree.makeFolders a.runsFolder)
  let created := tools.now (← Session.moment)
  match a.treeText? with
  | some tree =>
    let owner : Owner := { tree, script := a.script, created }
    operate (FileTree.writeFile a.ownerPath (.text owner.toJson.renderIndented))
  | none => throw .unrecordable

def readOwner (a : Archive) (t : FileTree) : Except Error Owner := do
  let text ← (t.readText a.ownerPath).mapError .io
  match Owner.read? text with
  | some o => .ok o
  | none => .error .malformed

/-- A path that is not text is never the same as one that is. -/
def isOwnedBy (a : Archive) (o : Owner) : Bool :=
  o.script == a.script && a.treeText?.any (Path.same o.tree)

/-- Takes hold of the directory. One that belongs to another script or tree is refused, or deleted
if the archive overwrites. -/
def setup (a : Archive) (tools : Tools) : Session Error Unit := do
  let t ← Session.files
  if t.finds a.ownerPath then
    let owner ← Session.ofExcept (a.readOwner t)
    if a.isOwnedBy owner then
      Session.log (.info
        ("Reusing campaign in " ++ a.directory ++ " (created " ++ owner.created ++ ")"))
    else if a.overwrites then
      Session.log (.warn ("Overwriting campaign in " ++ a.directory))
      operate (FileTree.removeFolder a.directory)
      a.claim tools
    else throw (.mismatch a.directory owner.script)
  else a.claim tools

/-- The arguments of the two calls that configure and build the simulator. -/
def buildCalls (a : Archive) : List (List String) :=
  [["configure", "--build-profile=" ++ a.profile.name, "--out=build/" ++ a.profile.name,
    "--disable-werror"], ["build"]]

def callBuildTool (a : Archive) (tools : Tools) (arguments : List String) : Session Error Unit := do
  let moment ← Session.moment
  let call : Change := fun _ t =>
    let (t, succeeded) := tools.buildTool.run moment a.tree arguments t
    (if succeeded then .ok () else .error (.system "the build tool failed"), t)
  (Session.operate call).mapError fun _ => .buildFailed

def build (a : Archive) (tools : Tools) : Session Error Unit := do
  if a.builds then
    Session.log (.info ("Building ns-3 in " ++ String.ofList (Text.decodeLossy a.tree.toList)))
    a.buildCalls.forM (a.callBuildTool tools)

end Setup

section Runs

def allRuns (space : Param.Space) (runs : Nat) : List PendingRun :=
  space.assignments.flatMap fun params => (List.range runs).map (PendingRun.of params)

def missingRuns (a : Archive) (t : FileTree) (space : Param.Space) (runs : Nat) : List PendingRun :=
  (allRuns space runs).filter fun r => !a.isDone t r.id

def removeRun (a : Archive) (id : String) : Session Error Unit := do
  if (← Session.files).finds (a.runPath id) then
    Session.log (.info ("Removing run " ++ id))
    operate (FileTree.removeFolder (a.runPath id))

def removeRuns (a : Archive) (ids : List String) : Session Error Unit := ids.forM a.removeRun

end Runs

section Results

/-- The text of a child that is a file other than the record. -/
def artifact? (child : String × Node) : Option (Except Error (String × String)) :=
  match child.2 with
  | .folder => none
  | .file doc =>
    if child.1 = recordName then none
    else some (((FileTree.documentText doc).mapError .io).map (child.1, ·))

def loadRun (a : Archive) (t : FileTree) (id : String) : Except Error Run := do
  let text ← (t.readText (a.recordPath id)).mapError .io
  match RunRecord.read? text with
  | none => .error .malformed
  | some record =>
    let artifacts ← ((t.children (a.runFolder id)).filterMap artifact?).mapM (·)
    .ok { id := record.id, repetition := record.repetition, params := record.params, artifacts }

/-- The first repetitions of an assignment, as long as they are done. -/
def doneIds (a : Archive) (t : FileTree) (params : Param.Assignment) (runs : Nat) : List String :=
  ((List.range runs).map fun i => (PendingRun.of params i).id).takeWhile (a.isDone t)

def results (a : Archive) (t : FileTree) (params : Param.Assignment) (runs : Nat) :
    Except Error (List Run) :=
  (a.doneIds t params runs).mapM (a.loadRun t)

end Results

def isSimulatorTree (t : FileTree) (folder : String) : Bool :=
  match t.find (Path.join folder "waf"), t.find (Path.join folder "scratch") with
  | .ok (.file _), .ok .folder => true
  | _, _ => false

end Archive
end SimCampaign
