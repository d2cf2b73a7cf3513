import SimCampaign.Archive.Timestamp
import SimCampaign.CommandLine.Execution

/-! The program: the files that a command can read become a tree, the command is run on it, and what
it changed is written back. No other program is started, so an archive with missing runs stops at
the first of them, and one that is complete is plotted. -/

namespace SimCampaign.Program
open CommandLine

def usage : List String := [
  "Usage: simcampaign --campaign-name NAME [OPTIONS] COMMAND",
  "",
  "Commands:",
  "  run             Run the missing simulations of a parameter set",
  "  plot            Run a parameter set and plot its metrics",
  "  fixed-app-rate  Sweep the number of stations at a fixed application rate",
  "  custom          Run and plot a parameter space read from a JSON file"]

def toPath (p : Location) : String := "/".intercalate p

/-- Adds a folder to the tree, with those on its way. -/
def addFolders (t : FileTree) (path : String) : FileTree := (FileTree.makeFolders path none t).2

/-- Adds a file, or a folder with all below it, where one is. -/
partial def load (p : Location) (t : FileTree) : IO FileTree := do
  let place := (← IO.currentDir) / toPath p
  if ← place.isDir then
    (← place.readDir).foldlM (fun t entry => load (p ++ [entry.fileName]) t)
      (addFolders t (toPath p))
  else if ← place.pathExists then
    return (addFolders t (toPath p.dropLast)).write p (.bytes (← IO.FS.readBinFile place))
  else return t

/-- Adds what a path leads to, and the folders that it leads through. -/
def loadPath (path : String) (t : FileTree) : IO FileTree := do
  let root ← IO.currentDir
  let mut t := t
  for q in Path.way path do
    if ← (root / toPath q).isDir then t := addFolders t (toPath q)
  load (Path.resolve path) t

/-- The paths that a command reads. -/
def sources (args : Arguments) : List String :=
  args.directory :: match args.command with
    | .custom c => [c.spaceFile]
    | _ => []

def loadFor (args : List String) : IO FileTree := do
  match Arguments.read args with
  | .ok args => (sources args).foldlM (fun t path => loadPath path t) .empty
  | .error _ => return .empty

def sameData (t : FileTree) (p : Location) (doc : Document) : Bool :=
  match t.node? p with
  | some (.file old) => old.data == doc.data
  | _ => false

def store (before after : FileTree) : IO Unit := do
  let root ← IO.currentDir
  for (p, n) in before.nodes do
    if n.isFile && !after.exists? p then IO.FS.removeFile (root / toPath p)
  for (p, n) in before.nodes.reverse do
    if !n.isFile && !after.exists? p then IO.FS.removeDir (root / toPath p)
  for (p, n) in after.nodes do
    match n with
    | .folder => IO.FS.createDirAll (root / toPath p)
    | .file doc =>
      if !sameData before p doc then IO.FS.writeBinFile (root / toPath p) doc.data

/-- The present time, which a file that was just made bears. -/
def now : IO String := do
  let (_, file) ← IO.FS.createTempFile
  let time := (← file.metadata).modified
  IO.FS.removeFile file
  return Timestamp.ofSeconds time.sec.toNat

def tools : IO Archive.Tools := do
  let time ← now
  return {
    simulator := ⟨fun _ _ _ => .error .denied⟩
    buildTool := ⟨fun _ _ _ t => (t, false)⟩
    now := fun _ => time
    seconds := fun _ => 0.0 }

def logLine (m : Message) : String := "[" ++ m.level.name ++ "] " ++ m.text

def run (args : List String) : IO UInt32 := do
  let files ← loadFor args
  let (outcome, w) := call (← tools) args { files }
  store files w.files
  for m in w.log do IO.eprintln (logLine m)
  for line in outcome.lines do IO.eprintln line
  if Arguments.read args matches .error .help then usage.forM IO.println
  if Arguments.read args matches .error .invalid then usage.forM IO.eprintln
  return outcome.exitCode.toUInt32

end SimCampaign.Program

def main (args : List String) : IO UInt32 := SimCampaign.Program.run args
