import SimCampaign.Archive.Basic

/-! How a run is executed: its folder is made, its program is started there, and what the program
leaves is kept, with the record as the last file. -/

namespace SimCampaign.Archive

def commandLine (params : Param.Assignment) : List String :=
  params.pairs.map fun (name, v) => "--" ++ name ++ "=" ++ v.display

def holdsNul (s : String) : Bool := s.toList.contains '\x00'

/-- The standard error stream as text, and how the program ended unless it succeeded. -/
def errorText (e : Execution) : String :=
  String.ofList (Text.decodeLossy e.errors.toList) ++
    (if e.status.isSuccess then "" else "simulation exited with " ++ e.status.display ++ "\n")

def PendingRun.record (r : PendingRun) (tools : Tools) (moment : Nat) : RunRecord :=
  { id := r.id, params := r.params, repetition := r.repetition
    start := tools.now moment, seconds := tools.seconds moment }

/-- What is left to do of an execution. -/
inductive Step where
  | effect (e : Effect)
  | keep (name : String) (doc : Document)
  | record (doc : Document)

/-- What follows the start of a program: all that it does, and then what is kept of it. -/
def steps (tools : Tools) (r : PendingRun) (moment : Nat) (e : Execution) : List Step :=
  e.effects.map .effect ++
    [.keep Run.standardOutput (.bytes e.output), .keep Run.standardError (.text (errorText e)),
      .record (.text (r.record tools moment).toJson.renderIndented)]

/-- Whether the program is there and takes the arguments. One whose path is not text is not among
the files here, so it is left to the simulator. -/
def checkProgram (a : Archive) (t : FileTree) (arguments : List String) : Except IoError Unit := do
  let program? ← a.program?.mapM t.find
  if arguments.any holdsNul then throw .invalidInput
  match program? with
  | some .folder => throw .denied
  | _ => return ()

def launch (a : Archive) (tools : Tools) (r : PendingRun) : Session Error (List Step) := do
  -- A program that cannot be started leaves this folder without a record.
  operate (FileTree.makeFolders (a.runPath r.id))
  let arguments := commandLine r.params
  Session.ofExcept ((a.checkProgram (← Session.files) arguments).mapError .io)
  let moment ← Session.moment
  let e ← Session.ofExcept ((tools.simulator.run moment arguments a.libraries).mapError .io)
  Session.start { run := r, moment }
  return steps tools r moment e

def perform (a : Archive) (r : PendingRun) : Step → Session Error Unit
  | .effect e => Session.change fun t => e.apply (a.runFolder r.id) t
  | .keep name doc => operate (FileTree.writeAt (a.runFolder r.id ++ [name]) doc)
  | .record doc => do
    operate (FileTree.writeAt (a.recordFile r.id) doc)
    Session.finish r

def execute (a : Archive) (tools : Tools) (r : PendingRun) : Session Error Unit := do
  (← a.launch tools r).forM (a.perform r)

end SimCampaign.Archive
