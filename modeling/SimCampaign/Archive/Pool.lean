import SimCampaign.Archive.Execution

/-! The pool of workers that execute the missing runs. All runs are with the first worker at the
beginning. What the schedule does not tell is done in the end, from the first run to the last. -/

namespace SimCampaign.Archive

/-- How far a run has come. It is kept once there is nothing left to do. -/
inductive Stage where
  | waiting
  | taken
  | running (rest : List Step)
  | failed (cause : Error)

namespace Stage

def ofOutcome : Except Error (List Step) → Stage
  | .ok rest => .running rest
  | .error e => .failed e

def isWaiting : Stage → Bool
  | .waiting => true
  | _ => false

def failure? : Stage → Option Error
  | .failed e => some e
  | _ => none

/-- Whether there is something to do. No run is begun once another one has failed. -/
def isOpen (stopped : Bool) : Stage → Bool
  | .waiting => !stopped
  | .taken => true
  | .running rest => !rest.isEmpty
  | .failed _ => false

end Stage

structure Task where
  run : PendingRun
  stage : Stage := .waiting

section Steps
variable (a : Archive) (tools : Tools)

def Task.advance (task : Task) (w : World) : Task × World :=
  match task.stage with
  | .waiting => ({ task with stage := .taken }, w)
  | .taken =>
    let (x, w) := (a.launch tools task.run).outcome w
    ({ task with stage := .ofOutcome x }, w)
  | .running (s :: rest) =>
    let (x, w) := (a.perform task.run s).outcome w
    ({ task with stage := .ofOutcome (x.map fun _ => rest) }, w)
  | .running [] | .failed _ => (task, w)

def Task.finish (task : Task) (w : World) : Task × World :=
  match task.stage with
  | .waiting | .taken =>
    let (x, w) := (a.execute tools task.run).outcome w
    ({ task with stage := .ofOutcome (x.map fun _ => []) }, w)
  | .running rest =>
    let (x, w) := (rest.forM (a.perform task.run)).outcome w
    ({ task with stage := .ofOutcome (x.map fun _ => []) }, w)
  | .failed _ => (task, w)

/-- The next step of the first run that is chosen, by its number and how far it has come. -/
def advanceFirst (chosen : Nat → Task → Bool) : Nat → List Task → World → List Task × World
  | _, [], w => ([], w)
  | i, task :: tasks, w =>
    if chosen i task then
      let (task, w) := task.advance a tools w
      (task :: tasks, w)
    else
      let (tasks, w) := advanceFirst chosen (i + 1) tasks w
      (task :: tasks, w)

/-- Finishes the runs from the first to the last. Those that wait stay if one has failed. -/
def drain (stopped : Bool) : List Task → World → List Task × World
  | [], w => ([], w)
  | task :: tasks, w =>
    if stopped && task.stage.isWaiting then
      let (tasks, w) := drain stopped tasks w
      (task :: tasks, w)
    else
      let (task, w) := task.finish a tools w
      let (tasks, w) := drain (stopped || task.stage.failure?.isSome) tasks w
      (task :: tasks, w)

end Steps

def hasFailed (tasks : List Task) : Bool := tasks.any fun task => task.stage.failure?.isSome

structure Pool where
  tasks : List Task
  /-- The worker that a run is with, by its number. -/
  owner : Nat → Nat := fun _ => 0
  world : World

namespace Pool
variable (a : Archive) (tools : Tools) (workers : Nat) (p : Pool) (t : Turn)

def isOwn (worker i : Nat) (task : Task) : Bool :=
  p.owner i == worker && task.stage.isOpen (hasFailed p.tasks)

def stealer (i : Nat) : Nat :=
  let waits := (p.tasks[i]?.map fun task => task.stage.isWaiting).getD false
  if waits ∧ p.owner i = t.victim % workers ∧ t.first ≤ i then t.worker % workers else p.owner i

/-- A worker goes on with the first of its own runs, or steals. -/
def turn : Pool :=
  let own := p.isOwn (t.worker % workers)
  if p.tasks.zipIdx.any fun (task, i) => own i task then
    let (tasks, world) := advanceFirst a tools own 0 p.tasks p.world
    { p with tasks, world }
  else { p with owner := p.stealer workers t }

end Pool

section Calls
variable (a : Archive) (tools : Tools)

def workers : Nat := if a.maxParallel = 0 then max 1 tools.cores else a.maxParallel

/-- How far the runs have come in the end, and the world then. -/
def runTasks (rs : List PendingRun) (w : World) : List Task × World :=
  let start : Pool := { tasks := rs.map fun run => { run }, world := w }
  let p := (tools.schedule w.clock).foldl (Pool.turn a tools (a.workers tools)) start
  drain a tools (hasFailed p.tasks) p.tasks p.world

/-- The failure of the first run in the list that has failed. -/
def result (tasks : List Task) : Except Error Unit :=
  match tasks.findSome? fun task => task.stage.failure? with
  | some e => .error e
  | none => .ok ()

def runPool (rs : List PendingRun) : Session Error Unit := do
  if !tools.spawns (← Session.moment) (a.workers tools) then throw .pool
  let (tasks, w) := a.runTasks tools rs (← get)
  set w
  Session.ofExcept (result tasks)

/-- Simulates every repetition of every assignment that is not done. Once one has failed, no other
is begun. -/
def runMissing (space : Param.Space) (runs : Nat) : Session Error Unit := do
  let missing := a.missingRuns (← Session.files) space runs
  Session.log (.info (toString missing.length ++ " of " ++
    toString (space.size * UInt64.ofNat runs) ++ " runs missing"))
  if missing ≠ [] then
    a.runPool tools missing
    Session.log (.info ("Finished " ++ toString missing.length ++ " runs"))

end Calls
end SimCampaign.Archive
