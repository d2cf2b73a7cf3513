import SimCampaign.Archive.RunId
import SimCampaign.Log
import SimCampaign.Storage.FileTree

/-! What changes while commands run: the files, the log, and which simulations were started and
kept. -/

namespace SimCampaign

/-- A simulation that was started, and when. -/
structure Start where
  run : Archive.PendingRun
  moment : Nat

structure World where
  files : FileTree
  /-- What befalls the operations on the files, by the moment. -/
  disk : Nat → Option Fault := fun _ => none
  /-- How many operations on the files and calls of the build tool there were. -/
  clock : Nat := 0
  log : List Message := []
  started : List Start := []
  /-- The runs whose record was written, in order. -/
  finished : List Archive.PendingRun := []

instance : Inhabited World := ⟨{ files := .empty }⟩

/-- Steps that change the world. What was changed before a failure stays. -/
abbrev Session (ε : Type) := ExceptT ε (StateM World)

namespace Session
variable {ε α : Type}

/-- What steps that start from a world yield, and the world they leave. -/
def outcome (s : Session ε α) (w : World) : Except ε α × World := s.run.run w

def files : Session ε FileTree := do return (← get).files

def moment : Session ε Nat := do return (← get).clock

def change (f : FileTree → FileTree) : Session ε Unit :=
  modify fun w => { w with files := f w.files }

def ofExcept (x : Except ε α) : Session ε α := ExceptT.mk (pure x)

/-- Changes the files as far as the disk lets it. -/
def operate (c : Change) : Session IoError Unit := do
  let w ← get
  let (x, files) := c (w.disk w.clock) w.files
  set { w with files, clock := w.clock + 1 }
  ofExcept x

def log (m : Message) : Session ε Unit := modify fun w => { w with log := w.log ++ [m] }

def logAll (ms : List Message) : Session ε Unit := modify fun w => { w with log := w.log ++ ms }

def start (s : Start) : Session ε Unit := modify fun w => { w with started := w.started ++ [s] }

def finish (r : Archive.PendingRun) : Session ε Unit :=
  modify fun w => { w with finished := w.finished ++ [r] }

def mapError {ε' : Type} (f : ε → ε') (s : Session ε α) : Session ε' α :=
  ExceptT.mk (Except.mapError f <$> s.run)

end Session
end SimCampaign
