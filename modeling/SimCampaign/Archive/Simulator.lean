import SimCampaign.Storage.FileTree

/-! Simulators and build tools as functions: what a program does depends on when it is started, and
with which arguments. -/

namespace SimCampaign

inductive ExitStatus where
  | exited (code : Nat)
  | killed
  deriving DecidableEq, Repr

namespace ExitStatus

def isSuccess (s : ExitStatus) : Bool := s == .exited 0

def display : ExitStatus → String
  | .exited code => "exit status: " ++ toString code
  | .killed => "signal: 9 (SIGKILL)"

end ExitStatus

/-- What a program does in its working folder. -/
inductive Effect where
  | write (place : Location) (data : ByteArray)
  | folder (place : Location)

namespace Effect

/-- Where it is done, seen from the working folder. -/
def place : Effect → Location
  | .write p _ => p
  | .folder p => p

def apply (folder : Location) (t : FileTree) : Effect → FileTree
  | .write p data => t.write (folder ++ p) (.bytes data)
  | .folder p => t.addFolder (folder ++ p)

end Effect

/-- All that is seen of one execution of a program. -/
structure Execution where
  effects : List Effect
  output : ByteArray
  errors : ByteArray
  status : ExitStatus

structure Simulator where
  /-- The execution that starts at a moment, with given arguments and library folder, unless the
  program cannot be started. -/
  run : (moment : Nat) → (arguments : List String) → (libraries : ByteArray) →
    Except IoError Execution

/-- A build tool changes files or fails. -/
structure BuildTool where
  run : (moment : Nat) → (folder : ByteArray) → (arguments : List String) → FileTree →
    FileTree × Bool

end SimCampaign
