import SimCampaign.Storage.FileTree

/-! How an archive of runs fails. -/

namespace SimCampaign.Archive

inductive Error where
  | mismatch (directory script : String)
  | unknownProfile (name : String)
  | buildFailed
  | pool
  | malformed
  /-- A path that is not text cannot be recorded. -/
  | unrecordable
  | io (cause : IoError)
  deriving DecidableEq, Repr

namespace Error

def message : Error → String
  | .mismatch directory script => directory ++ " holds a campaign for script `" ++ script ++ "`"
  | .unknownProfile name => "unknown build profile `" ++ name ++ "`"
  | .buildFailed => "failed to build ns-3"
  | .pool => "failed to create worker pool"
  | .malformed | .unrecordable => "malformed campaign metadata"
  | .io cause => cause.message

/-- What stands behind the message, outermost first. -/
def causes : Error → List String
  | .buildFailed => ["the build tool failed"]
  | .pool => ["the operating system refused a thread"]
  | .malformed => ["unexpected JSON in the text that starts at line 1"]
  | .unrecordable => ["path contains invalid UTF-8 characters"]
  | _ => []

end Error

inductive Profile where
  | debug
  | release
  | optimized
  deriving DecidableEq, Repr

namespace Profile

def name : Profile → String
  | .debug => "debug"
  | .release => "release"
  | .optimized => "optimized"

def ofName (s : String) : Except Error Profile :=
  match s with
  | "debug" => .ok .debug
  | "release" => .ok .release
  | "optimized" => .ok .optimized
  | _ => .error (.unknownProfile s)

end Profile
end SimCampaign.Archive
