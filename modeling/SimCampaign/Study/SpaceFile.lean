import SimCampaign.Param.Json
import SimCampaign.Storage.FileTree

/-! Parameter spaces kept in files. -/

namespace SimCampaign

/-- The text that stands behind a failure to read JSON. -/
def Param.ReadError.message : Param.ReadError → String
  | .malformed => "malformed JSON in the text that starts at line 1"
  | .unexpected => "unexpected JSON in the text that starts at line 1"
  | .rejected cause => cause.message ++ " in the text that starts at line 1"

namespace SpaceFile

inductive Error where
  | unknownType (path : String)
  | empty (path : String)
  | json (cause : Param.ReadError)
  | io (cause : IoError)
  deriving DecidableEq, Repr

namespace Error

def message : Error → String
  | .unknownType path => "unknown file type: " ++ path
  | .empty path => "no parameters in " ++ path
  | .json _ => "JSON error"
  | .io _ => "IO error"

def causes : Error → List String
  | .json cause => [cause.message]
  | .io cause => [cause.message]
  | _ => []

end Error

/-- Reads a space with at least one parameter from a file whose name tells that it holds JSON. -/
def read (t : FileTree) (path : String) : Except Error Param.Space := do
  let text ← (t.readText path).mapError .io
  if Path.extension? path = some "json" then
    let space ← (Param.Space.read text).mapError .json
    if space.pairs = [] then .error (.empty path) else .ok space
  else .error (.unknownType path)

end SpaceFile
end SimCampaign
