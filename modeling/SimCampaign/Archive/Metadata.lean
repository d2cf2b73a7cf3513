import SimCampaign.Archive.Timestamp
import SimCampaign.Json.Members
import SimCampaign.Param.Json

/-! The records that an archive keeps of itself and of each run, as JSON. -/

namespace SimCampaign.Archive

/-- Which simulator tree and script an archive belongs to. -/
structure Owner where
  tree : String
  script : String
  created : String
  deriving DecidableEq, Repr

namespace Owner

def toJson (o : Owner) : Json :=
  .object [("ns3_dir", .string o.tree), ("script", .string o.script),
    ("created", .string o.created)]

def memberNames : List String := ["ns3_dir", "script", "created"]

def ofJson? (j : Json) : Option Owner := do
  match ← j.members? memberNames with
  | [.string tree, .string script, .string created] =>
    if Timestamp.isValid created then some { tree, script, created } else none
  | _ => none

def read? (text : String) : Option Owner := (Json.parseMembers? memberNames text).bind ofJson?

end Owner

/-- Which run a folder holds, and when it was simulated and for how long. -/
structure RunRecord where
  id : String
  params : Param.Assignment
  repetition : Nat
  start : String
  seconds : Float

namespace RunRecord

def toJson (r : RunRecord) : Json :=
  .object [("id", .string r.id), ("params", r.params.toJson), ("repetition", .integer r.repetition),
    ("start", .string r.start), ("elapsed_secs", .float r.seconds)]

def memberNames : List String := ["id", "params", "repetition", "start", "elapsed_secs"]

def seconds? : Json → Option Float
  | .integer n => some (Float.ofInt n)
  | .float x => some x
  | _ => none

def ofJson? (j : Json) : Option RunRecord := do
  match ← j.members? memberNames with
  | [.string id, params, .integer (.ofNat repetition), .string start, seconds] =>
    let params ← Param.Assignment.ofJson? params
    let seconds ← seconds? seconds
    if Timestamp.isValid start then some { id, params, repetition, start, seconds } else none
  | _ => none

def read? (text : String) : Option RunRecord :=
  (Json.parseMembers? memberNames text).bind ofJson?

end RunRecord
end SimCampaign.Archive
