import SimCampaign.Decimal.Layout
import SimCampaign.Trace.Packets

/-! Traces of scheduled access periods. -/

namespace SimCampaign.Schedule

def artifact : String := "spTrace.csv"

/-- The entity of a number that is neither negative nor has a fraction, the largest one if it is
beyond 64 bits. -/
def entity? (x : Float) : Option Entity :=
  if x < 0.0 || Binary64.fraction x != 0.0 then none else some ⟨x.toUInt64.toNat⟩

def entityAt (x : Float) (row : Nat) : Except TableError Entity :=
  match entity? x with
  | some e => .ok e
  | none => .error (.notNumeric PacketTrace.sourceColumn row (Decimal.plain x))

/-- Inserts into an ascending list without repetition. -/
def insert (e : Entity) : List Entity → List Entity
  | [] => [e]
  | d :: ds =>
    if e.id < d.id then e :: d :: ds
    else if e.id = d.id then d :: ds
    else d :: insert e ds

def isStation (e : Entity) : Bool := e != Entity.accessPoint && e != Entity.contention

/-- Whether a row is not one of the access point or of a contention period. Faults are kept. -/
def isKept : Except TableError Entity → Bool
  | .ok e => isStation e
  | .error _ => true

/-- The stations that were granted a period, in ascending order. -/
def stations (text : String) : Except TableError (List Entity) := do
  let t ← Table.parse {} text
  if t.isEmpty then .ok []
  else
    let ids ← t.numeric PacketTrace.sourceColumn
    let rows := ids.zipIdx.map fun (x, row) => entityAt x row
    let entities ← (rows.filter isKept).mapM fun r => r
    .ok (entities.foldr insert [])

end SimCampaign.Schedule
