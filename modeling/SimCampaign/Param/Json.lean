import SimCampaign.Json.Reader
import SimCampaign.Json.Writer
import SimCampaign.Param.Space

/-! Parameter values, spaces and assignments as JSON. A space and an assignment are objects whose
fields keep their order; a space refuses a name that is there before, an assignment takes the last
value. -/

namespace SimCampaign.Param

/-- Why a text is not read: it is no JSON, or JSON of another shape, or declares what a space
refuses. -/
inductive ReadError where
  | malformed
  | unexpected
  | rejected (cause : Error)
  deriving DecidableEq, Repr

def Value.toJson : Value → Json
  | .bool b => .bool b
  | .int n => .integer n.toInt
  | .float x => .float x
  | .text s => .string s

/-- An integer beyond 64 signed bits is read as a double. -/
def Value.ofJson? : Json → Option Value
  | .bool b => some (.bool b)
  | .integer n =>
    if Int64.minValue.toInt ≤ n ∧ n ≤ Int64.maxValue.toInt then some (.int (Int64.ofInt n))
    else some (.float (Float.ofInt n))
  | .float x => some (.float x)
  | .string s => some (.text s)
  | _ => none

def Entry.toJson : Entry → Json
  | .list vs => .array (vs.map Value.toJson)
  | .single v => v.toJson

def Entry.ofJson? : Json → Option Entry
  | .array items => (items.mapM Value.ofJson?).map .list
  | j => (Value.ofJson? j).map .single

def Value.read (text : String) : Except ReadError Value :=
  match Json.prefixValue? text.toList with
  | none => .error .malformed
  | some (j, rest) =>
    match Value.ofJson? j with
    | none => .error .unexpected
    | some v => if Json.skipSpace rest = [] then .ok v else .error .malformed

/-- Reads the fields one after another; the first problem from the front counts. -/
def readFields {σ : Type} (step : σ → String → Json → Except ReadError σ) (start : σ)
    (text : String) : Except ReadError σ :=
  match Json.outline text with
  | .malformed => .error .malformed
  | .other => .error .unexpected
  | .object fs => do
    let s ← fs.fields.foldlM (fun s p => step s p.1 p.2) start
    if fs.complete then .ok s else .error .malformed

namespace Space

def readField (s : Space) (name : String) (j : Json) : Except ReadError Space :=
  match Entry.ofJson? j with
  | none => .error .unexpected
  | some e =>
    match s.push name e with
    | .ok s => .ok s
    | .error cause => .error (.rejected cause)

def read (text : String) : Except ReadError Space := readFields readField Record.empty text

def toJson (s : Space) : Json := .object (s.pairs.map fun (name, e) => (name, e.toJson))

end Space

namespace Assignment

def readField (a : Assignment) (name : String) (j : Json) : Except ReadError Assignment :=
  match Value.ofJson? j with
  | none => .error .unexpected
  | some v => .ok (a.put name v)

def read (text : String) : Except ReadError Assignment := readFields readField Record.empty text

def toJson (a : Assignment) : Json := .object (a.pairs.map fun (name, v) => (name, v.toJson))

/-- The assignment of an object among other JSON. -/
def ofJson? : Json → Option Assignment
  | .object fields => do
    let pairs ← fields.mapM fun (name, j) => (Value.ofJson? j).map (name, ·)
    some (Record.ofPairs pairs)
  | _ => none

end Assignment
end SimCampaign.Param
