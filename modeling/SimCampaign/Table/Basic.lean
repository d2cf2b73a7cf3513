import SimCampaign.Text.Quoted

/-! Tables of named columns, each of text or of numbers, and the selection of rows. -/

namespace SimCampaign

inductive Column where
  | text (values : List String)
  | numeric (values : List Float)
  deriving Inhabited

namespace Column

def length : Column → Nat
  | .text vs => vs.length
  | .numeric vs => vs.length

def isNumeric : Column → Bool
  | .text _ => false
  | .numeric _ => true

/-- The values at the positions where the mask is true. -/
def keep (mask : List Bool) (vs : List α) : List α :=
  ((vs.zip mask).filter (·.2)).map (·.1)

def filter (mask : List Bool) : Column → Column
  | .text vs => .text (keep mask vs)
  | .numeric vs => .numeric (keep mask vs)

end Column

/-- What makes a text no table, or a table not the one a reader of it needs. -/
inductive TableError where
  | missingColumn (name : String)
  | notNumericColumn (name : String)
  | notTextColumn (name : String)
  | notNumeric (column : String) (row : Nat) (value : String)
  | raggedRow (row expected got : Nat)
  | unreadable
  deriving DecidableEq, Repr

def TableError.message : TableError → String
  | .missingColumn name => "missing column `" ++ name ++ "`"
  | .notNumericColumn name => "column `" ++ name ++ "` is not numeric"
  | .notTextColumn name => "column `" ++ name ++ "` is not a text column"
  | .notNumeric column row value =>
    "non-numeric value " ++ Text.quoted value ++ " in column `" ++ column ++ "` (data row " ++
      toString row ++ ")"
  | .raggedRow row expected got =>
    "data row " ++ toString row ++ " has " ++ toString got ++ " fields, expected " ++
      toString expected
  | .unreadable => "failed to read delimited text"

structure Table where
  columns : List (String × Column)
  rows : Nat
  deriving Inhabited

namespace Table

def names (t : Table) : List String := t.columns.map Prod.fst

def isEmpty (t : Table) : Bool := t.rows == 0

def column (t : Table) (name : String) : Except TableError Column :=
  match t.columns.lookup name with
  | some c => .ok c
  | none => .error (.missingColumn name)

def numeric (t : Table) (name : String) : Except TableError (List Float) := do
  match ← t.column name with
  | .numeric vs => .ok vs
  | .text _ => .error (.notNumericColumn name)

def text (t : Table) (name : String) : Except TableError (List String) := do
  match ← t.column name with
  | .text vs => .ok vs
  | .numeric _ => .error (.notTextColumn name)

/-- Keeps the rows where the mask is true, in every column. -/
def keepRows (t : Table) (mask : List Bool) : Table :=
  { columns := t.columns.map fun (name, c) => (name, c.filter mask)
    rows := mask.count true }

/-- Keeps rows by a mask that has one entry a row. -/
def filterRows? (t : Table) (mask : List Bool) : Option Table :=
  if mask.length = t.rows then some (t.keepRows mask) else none

/-- Keeps the rows whose value in a numeric column satisfies `p`. -/
def filterBy (t : Table) (name : String) (p : Float → Bool) : Except TableError Table := do
  let vs ← t.numeric name
  .ok (t.keepRows (vs.map p))

end Table
end SimCampaign
