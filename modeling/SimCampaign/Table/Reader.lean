import SimCampaign.Decimal.Reader
import SimCampaign.Table.Basic
import SimCampaign.Text.Blank
import SimCampaign.Text.Utf8

/-! Delimited text as a table. Rows end at one separator byte and fields at another; nothing is
quoted. A table needs more than one data row, so that a header or a stray line is never data. -/

namespace SimCampaign.Table

/-- The columns to read as numbers. -/
inductive Selection where
  | all
  | named (names : List String)
  deriving DecidableEq, Repr

def Selection.contains : Selection → String → Bool
  | .all, _ => true
  | .named names, name => names.contains name

structure Format where
  columnSep : UInt8 := 44
  rowSep : UInt8 := 10
  /-- Without explicit names the first row is the header. -/
  header? : Option (List String) := none
  numeric : Selection := .all
  deriving Repr

/-- Separators below 128 are characters; others are bytes within characters. -/
def Format.isAscii (f : Format) : Bool := f.columnSep < 128 && f.rowSep < 128

def isSep (sep : UInt8) (c : Char) : Bool := c.toNat == sep.toNat

/-- The records of a text: the pieces between row separators that are not empty, cut at column
separators. -/
def records (isRow isColumn : α → Bool) (xs : List α) : List (List (List α)) :=
  ((xs.splitOnP isRow).filter fun row => !row.isEmpty).map fun row => row.splitOnP isColumn

def byteOrderMark : Char := Char.ofNat 0xfeff

def dropMark : List Char → List Char
  | c :: cs => if c = byteOrderMark then cs else c :: cs
  | [] => []

def dropMarkBytes : List UInt8 → List UInt8
  | 0xef :: 0xbb :: 0xbf :: bs => bs
  | bs => bs

def emptyColumn (numeric : Bool) : Column := if numeric then .numeric [] else .text []

def empty (names : List String) (numeric : Selection) : Table :=
  { columns := names.map fun name => (name, emptyColumn (numeric.contains name)), rows := 0 }

def raggedRow? (expected : Nat) (rows : List (List String)) : Option TableError :=
  (rows.zipIdx.find? fun (row, _) => row.length ≠ expected).map fun (row, i) =>
    .raggedRow i expected row.length

/-- The least of the wanted names that is not there. -/
def missingColumn? (names : List String) : Selection → Option TableError
  | .all => none
  | .named wanted =>
    let missing := wanted.filter (!names.contains ·)
    (missing.mergeSort fun a b => decide (a ≤ b)).head?.map .missingColumn

/-- Reads numbers, blanks around them dropped. -/
def numbers (column : String) (values : List (String × Nat)) : Except TableError (List Float) :=
  values.mapM fun (value, row) =>
    match Decimal.float? (Text.trim value.toList) with
    | some x => .ok x
    | none => .error (.notNumeric column row value)

def readColumn (numeric : Selection) (rows : List (List String)) (name : String) (j : Nat) :
    Except TableError Column :=
  let values := rows.map fun row => row.getD j ""
  if numeric.contains name then (numbers name values.zipIdx).map .numeric else .ok (.text values)

def ofRows (names : List String) (numeric : Selection) (rows : List (List String)) :
    Except TableError Table :=
  if rows.length ≤ 1 then .ok (empty names numeric)
  else
    match raggedRow? names.length rows, missingColumn? names numeric with
    | some e, _ => .error e
    | none, some e => .error e
    | none, none => do
      let columns ← names.zipIdx.mapM fun (name, j) => do
        .ok (name, ← readColumn numeric rows name j)
      .ok { columns, rows := rows.length }

/-- Splits off the header unless the names are given. -/
def ofRecords (f : Format) (records : List (List String)) : Except TableError Table :=
  match f.header?, records with
  | some names, rows => ofRows names f.numeric rows
  | none, header :: rows => ofRows header f.numeric rows
  | none, [] => ofRows [] f.numeric []

/-- The records between separators that are characters. -/
def textRecords (f : Format) (cs : List Char) : List (List String) :=
  (records (isSep f.rowSep) (isSep f.columnSep) (dropMark cs)).map (·.map String.ofList)

/-- The records between separators that are bytes. A piece of a character is no text. -/
def byteRecords? (f : Format) (bs : List UInt8) : Option (List (List String)) :=
  (records (· == f.rowSep) (· == f.columnSep) (dropMarkBytes bs)).mapM fun row =>
    row.mapM fun field => Text.decode? ⟨field.toArray⟩

def parseText (f : Format) (cs : List Char) : Except TableError Table :=
  -- A text of nothing but row separators is an empty table.
  match Text.dropEndWhile (isSep f.rowSep) cs with
  | [] => .ok (empty (f.header?.getD []) f.numeric)
  | cs => ofRecords f (textRecords f cs)

def parseBytes (f : Format) (bs : List UInt8) : Except TableError Table :=
  match Text.dropEndWhile (· == f.rowSep) bs with
  | [] => .ok (empty (f.header?.getD []) f.numeric)
  | bs =>
    match byteRecords? f bs with
    | some records => ofRecords f records
    | none => .error .unreadable

def parse (f : Format) (text : String) : Except TableError Table :=
  if f.isAscii then parseText f text.toList else parseBytes f (Text.encode text).toList

end SimCampaign.Table
