import SimCampaign.Decimal.Reader
import SimCampaign.Text.Blank

/-! Points in time as text: date, time of day and offset, as in `2020-01-31T12:00:00Z`. Numbers may
be shorter than usual and have blanks in front. -/

namespace SimCampaign.Timestamp

def isLeap (year : Int) : Bool := (year % 4 == 0 && year % 100 != 0) || year % 400 == 0

def monthLength (year : Int) (month : Nat) : Nat :=
  match month with
  | 2 => if isLeap year then 29 else 28
  | 4 | 6 | 9 | 11 => 30
  | _ => 31

/-- The years that have a calendar. -/
def hasYear (year : Int) : Bool := -262143 ≤ year && year ≤ 262142

/-- A number of one to `most` digits, and what follows it. -/
def digits? (most : Nat) (cs : List Char) : Option (Nat × List Char) :=
  let ds := (cs.take most).takeWhile Char.isDigit
  if ds = [] then none else some (Decimal.natOfDigits ds, cs.drop ds.length)

/-- A number of one or two digits after blanks. -/
def number? (cs : List Char) : Option (Nat × List Char) := digits? 2 (Text.trimStart cs)

/-- A year has four digits at most, or a sign and any number of digits. -/
def year? (cs : List Char) : Option (Int × List Char) :=
  match Text.trimStart cs with
  | '-' :: cs => (digits? cs.length cs).map fun (n, rest) => (-(n : Int), rest)
  | '+' :: cs => (digits? cs.length cs).map fun (n, rest) => ((n : Int), rest)
  | cs => (digits? 4 cs).map fun (n, rest) => ((n : Int), rest)

/-- A mark after blanks. -/
def mark? (c : Char) (cs : List Char) : Option (List Char) :=
  match Text.trimStart cs with
  | d :: cs => if c = d then some cs else none
  | [] => none

def date? (cs : List Char) : Option (List Char) := do
  let (year, cs) ← year? cs
  let (month, cs) ← number? (← mark? '-' cs)
  let (day, cs) ← number? (← mark? '-' cs)
  if hasYear year ∧ 1 ≤ month ∧ month ≤ 12 ∧ 1 ≤ day ∧ day ≤ monthLength year month then some cs
  else none

/-- Decimal places of a second, if there are any. -/
def places? : List Char → Option (List Char)
  | '.' :: cs =>
    let (places, rest) := Decimal.spanDigits cs
    if places = [] then none else some rest
  | cs => some cs

def timeOfDay? (cs : List Char) : Option (List Char) := do
  let (hour, cs) ← number? cs
  let (minute, cs) ← number? (← mark? ':' cs)
  let (second, cs) ← number? (← mark? ':' cs)
  -- The last second is a leap second.
  if hour < 24 ∧ minute < 60 ∧ second ≤ 60 then places? cs else none

def twoDigits? : List Char → Option (Nat × List Char)
  | a :: b :: cs => if a.isDigit ∧ b.isDigit then some (Decimal.natOfDigits [a, b], cs) else none
  | _ => none

def isSign (c : Char) : Bool := c == '+' || c == '-' || c == '−'

/-- Colons and blanks stand between the hours and the minutes of an offset, or nothing. -/
def isBetween (c : Char) : Bool := c == ':' || Text.isBlank c

/-- Universal time by one of its names, or hours and minutes apart from it. -/
def offset? : List Char → Option (List Char)
  | 'Z' :: cs | 'z' :: cs => some cs
  | u :: t :: c :: cs =>
    if [u, t, c].map Char.toLower = ['u', 't', 'c'] then some cs
    else if isSign u then do
      let (hour, cs) ← twoDigits? (t :: c :: cs)
      let (minute, cs) ← twoDigits? (cs.dropWhile isBetween)
      if hour < 24 ∧ minute < 60 then some cs else none
    else none
  | _ => none

def separator? : List Char → Option (List Char)
  | 'T' :: cs | 't' :: cs | ' ' :: cs => some cs
  | _ => none

/-- Blanks may follow a point in time. -/
def isValid (s : String) : Bool :=
  let rest? := do offset? (Text.trimStart (← timeOfDay? (← separator? (← date? s.toList))))
  rest?.map Text.trimStart == some []

section Writing

/-- A day of the calendar as year, month and day. -/
def civil (daysSince1970 : Nat) : Nat × Nat × Nat :=
  -- Years are counted from March, so that a leap day is the last of its year. Four hundred of them
  -- have 146097 days.
  let days := daysSince1970 + 719468
  let cycle := days / 146097
  let day := days % 146097
  let year := (day - day / 1460 + day / 36524 - day / 146096) / 365
  let dayOfYear := day - (365 * year + year / 4 - year / 100)
  let month := (5 * dayOfYear + 2) / 153
  let dayOfMonth := dayOfYear - (153 * month + 2) / 5 + 1
  let monthOfYear := if month < 10 then month + 3 else month - 9
  (400 * cycle + year + (if monthOfYear ≤ 2 then 1 else 0), monthOfYear, dayOfMonth)

/-- The digits of a number after as many zeros as the width needs. -/
def padded (width n : Nat) : List Char :=
  let ds := Nat.toDigits 10 n
  List.replicate (width - ds.length) '0' ++ ds

def ofSeconds (sinceEpoch : Nat) : String :=
  let (year, month, day) := civil (sinceEpoch / 86400)
  let time := sinceEpoch % 86400
  String.ofList (padded 4 year ++ '-' :: padded 2 month ++ '-' :: padded 2 day ++
    'T' :: padded 2 (time / 3600) ++ ':' :: padded 2 (time / 60 % 60) ++
    ':' :: padded 2 (time % 60) ++ ['Z'])

end Writing
end SimCampaign.Timestamp
