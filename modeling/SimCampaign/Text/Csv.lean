/-! Comma separated text. A field that holds a quote, a comma or a character that may end a line is
quoted; lines end with a line feed. -/

namespace SimCampaign.Text.Csv

def needsQuotes (c : Char) : Bool := c == '"' || c == ',' || c == '\n' || c == '\r'

/-- A quote inside quotes is written twice. -/
def doubled (cs : List Char) : List Char := cs.flatMap fun c => if c = '"' then ['"', '"'] else [c]

def field (s : String) : List Char :=
  if s.toList.any needsQuotes then '"' :: doubled s.toList ++ ['"'] else s.toList

def record (fields : List String) : List Char := List.intercalate [','] (fields.map field) ++ ['\n']

def render (records : List (List String)) : String := String.ofList (records.flatMap record)

end SimCampaign.Text.Csv
