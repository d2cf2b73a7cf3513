/-! Paths of files: texts whose parts are separated by slashes, and the folders that they lead
through. -/

namespace SimCampaign

/-- The names from the working folder to a file or folder. A slash in front stands for the root, and
each pair of points in front for one folder further up. -/
abbrev Location := List String

namespace Path

/-- Appends a path; an absolute one replaces what is before it. -/
def join (a b : String) : String :=
  if b.startsWith "/" then b
  else if a = "" ∨ a.toList.getLast? = some '/' then a ++ b
  else a ++ "/" ++ b

def joinAll (a : String) (parts : List String) : String := parts.foldl join a

def joinBytes (a : ByteArray) (name : String) : ByteArray :=
  let slash := if a.isEmpty || a.toList.getLast? == some 47 then "" else "/"
  a ++ (slash ++ name).toUTF8

def pieces (p : String) : List String := (p.toList.splitOnP (· == '/')).map String.ofList

def isAbsolute (p : String) : Bool := p.startsWith "/"

/-- The parts of a path. A point counts only at the front of a relative path. -/
def components (p : String) : List String :=
  let root := if isAbsolute p then ["/"] else []
  let rest := pieces p
  let front := if rest.head? = some "." then ["."] else []
  root ++ front ++ rest.filter fun c => c != "" && c != "."

def same (a b : String) : Bool := components a == components b

section Way

/-- Where one part of a path leads from a folder. Above the root is the root. -/
def step (q : Location) (c : String) : Location :=
  if c = "" ∨ c = "." then q
  else if c = ".." then
    if q = ["/"] then q else if q.all (· == "..") then q ++ [".."] else q.dropLast
  else q ++ [c]

def start (p : String) : Location := if isAbsolute p then ["/"] else []

def wayFrom (q : Location) : List String → List Location
  | [] => [q]
  | c :: cs => q :: wayFrom (step q c) cs

/-- The folders that a path leads through, one after another, and where it leads. -/
def way (p : String) : List Location := wayFrom (start p) (pieces p)

def resolve (p : String) : Location := (pieces p).foldl step (start p)

end Way

def fileName? (p : String) : Option String :=
  match (components p).getLast? with
  | some c => if c == "." || c == ".." || c == "/" then none else some c
  | none => none

/-- A name up to its last point and what follows it. A point at the front separates nothing. -/
def splitName (name : String) : String × Option String :=
  let after := (name.toList.reverse.takeWhile (· != '.')).reverse
  let before := name.toList.take (name.length - after.length - 1)
  if after.length = name.length ∨ before = [] then (name, none)
  else (String.ofList before, some (String.ofList after))

def stem? (p : String) : Option String := (fileName? p).map fun n => (splitName n).1

def extension? (p : String) : Option String := (fileName? p).bind fun n => (splitName n).2

end Path
end SimCampaign
