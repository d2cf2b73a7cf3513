/-! Command lines as options: names with two dashes in front, each with or without a value. -/

namespace SimCampaign.CommandLine

/-- Why the reading of a command line stops early. -/
inductive Stop where
  | help
  | invalid
  deriving DecidableEq, Repr

/-- What an option does to the settings. A flag has no value; another option has one, which it may
refuse. -/
inductive Action (σ : Type) where
  | flag (set : σ → σ)
  | value (set? : String → σ → Option σ)

abbrev Options (σ : Type) := List (String × Action σ)

def Action.text (set : String → σ → σ) : Action σ := .value fun text s => some (set text s)

def Action.read (read? : List Char → Option α) (set : α → σ → σ) : Action σ :=
  .value fun text s => (read? text.toList).map (set · s)

def Action.path (set : String → σ → σ) : Action σ :=
  .value fun text s => if text = "" then none else some (set text s)

/-- An argument as its first characters tell. One dash alone is an operand. -/
inductive Argument where
  | long (name : String) (value? : Option String)
  | short (letter : Char)
  | terminator
  | operand
  deriving DecidableEq, Repr

/-- Splits at the first equals sign. -/
def splitValue (cs : List Char) : String × Option String :=
  match cs.dropWhile (· != '=') with
  | [] => (String.ofList cs, none)
  | _ :: value => (String.ofList (cs.takeWhile (· != '=')), some (String.ofList value))

def Argument.ofChars : List Char → Argument
  | ['-', '-'] => .terminator
  | '-' :: '-' :: cs =>
    let (name, value?) := splitValue cs
    .long name value?
  | '-' :: letter :: _ => .short letter
  | _ => .operand

def Argument.ofText (s : String) : Argument := ofChars s.toList

def isOperand (s : String) : Bool := Argument.ofText s = .operand

/-- The settings, and the options that were given. An option is given at most once. -/
structure Given (σ : Type) where
  settings : σ
  names : List String := []

namespace Given
variable {σ : Type}

def flag (g : Given σ) (name : String) (set : σ → σ) : Option (Given σ) :=
  if name ∈ g.names then none else some ⟨set g.settings, name :: g.names⟩

def value (g : Given σ) (name : String) (set? : String → σ → Option σ) (text : String) :
    Option (Given σ) :=
  if name ∈ g.names then none else (set? text g.settings).map (⟨·, name :: g.names⟩)

end Given

/-- Settings up to the first operand, and the arguments from there. The value of the last option
before an operand may be one that the option refuses; then there are no settings. -/
structure Scan (σ : Type) where
  settings? : Option σ
  rest : List String

def orInvalid : Option α → Except Stop α
  | some a => .ok a
  | none => .error .invalid

/-- Reads options up to the first operand. Nothing may follow a terminator. A refused value is told
at the next argument unless that is an operand. -/
def scan (options : Options σ) (g : Given σ) : List String → Except Stop (Scan σ)
  | [] => .ok ⟨some g.settings, []⟩
  | arg :: rest =>
    match Argument.ofText arg with
    | .operand => .ok ⟨some g.settings, arg :: rest⟩
    | .terminator => if rest = [] then .ok ⟨some g.settings, []⟩ else .error .invalid
    | .short letter => .error (if letter = 'h' then .help else .invalid)
    | .long name value? =>
      match options.lookup name, value? with
      | none, none => .error (if name = "help" then .help else .invalid)
      | none, some _ => .error .invalid
      | some (.flag set), none => do scan options (← orInvalid (g.flag name set)) rest
      | some (.flag _), some _ => .error .invalid
      | some (.value set?), some text => do scan options (← orInvalid (g.value name set? text)) rest
      | some (.value set?), none =>
        match rest with
        | [] => .error .invalid
        | text :: rest =>
          if !isOperand text then .error .invalid
          else match g.value name set? text with
            | some g => scan options g rest
            | none =>
              if (rest.head?.map isOperand).getD false then .ok ⟨none, rest⟩ else .error .invalid

/-- Settings of a command line without operands. -/
def scanAll (options : Options σ) (start : σ) (args : List String) : Except Stop σ := do
  let s ← scan options ⟨start, []⟩ args
  if s.rest = [] then orInvalid s.settings? else .error .invalid

end SimCampaign.CommandLine
