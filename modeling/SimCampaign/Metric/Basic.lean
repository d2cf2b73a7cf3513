import SimCampaign.Entity
import SimCampaign.Run
import SimCampaign.Table.Basic

/-! Metrics: what they reduce a run to, and how they fail. -/

namespace SimCampaign.Metric

/-- One number, or one for each entity. -/
inductive Value where
  | scalar (x : Float)
  | vector (xs : List Float)
  deriving Inhabited

namespace Value

def toList : Value → List Float
  | .scalar x => [x]
  | .vector xs => xs

def length? : Value → Option Nat
  | .scalar _ => none
  | .vector xs => some xs.length

end Value

inductive Error where
  | table (cause : TableError)
  | param (cause : Param.Error)
  | missingArtifact (name : String)
  | unknownScheme (name : String)
  | badDataRate (text : String)
  | entityOutOfRange (e : Entity)
  deriving DecidableEq, Repr

def Error.message : Error → String
  | .table cause => cause.message
  | .param cause => cause.message
  | .missingArtifact name => "missing artifact `" ++ name ++ "`"
  | .unknownScheme name => "unknown MCS `" ++ name ++ "`"
  | .badDataRate text => "string `" ++ text ++ "` is not a valid data rate"
  | .entityOutOfRange e => "entity " ++ e.display ++ " is out of range"

def ofTable : Except TableError α → Except Error α := Except.mapError .table

def ofParam : Except Param.Error α → Except Error α := Except.mapError .param

/-- A metric of a run: its name, the labels of the numbers of a vector, the value, and the warnings
that come with a value. -/
structure Reducer where
  name : String
  labels : Nat → List String
  compute : Run → Except Error Value
  warnings : Run → List Message

end SimCampaign.Metric
