/-! Log messages, as values. -/

namespace SimCampaign

inductive Level where
  | info
  | warn
  deriving DecidableEq, Repr

def Level.name : Level → String
  | .info => "info"
  | .warn => "warn"

structure Message where
  level : Level
  text : String
  deriving DecidableEq, Repr

namespace Message

def info (text : String) : Message := ⟨.info, text⟩

def warn (text : String) : Message := ⟨.warn, text⟩

end Message
end SimCampaign
