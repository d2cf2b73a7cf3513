import SimCampaign.Param.Value

/-! What can be wrong with the parameters of a space or an assignment. -/

namespace SimCampaign.Param

inductive Error where
  | duplicate (name : String)
  | unknown (name : String)
  | missing (name : String)
  | wrongKind (name : String) (expected got : Kind)
  | negative (name : String) (value : Int64)
  deriving DecidableEq, Repr

def Error.message : Error → String
  | .duplicate name => "duplicate parameter `" ++ name ++ "`"
  | .unknown name => "unknown parameter `" ++ name ++ "`"
  | .missing name => "missing parameter `" ++ name ++ "`"
  | .wrongKind name expected got =>
    "parameter `" ++ name ++ "` should be of type " ++ expected.name ++ ", got " ++ got.name
  | .negative name value =>
    "parameter `" ++ name ++ "` must be non-negative, got " ++ toString value.toInt

end SimCampaign.Param
