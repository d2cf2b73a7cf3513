/-! JSON values. Objects keep the order of their fields, and repeated names. -/

namespace SimCampaign

/-- Integers that fit 64 bits, signed or not, are kept apart from all other numbers. -/
inductive Json where
  | null
  | bool (b : Bool)
  | integer (n : Int)
  | float (x : Float)
  | string (s : String)
  | array (items : List Json)
  | object (fields : List (String × Json))
  deriving Inhabited

end SimCampaign
