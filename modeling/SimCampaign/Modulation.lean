import SimCampaign.Quantity

/-! The modulation and coding schemes of directional multi-gigabit radios and their physical rates.
-/

namespace SimCampaign.Modulation

/-- From slowest to fastest. -/
def rates : List (String × DataRate) := [
  ("DMG_MCS0", ⟨27500000⟩), ("DMG_MCS1", ⟨385000000⟩), ("DMG_MCS2", ⟨770000000⟩),
  ("DMG_MCS3", ⟨962500000⟩), ("DMG_MCS4", ⟨1155000000⟩), ("DMG_MCS5", ⟨1251250000⟩),
  ("DMG_MCS6", ⟨1540000000⟩), ("DMG_MCS7", ⟨1925000000⟩), ("DMG_MCS8", ⟨2310000000⟩),
  ("DMG_MCS9", ⟨2502500000⟩), ("DMG_MCS10", ⟨3080000000⟩), ("DMG_MCS11", ⟨3850000000⟩),
  ("DMG_MCS12", ⟨4620000000⟩)]

def schemes : List String := rates.map Prod.fst

def rate? (scheme : String) : Option DataRate := rates.lookup scheme

end SimCampaign.Modulation
