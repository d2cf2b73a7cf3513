import SimCampaign.Quantity

/-! Network entities: the access point and the stations, numbered from one. -/

namespace SimCampaign

structure Entity where
  id : Nat
  deriving DecidableEq, Repr

namespace Entity

def accessPoint : Entity := ⟨0⟩

/-- The number that schedules use for contention periods, which belong to no station. -/
def contention : Entity := ⟨255⟩

def ofText? (s : String) : Option Entity := (Decimal.natUpTo? maxUInt64 s.toList).map (⟨·⟩)

def display (e : Entity) : String := toString e.id

/-- The number as traces hold it. -/
def number (e : Entity) : Float := Float.ofNat e.id

/-- The access point and the stations of a network of `stations` stations. -/
def upTo (stations : Nat) : List Entity := (List.range (stations + 1)).map (⟨·⟩)

end Entity
end SimCampaign
