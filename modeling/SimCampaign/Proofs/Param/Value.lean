import SimCampaign.Param.Space

/-! Values compared with each other, and the positions of coordinates. -/

namespace SimCampaign

theorem unpacked_beq_or_isNaN (x : Float.Model.UnpackedFloat) : (x.beq x || x.isNaN) = true := by
  cases x with
  | notANumber => rfl
  | infinity sign => cases sign <;> rfl
  | zero sign => rfl
  | finite sign mantissa exponent positive =>
    have hc : (compare exponent exponent).then (compare mantissa mantissa) = .eq := by
      have he : compare exponent exponent = .eq := Std.ReflCmp.compare_self
      rw [he, Ordering.eq_then]
      exact Std.ReflCmp.compare_self
    -- Doubles of one sign are compared by exponent and mantissa, negative ones the other way.
    cases sign with
    | positive =>
      change (some ((compare exponent exponent).then (compare mantissa mantissa)) == some .eq ||
        false) = true
      rw [hc]
      rfl
    | negative =>
      change (some ((compare exponent exponent).then (compare mantissa mantissa)).swap == some .eq ||
        false) = true
      rw [hc]
      rfl

theorem Binary64.same_self (x : Float) : same x x = true := by
  rw [same, Bool.and_self]
  exact unpacked_beq_or_isNaN x.toModel.unpack

namespace Param

theorem Value.same_self (v : Value) : v.same v = true := by
  cases v with
  | bool b => exact beq_self_eq_true b
  | int n => exact beq_self_eq_true n
  | float x => exact Binary64.same_self x
  | text s => exact beq_self_eq_true s

namespace Dim
variable {d : Dim} {v : Value} {k : Nat}

def Distinct (d : Dim) : Prop := d.coords.Pairwise fun v w => (v == w) = false

theorem exists_position? (h : v ∈ d.coords) : ∃ k, d.position? v = some k := by
  cases hp : d.position? v with
  | some k => exact ⟨k, rfl⟩
  | none =>
    have hv : (v == v) = false := List.findIdx?_eq_none_iff.1 hp v h
    exact absurd (Value.same_self v) (Bool.eq_false_iff.1 hv)

theorem Distinct.position? (h : d.Distinct) (hv : d.coords[k]? = some v) :
    d.position? v = some k := by
  obtain ⟨hk, rfl⟩ := List.getElem?_eq_some_iff.1 hv
  refine List.findIdx?_eq_some_iff_getElem.2 ⟨hk, Value.same_self _, fun j hj => ?_⟩
  exact Bool.eq_false_iff.1 (List.pairwise_iff_getElem.1 h j k (Nat.lt_trans hj hk) hk hj)

theorem position?_single (v : Value) (name : String) :
    position? ⟨name, [v]⟩ v = some 0 :=
  Distinct.position? (List.pairwise_singleton ..) rfl

end Dim
end Param
end SimCampaign
