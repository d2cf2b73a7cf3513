import SimCampaign.Proofs.Binary64

/-! The significands and exponents that doubles are held with. What is packed is read back, as an
infinity if the exponent is too large. -/

namespace SimCampaign.Binary64
open Float.Model (Format UnpackedFloat totalExponent)
open Float.Model.UnpackedFloat (Sign unpack unpackExponent unpackMantissa unpackSign packComponents
  unpackMantissa_packComponents unpackExponent_packComponents packedInfinity)

def maxExponent : Int := 971

/-- Whether a significand has all the bits that a double can hold, or the least exponent. -/
structure Wide (m : ℕ) (e : ℤ) : Prop where
  le : minExponent ≤ e
  full : 2 ^ 52 ≤ m ∨ e = minExponent

/-- Whether a significand and an exponent are those that a double is held with, if the exponent is
not too large. -/
structure Canonical (m : ℕ) (e : ℤ) : Prop extends Wide m e where
  lt : m < 2 ^ 53

section Canonical
variable {m m' : ℕ} {e e' : ℤ}

theorem targetExponent_eq (m : ℕ) (e : ℤ) :
    Format.binary64.targetExponent (totalExponent m e) = max (m.log2 + e - 52) minExponent := by
  have hmin : Format.binary64.minExponent = minExponent := by decide
  have hbits : Format.binary64.mantissaBits = 53 := rfl
  rw [Format.targetExponent, totalExponent, hmin, hbits]
  push_cast
  congr 1
  ring

theorem Canonical.log2_le (h : Canonical m e) : m.log2 ≤ 52 := by
  by_cases hm : m = 0
  · simp [hm]
  · have hlt := (Nat.log2_lt hm).2 h.lt
    omega

theorem Canonical.log2_eq (h : Canonical m e) (hm : 2 ^ 52 ≤ m) : m.log2 = 52 :=
  le_antisymm h.log2_le ((Nat.le_log2 (by omega)).2 hm)

theorem Canonical.targetExponent_eq (h : Canonical m e) :
    Format.binary64.targetExponent (totalExponent m e) = e := by
  have hle := h.le
  rw [Binary64.targetExponent_eq]
  rcases h.full with hm | he
  · rw [h.log2_eq hm]
    omega
  · have hlog := h.log2_le
    omega

theorem Canonical.exponent_le (h : Canonical m e) (h' : Canonical m' e')
    (hv : (m : ℚ) * 2 ^ e = m' * 2 ^ e') : e' ≤ e := by
  by_contra hlt
  obtain ⟨k, hk⟩ : ∃ k : ℕ, e' = e + (k + 1) := ⟨(e' - e - 1).toNat, by omega⟩
  have hm : m = m' * 2 ^ (k + 1) := by
    have hpow : (2 : ℚ) ^ e' = 2 ^ e * 2 ^ (k + 1) := by
      rw [hk, zpow_add₀ two_ne_zero]
      norm_cast
    have hne : (2 : ℚ) ^ e ≠ 0 := zpow_ne_zero _ two_ne_zero
    have hq : (m : ℚ) = m' * 2 ^ (k + 1) := by
      apply mul_right_cancel₀ hne
      rw [hv, hpow]
      ring
    exact_mod_cast hq
  -- The larger exponent is not the least one, so its significand has all bits.
  have hfull : 2 ^ 52 ≤ m' := h'.full.resolve_right fun he' => by
    have hle := h.le
    omega
  have hmul : 2 ^ 52 * 2 ≤ m' * 2 ^ (k + 1) :=
    Nat.mul_le_mul hfull (by simpa using Nat.pow_le_pow_right two_pos (Nat.le_add_left 1 k))
  have hlt := h.lt
  omega

theorem Canonical.unique (h : Canonical m e) (h' : Canonical m' e')
    (hv : (m : ℚ) * 2 ^ e = m' * 2 ^ e') : m = m' ∧ e = e' := by
  obtain rfl : e = e' := le_antisymm (h'.exponent_le h hv.symm) (h.exponent_le h' hv)
  have hm := mul_right_cancel₀ (zpow_ne_zero e two_ne_zero) hv
  exact ⟨by exact_mod_cast hm, rfl⟩

theorem canonical_unpack {b : BitVec Format.binary64.numBits} {s : Sign} {hm : 0 < m}
    (h : unpack .binary64 b = .finite s m e hm) : Canonical m e ∧ e ≤ maxExponent := by
  have hlt := (unpackMantissa b).isLt
  have hexp := (unpackExponent b).isLt
  rw [unpack] at h
  dsimp only at h hlt hexp
  split_ifs at h with hinf hmant hzero hmant
  · -- subnormal
    obtain ⟨-, rfl, rfl⟩ := UnpackedFloat.finite.inj h
    rw [hzero]
    exact ⟨⟨⟨le_refl _, .inr rfl⟩, by omega⟩, by decide⟩
  · obtain ⟨-, rfl, rfl⟩ := UnpackedFloat.finite.inj h
    have hne : (unpackExponent b).toNat ≠ 0 := fun h0 => hzero (BitVec.eq_of_toNat_eq h0)
    have hmax : (unpackExponent b).toNat ≠ 2047 := fun h0 => hinf (BitVec.eq_of_toNat_eq h0)
    have hbias : ((Format.binary64.exponentBias : ℤ) + Format.binary64.mantissaBitsWithoutImplicit)
        = 1075 := by decide
    rw [hbias, toNat_one_append]
    refine ⟨⟨⟨?_, .inl (Nat.le_add_right ..)⟩, by omega⟩, ?_⟩
    · rw [minExponent]
      omega
    · rw [maxExponent]
      omega

end Canonical

section Fields
variable {s : Sign} {E : BitVec 11} {M : BitVec 52}

theorem ofBitVec_toBitVec (s : Sign) : Sign.ofBitVec s.toBitVec = s := by
  cases s <;> rfl

theorem unpackSign_packComponents {spec : Format} (s : Sign) (E : BitVec spec.exponentBits)
    (M : BitVec spec.mantissaBitsWithoutImplicit) :
    unpackSign (packComponents spec s E M) = s.toBitVec := by
  apply BitVec.eq_of_getLsbD_eq
  intro i hi
  obtain rfl : i = 0 := by omega
  simp [unpackSign, packComponents, BitVec.getLsbD_append, BitVec.getElem_append]

theorem unpack_packComponents (s : Sign) (E : BitVec 11) (M : BitVec 52) :
    unpack .binary64 (packComponents .binary64 s E M) =
      if E = -1#11 then if M = 0#52 then .infinity s else .notANumber
      else if E = 0#11 then
        if h : M = 0#52 then .zero s
        else .finite s M.toNat minExponent
          (Nat.pos_of_ne_zero fun h0 => h (BitVec.eq_of_toNat_eq h0))
      else .finite s (2 ^ 52 + M.toNat) (E.toNat - 1075) (by omega) := by
  rw [unpack]
  simp only [unpackExponent_packComponents, unpackMantissa_packComponents,
    unpackSign_packComponents, ofBitVec_toBitVec, toNat_one_append]
  split_ifs with hinf hmant hzero hmant
  · rfl
  · rfl
  · rfl
  · rw [UnpackedFloat.finite.injEq, hzero]
    exact ⟨rfl, rfl, rfl⟩
  · rfl

end Fields

section Packing
variable {m : ℕ} {e : ℤ} {u : UnpackedFloat}

/-- The exponent field of a number that is not subnormal. -/
def exponentField (e : ℤ) : ℕ := (e + 1075).toNat

theorem pack_finite (s : Sign) (m : ℕ) (e : ℤ) (hm : 0 < m) :
    UnpackedFloat.pack .binary64 (.finite s m e hm) =
      if 2047 ≤ exponentField e then packedInfinity .binary64 s
      else if m.log2 = 52 then
        packComponents .binary64 s (BitVec.ofNat 11 (exponentField e)) (BitVec.ofNat 52 m)
      else packComponents .binary64 s 0#11 (BitVec.ofNat 52 m) := by
  have hfield : (e + Format.binary64.exponentBias +
      Format.binary64.mantissaBitsWithoutImplicit).toNat = exponentField e := by
    rw [exponentField, add_assoc]
    rfl
  rw [UnpackedFloat.pack]
  simp only [hfield]
  have hover : 2 ^ Format.binary64.exponentBits ≤ exponentField e + 1 ↔ 2047 ≤ exponentField e := by
    change 2048 ≤ _ ↔ _
    omega
  have hfull : m.log2 + 1 = Format.binary64.mantissaBits ↔ m.log2 = 52 := by
    change _ = 53 ↔ _
    omega
  simp only [hover, hfull]

theorem unpack_packedInfinity (s : Sign) :
    unpack .binary64 (packedInfinity .binary64 s) = .infinity s := by
  rw [packedInfinity, unpack_packComponents]
  rfl

theorem unpack_pack_infinity (s : Sign) :
    (Float.Model.pack (.infinity s)).unpack = .infinity s := unpack_packedInfinity s

theorem unpack_pack_zero (s : Sign) : (Float.Model.pack (.zero s)).unpack = .zero s := by
  cases s <;> rfl

theorem unpack_pack_notANumber : (Float.Model.pack .notANumber).unpack = .notANumber := rfl

theorem toNat_exponentField (h : exponentField e < 2047) :
    (BitVec.ofNat 11 (exponentField e)).toNat = exponentField e :=
  Nat.mod_eq_of_lt (h.trans (by decide))

theorem exponentField_ne_ones (h : exponentField e < 2047) :
    BitVec.ofNat 11 (exponentField e) ≠ -1#11 := by
  intro heq
  have hn := congrArg BitVec.toNat heq
  rw [toNat_exponentField h] at hn
  exact absurd hn (Nat.ne_of_lt h)

theorem isNaN_unpack_pack (u : UnpackedFloat) : (Float.Model.pack u).unpack.isNaN = u.isNaN := by
  cases u with
  | notANumber => rfl
  | infinity s => rw [unpack_pack_infinity]
  | zero s => rw [unpack_pack_zero]
  | finite s m e hm =>
    change (unpack .binary64 (UnpackedFloat.pack .binary64 (.finite s m e hm))).isNaN = false
    rw [pack_finite]
    split_ifs with hover hfull
    · rw [unpack_packedInfinity]
      rfl
    · rw [unpack_packComponents, if_neg (exponentField_ne_ones (not_le.1 hover))]
      split_ifs <;> rfl
    · rw [unpack_packComponents, if_neg (by decide), if_pos rfl]
      split_ifs <;> rfl

theorem exponentField_lt (he : e ≤ maxExponent) : exponentField e < 2047 := by
  rw [maxExponent] at he
  rw [exponentField]
  omega

theorem unpack_pack_normal (h : Canonical m e) (hfull : 2 ^ 52 ≤ m) (he : e ≤ maxExponent)
    (s : Sign) (hm : 0 < m) : (Float.Model.pack (.finite s m e hm)).unpack = .finite s m e hm := by
  have hle := h.le
  have hlt := h.lt
  rw [minExponent] at hle
  have hfield := exponentField_lt he
  have hne : BitVec.ofNat 11 (exponentField e) ≠ 0#11 := by
    intro h0
    have hn := congrArg BitVec.toNat h0
    rw [toNat_exponentField hfield, exponentField, BitVec.toNat_zero] at hn
    omega
  change unpack .binary64 (UnpackedFloat.pack .binary64 (.finite s m e hm)) = _
  rw [pack_finite, if_neg (not_le.2 hfield), if_pos (h.log2_eq hfull), unpack_packComponents,
    if_neg (exponentField_ne_ones hfield), if_neg hne, UnpackedFloat.finite.injEq,
    toNat_exponentField hfield, exponentField, BitVec.toNat_ofNat]
  exact ⟨rfl, by omega, by omega⟩

theorem unpack_pack_subnormal (hlt : m < 2 ^ 52) (s : Sign) (hm : 0 < m) :
    (Float.Model.pack (.finite s m minExponent hm)).unpack = .finite s m minExponent hm := by
  have hlog : m.log2 ≠ 52 := by
    have := (Nat.log2_lt hm.ne').2 hlt
    omega
  have hmod : (BitVec.ofNat 52 m).toNat = m := Nat.mod_eq_of_lt hlt
  have hne : BitVec.ofNat 52 m ≠ 0#52 := by
    intro h0
    have hn := congrArg BitVec.toNat h0
    rw [hmod] at hn
    exact hm.ne' hn
  change unpack .binary64 (UnpackedFloat.pack .binary64 (.finite s m minExponent hm)) = _
  rw [pack_finite, if_neg (by decide), if_neg hlog, unpack_packComponents, if_neg (by decide),
    if_pos rfl, dif_neg hne, UnpackedFloat.finite.injEq, hmod]
  exact ⟨rfl, rfl, rfl⟩

theorem unpack_pack_finite (h : Canonical m e) (s : Sign) (hm : 0 < m) :
    (Float.Model.pack (.finite s m e hm)).unpack =
      if e ≤ maxExponent then .finite s m e hm else .infinity s := by
  by_cases he : e ≤ maxExponent
  · rw [if_pos he]
    by_cases hfull : 2 ^ 52 ≤ m
    · exact unpack_pack_normal h hfull he s hm
    · obtain rfl : e = minExponent := h.full.resolve_left hfull
      exact unpack_pack_subnormal (not_le.1 hfull) s hm
  · have hover : 2047 ≤ exponentField e := by
      rw [maxExponent] at he
      rw [exponentField]
      omega
    rw [if_neg he]
    change unpack .binary64 (UnpackedFloat.pack .binary64 (.finite s m e hm)) = _
    rw [pack_finite, if_pos hover, unpack_packedInfinity]

end Packing

end SimCampaign.Binary64
