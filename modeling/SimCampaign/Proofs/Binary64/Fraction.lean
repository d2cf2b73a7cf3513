import SimCampaign.Proofs.Binary64.Arithmetic

/-! Whole parts and fractions of doubles. The fraction is zero exactly of the integers. -/

namespace SimCampaign.Binary64
open Float.Model (UnpackedFloat)
open Float.Model.UnpackedFloat (Sign)

section Sign
variable {x : Float} {p : ℚ}

theorem apply_neg (s : Sign) (m : ℕ) : (-s).apply m = -s.apply m := by
  cases s
  · exact (neg_neg (m : ℤ)).symm
  · rfl

theorem value?_neg (h : (ofFloat x).value? = some p) : (ofFloat (-x)).value? = some (-p) := by
  have hneg : (ofFloat (-x)).value? =
      (ofUnpacked (Float.Model.pack x.toModel.unpack.neg).unpack).value? := value?_ofFloat (-x)
  rw [hneg]
  obtain ⟨s, hu, rfl⟩ | ⟨s, m, e, hm, hu, rfl, hc, he⟩ := unpack_of_value? h
  · rw [hu, UnpackedFloat.neg, unpack_pack_zero, value?_zero, neg_zero]
  · rw [hu, UnpackedFloat.neg, unpack_pack_finite hc, if_pos he, value?_finite, apply_neg,
      Int.cast_neg, neg_mul]

theorem lt_iff_compare {y : Float} : x < y ↔
    UnpackedFloat.compare x.toModel.unpack y.toModel.unpack = some .lt := by
  change decide (UnpackedFloat.lt x.toModel.unpack y.toModel.unpack = true) = true ↔ _
  rw [decide_eq_true_iff]
  exact beq_iff_eq

theorem lt_zero_iff (h : (ofFloat x).value? = some p) : x < 0.0 ↔ p < 0 := by
  have hzero : (0.0 : Float).toModel.unpack = .zero .positive := rfl
  rw [lt_iff_compare, hzero]
  obtain ⟨s, hu, rfl⟩ | ⟨s, m, e, hm, hu, rfl, -⟩ := unpack_of_value? h
  · rw [hu]
    refine iff_of_false (fun hlt => ?_) (lt_irrefl 0)
    cases hlt
  · have hpos : (0 : ℚ) < m * 2 ^ e := by positivity
    rw [hu]
    cases s with
    | negative =>
      rw [Sign.apply, Int.cast_neg, Int.cast_natCast, neg_mul]
      exact iff_of_true rfl (neg_lt_zero.2 hpos)
    | positive =>
      rw [Sign.apply, Int.cast_natCast]
      refine iff_of_false (fun hlt => ?_) hpos.not_gt
      cases hlt

end Sign

section Truncation
variable {x : Float} {p : ℚ} {negative : Bool} {m : ℕ} {e : ℤ}

theorem lt_of_ofFloat (h : ofFloat x = .finite negative m e) : m < 2 ^ 53 := by
  rw [ofFloat_eq] at h
  cases hu : x.toModel.unpack with
  | notANumber => rw [hu] at h; cases h
  | infinity s => rw [hu] at h; cases h
  | zero s =>
    rw [hu] at h
    cases h
    exact Nat.two_pow_pos 53
  | finite s m' e' hm =>
    rw [hu] at h
    cases h
    exact (canonical_unpack hu).1.lt

def towardZero (p : ℚ) : ℤ := if p < 0 then ⌈p⌉ else ⌊p⌋

theorem towardZero_neg (p : ℚ) : towardZero (-p) = -towardZero p := by
  rcases lt_trichotomy p 0 with hp | rfl | hp
  · rw [towardZero, towardZero, if_neg (by linarith), if_pos hp, Int.floor_neg]
  · rfl
  · rw [towardZero, towardZero, if_pos (by linarith), if_neg hp.not_gt, Int.ceil_neg]

theorem towardZero_natCast_div (m d : ℕ) : towardZero ((m : ℚ) / d) = (m / d : ℕ) := by
  have hpos : (0 : ℚ) ≤ (m : ℚ) / d := by positivity
  rw [towardZero, if_neg hpos.not_gt, ← Nat.floor_div_eq_div (K := ℚ), Int.natCast_floor_eq_floor hpos]

theorem towardZero_intCast (k : ℤ) : towardZero k = k := by
  rw [towardZero, Int.ceil_intCast, Int.floor_intCast, ite_self]

theorem value?_truncate (h : (ofFloat x).value? = some p) :
    (ofFloat (truncate x)).value? = some (towardZero p : ℚ) := by
  cases hx : ofFloat x with
  | nan => rw [hx] at h; cases h
  | infinite negative => rw [hx] at h; cases h
  | finite negative m e =>
    by_cases he : 0 ≤ e
    · have hwhole : truncate x = x := by
        simp only [truncate, hx, he, if_true]
      obtain ⟨k, rfl⟩ := Int.eq_ofNat_of_zero_le he
      have hp : p = ((if negative then -(m * 2 ^ k) else m * 2 ^ k : ℤ) : ℚ) := by
        rw [hx, value?, Option.some_inj] at h
        rw [← h]
        push_cast
        rfl
      rw [hwhole, h, hp, towardZero_intCast]
    · obtain ⟨k, rfl⟩ : ∃ k : ℕ, e = -k := ⟨(-e).toNat, by omega⟩
      have hle : m / Nat.pow 2 k ≤ 2 ^ 53 := (Nat.div_le_self m _).trans (lt_of_ofFloat hx).le
      have hwhole : (ofFloat (Float.ofNat (m / Nat.pow 2 k))).value? =
          some (towardZero ((m : ℚ) * 2 ^ (-k : ℤ)) : ℚ) := by
        have hdiv : (m : ℚ) * 2 ^ (-k : ℤ) = m / (2 ^ k : ℕ) := by
          rw [zpow_neg, zpow_natCast, ← div_eq_mul_inv, Nat.cast_pow, Nat.cast_ofNat]
        rw [value?_ofNat hle, hdiv, towardZero_natCast_div, Int.cast_natCast]
        rfl
      rw [hx, value?, Option.some_inj] at h
      simp only [truncate, hx, he, if_false, neg_neg, Int.toNat_natCast]
      cases negative with
      | false =>
        rw [if_neg Bool.false_ne_true] at h ⊢
        rw [← h, hwhole]
      | true =>
        rw [if_pos rfl] at h ⊢
        rw [← h, value?_neg hwhole, towardZero_neg, Int.cast_neg]

theorem isNaN_sub_self (h : (ofFloat x).value? = none) : (x - x).isNaN = true := by
  rw [value?_ofFloat] at h
  change (Float.Model.pack
    (UnpackedFloat.sub .binary64 x.toModel.unpack x.toModel.unpack)).unpack.isNaN = true
  rw [isNaN_unpack_pack]
  cases hu : x.toModel.unpack with
  | notANumber => rfl
  | infinity s => cases s <;> rfl
  | zero s => rw [hu, value?_zero] at h; cases h
  | finite s m e hm => rw [hu, value?_finite] at h; cases h

theorem isNaN_fraction (h : (ofFloat x).value? = none) : (fraction x).isNaN = true := by
  have hwhole : truncate x = x := by
    rw [truncate]
    cases hx : ofFloat x with
    | nan => rfl
    | infinite negative => rfl
    | finite negative m e => rw [hx] at h; cases h
  rw [fraction, hwhole]
  exact isNaN_sub_self h

/-- Nothing is left of an integer beyond its whole part, and something of all else. -/
theorem fraction_beq_zero_iff :
    (fraction x == 0.0) = true ↔ ∃ k : ℤ, (ofFloat x).value? = some (k : ℚ) := by
  cases h : (ofFloat x).value? with
  | none =>
    refine iff_of_false (fun hzero => ?_) (fun ⟨k, hk⟩ => nomatch hk)
    obtain ⟨s, hs⟩ := isZero_iff_beq.2 hzero
    rw [isNaN_iff_unpack.1 (isNaN_fraction h)] at hs
    cases hs
  | some p =>
    have hwhole := value?_truncate h
    have hsub := sub_of_isFinite (isFinite_of_value? h).1 (isFinite_of_value? hwhole).2
    rw [fraction, ← isZero_iff_beq, hsub.2, beq_iff_value? h, hwhole]
    simp only [Option.some_inj]
    constructor
    · exact fun hp => ⟨towardZero p, hp.symm⟩
    · rintro ⟨k, rfl⟩
      rw [towardZero_intCast]

end Truncation

end SimCampaign.Binary64
