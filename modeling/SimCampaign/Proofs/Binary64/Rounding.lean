import SimCampaign.Proofs.Binary64.Packing

/-! Rounding yields what a double is held with: never zero of a number that is not, and a canonical
number as it is. -/

namespace SimCampaign.Binary64
open Float.Model (Format UnpackedFloat totalExponent)
open Float.Model.UnpackedFloat (Sign Accuracy ExtendedMantissa shiftToExponent
  shiftToTargetExponent roundWithAccuracy decreaseExponent)

section Shifting
variable {m k : ℕ} {e : ℤ}

theorem mantissa_ofMantissaAndAccuracy (m : ℕ) (a : Accuracy) :
    (ExtendedMantissa.ofMantissaAndAccuracy m a).mantissa = m := by
  cases a with
  | exact => rfl
  | inexact o => cases o <;> rfl

theorem mantissa_shiftToExponent (m : ℕ) (e : ℤ) (a : Accuracy) (t : ℤ) :
    (shiftToExponent m e a t).1.mantissa = m / 2 ^ (t - e).toNat := by
  rw [shiftToExponent]
  have hshift := repeat_shiftRightOne (t - e).toNat (.ofMantissaAndAccuracy m a)
  rw [mantissa_ofMantissaAndAccuracy] at hshift
  exact hshift

theorem roundToNearestEven_bounds (m : ℕ) (a : Accuracy) :
    m ≤ a.roundToNearestEven m ∧ a.roundToNearestEven m ≤ m + 1 := by
  cases a with
  | exact => exact ⟨le_refl m, Nat.le_succ m⟩
  | inexact o =>
    cases o with
    | lt => exact ⟨le_refl m, Nat.le_succ m⟩
    | eq =>
      have hmod := Nat.mod_lt m two_pos
      exact ⟨Nat.le_add_right m _, Nat.add_le_add_left (Nat.lt_succ_iff.1 hmod) m⟩
    | gt => exact ⟨Nat.le_succ m, le_refl (m + 1)⟩

/-- Shifting zeros out of a significand is exact. -/
theorem repeat_shiftRightOne_mul (m k : ℕ) :
    k.repeat ExtendedMantissa.shiftRightOne ⟨m * 2 ^ k, false, false⟩ = ⟨m, false, false⟩ := by
  induction k generalizing m with
  | zero => rw [pow_zero, mul_one, Nat.repeat]
  | succ k ih =>
    have hmul : m * 2 ^ (k + 1) = m * 2 * 2 ^ k := by ring
    rw [Nat.repeat, hmul, ih, ExtendedMantissa.shiftRightOne]
    simp

theorem log2_mul_two_pow (hm : m ≠ 0) (k : ℕ) : (m * 2 ^ k).log2 = m.log2 + k := by
  have hne : m * 2 ^ k ≠ 0 := Nat.mul_ne_zero hm (Nat.two_pow_pos k).ne'
  rw [Nat.log2_eq_iff hne]
  constructor
  · rw [pow_add]
    exact Nat.mul_le_mul_right _ (Nat.log2_self_le hm)
  · rw [Nat.add_right_comm, pow_add]
    exact Nat.mul_lt_mul_of_pos_right Nat.lt_log2_self (Nat.two_pow_pos k)

theorem shiftToTargetExponent_of_canonical (h : Canonical m e) (hm : 0 < m) (k : ℕ) :
    shiftToTargetExponent .binary64 (m * 2 ^ k) (e - k) .exact = (⟨m, false, false⟩, e) := by
  have htarget : Format.binary64.targetExponent (totalExponent (m * 2 ^ k) (e - k)) = e := by
    have he := h.targetExponent_eq
    rw [targetExponent_eq] at he ⊢
    rw [log2_mul_two_pow hm.ne']
    push_cast
    omega
  have hk : (e - (e - k)).toNat = k := by omega
  rw [shiftToTargetExponent, htarget, shiftToExponent, hk]
  exact Prod.ext (repeat_shiftRightOne_mul m k) (by simp)

end Shifting

section Rounding
variable {m M : ℕ} {e E : ℤ}

theorem Wide.le_targetExponent (h : Wide M E) :
    E ≤ Format.binary64.targetExponent (totalExponent M E) := by
  have hle := h.le
  rw [targetExponent_eq]
  rcases h.full with hM | hE
  · have hlog := (Nat.le_log2 (by omega)).2 hM
    omega
  · omega

theorem shiftToTargetExponent_snd (h : E ≤ Format.binary64.targetExponent (totalExponent M E))
    (a : Accuracy) : (shiftToTargetExponent .binary64 M E a).2 =
      Format.binary64.targetExponent (totalExponent M E) := by
  rw [shiftToTargetExponent, shiftToExponent]
  dsimp only
  omega

theorem canonical_shiftToTargetExponent
    (h : E ≤ Format.binary64.targetExponent (totalExponent M E)) (a : Accuracy) :
    Canonical (shiftToTargetExponent .binary64 M E a).1.mantissa
      (shiftToTargetExponent .binary64 M E a).2 := by
  have hlt : M < 2 ^ (M.log2 + 1) := Nat.lt_log2_self
  rw [shiftToTargetExponent_snd h, shiftToTargetExponent, mantissa_shiftToExponent]
  rw [targetExponent_eq] at h ⊢
  generalize hk : (max (M.log2 + E - 52) minExponent - E).toNat = k
  have hpos : 0 < 2 ^ k := Nat.two_pow_pos k
  have hupper : M / 2 ^ k < 2 ^ 53 := by
    rw [Nat.div_lt_iff_lt_mul hpos, ← pow_add]
    exact hlt.trans_le (Nat.pow_le_pow_right two_pos (by omega))
  refine ⟨⟨le_max_right _ _, ?_⟩, hupper⟩
  by_cases hmin : max (M.log2 + E - 52) minExponent = minExponent
  · exact .inr hmin
  · left
    have hfull : M.log2 = 52 + k := by omega
    have hM : M ≠ 0 := by
      rintro rfl
      rw [Nat.log2_zero] at hfull
      omega
    rw [Nat.le_div_iff_mul_le hpos, ← pow_add, ← hfull]
    exact Nat.log2_self_le hM

theorem mantissa_shiftToTargetExponent_pos (h : Wide M E) (hM : 0 < M) (a : Accuracy) :
    0 < (shiftToTargetExponent .binary64 M E a).1.mantissa := by
  have hle := h.le
  have htarget := h.le_targetExponent
  have hc := canonical_shiftToTargetExponent htarget a
  by_cases hmin : Format.binary64.targetExponent (totalExponent M E) = minExponent
  · -- A number of the least exponent is not shifted.
    have hk : (minExponent - E).toNat = 0 := by omega
    rwa [shiftToTargetExponent, mantissa_shiftToExponent, hmin, hk, pow_zero, Nat.div_one]
  · have hfull := hc.full.resolve_right fun he =>
      hmin ((shiftToTargetExponent_snd htarget a).symm.trans he)
    omega

theorem roundWithAccuracy_eq {m : ℕ} {e : ℤ} {hm : 0 < m} {s : Sign} {a : Accuracy}
    (h : shiftToTargetExponent .binary64
        (shiftToTargetExponent .binary64 M E a).1.roundedMantissa
        (shiftToTargetExponent .binary64 M E a).2 .exact = (⟨m, false, false⟩, e)) :
    roundWithAccuracy .binary64 s M E a = .finite s m e hm := by
  rw [roundWithAccuracy]
  simp only [h]
  rw [dif_neg hm.ne']

theorem roundWithAccuracy_of_canonical (h : Canonical m e) (hm : 0 < m) (s : Sign) (k : ℕ) :
    roundWithAccuracy .binary64 s (m * 2 ^ k) (e - k) .exact = .finite s m e hm := by
  apply roundWithAccuracy_eq
  rw [shiftToTargetExponent_of_canonical h hm k]
  have hagain := shiftToTargetExponent_of_canonical h hm 0
  rwa [pow_zero, mul_one, Nat.cast_zero, sub_zero] at hagain

theorem roundWithAccuracy_cases (h : E ≤ Format.binary64.targetExponent (totalExponent M E))
    (s : Sign) (a : Accuracy) {n : ℕ} {t : ℤ}
    (hn : (shiftToTargetExponent .binary64 M E a).1.roundedMantissa = n)
    (ht : (shiftToTargetExponent .binary64 M E a).2 = t) :
    (n = 0 ∧ roundWithAccuracy .binary64 s M E a = .zero s) ∨
    ∃ m e hm, roundWithAccuracy .binary64 s M E a = .finite s m e hm ∧ Canonical m e ∧
      (m : ℚ) * 2 ^ e = n * 2 ^ t ∧ (Even n → Even m) := by
  have hc := canonical_shiftToTargetExponent h a
  have hlt := hc.lt
  obtain ⟨hlower, hupper⟩ := roundToNearestEven_bounds
    (shiftToTargetExponent .binary64 M E a).1.mantissa
    (shiftToTargetExponent .binary64 M E a).1.accuracy
  rw [← ExtendedMantissa.roundedMantissa, hn] at hlower hupper
  rw [ht] at hc
  rcases Nat.eq_zero_or_pos n with h0 | hpos
  · refine .inl ⟨h0, ?_⟩
    rw [roundWithAccuracy]
    simp only [hn, h0]
    rw [dif_pos]
    rw [shiftToTargetExponent, mantissa_shiftToExponent, Nat.zero_div]
  refine .inr ?_
  by_cases hr : n < 2 ^ 53
  · have hround : Canonical n t := ⟨⟨hc.le, hc.full.imp_left fun hfull => hfull.trans hlower⟩, hr⟩
    refine ⟨n, t, hpos, roundWithAccuracy_eq ?_, hround, rfl, id⟩
    rw [hn, ht]
    simpa using shiftToTargetExponent_of_canonical hround hpos 0
  · -- Rounding up may give one bit more, which is shifted out again.
    obtain rfl : n = 2 ^ 52 * 2 ^ 1 := by omega
    have hnext : Canonical (2 ^ 52) (t + 1) :=
      ⟨⟨hc.le.trans (by omega), .inl (le_refl _)⟩, by decide⟩
    refine ⟨_, _, Nat.two_pow_pos 52, roundWithAccuracy_eq ?_, hnext, ?_, fun _ => by decide⟩
    · rw [hn, ht]
      simpa using shiftToTargetExponent_of_canonical hnext (Nat.two_pow_pos 52) 1
    · rw [zpow_add_one₀ two_ne_zero]
      push_cast
      ring

theorem exists_roundWithAccuracy (h : Wide M E) (hM : 0 < M) (s : Sign) (a : Accuracy) :
    ∃ m e hm, roundWithAccuracy .binary64 s M E a = .finite s m e hm ∧ Canonical m e := by
  have hpos := mantissa_shiftToTargetExponent_pos h hM a
  have hlower := (roundToNearestEven_bounds (shiftToTargetExponent .binary64 M E a).1.mantissa
    (shiftToTargetExponent .binary64 M E a).1.accuracy).1
  rw [← ExtendedMantissa.roundedMantissa] at hlower
  rcases roundWithAccuracy_cases h.le_targetExponent s a rfl rfl with ⟨h0, -⟩ | ⟨m, e, hm, hr⟩
  · omega
  · exact ⟨m, e, hm, hr.1, hr.2.1⟩

theorem wide_decreaseExponent (hM : 0 < M) (hE : minExponent ≤ E) :
    Wide (decreaseExponent M E (Format.binary64.targetExponent (totalExponent M E))).1
      (decreaseExponent M E (Format.binary64.targetExponent (totalExponent M E))).2 := by
  have hself := Nat.log2_self_le hM.ne'
  rw [decreaseExponent, targetExponent_eq]
  dsimp only
  generalize hk : (E - max (M.log2 + E - 52) minExponent).toNat = k
  refine ⟨by omega, ?_⟩
  by_cases hmin : E - k = minExponent
  · exact .inr hmin
  · left
    calc 2 ^ 52 ≤ 2 ^ (M.log2 + k) := Nat.pow_le_pow_right two_pos (by omega)
      _ = 2 ^ M.log2 * 2 ^ k := pow_add ..
      _ ≤ M * 2 ^ k := Nat.mul_le_mul_right _ hself
      _ = M <<< k := (Nat.shiftLeft_eq ..).symm

/-- A number that is not zero is not rounded to zero, unless its exponent is less than the least. -/
theorem exists_round (hM : 0 < M) (hE : minExponent ≤ E) (s : Sign) :
    ∃ m e hm, UnpackedFloat.round .binary64 s M E = .finite s m e hm ∧ Canonical m e := by
  have hpos : 0 < (decreaseExponent M E
      (Format.binary64.targetExponent (totalExponent M E))).1 := by
    rw [decreaseExponent, Nat.shiftLeft_eq]
    exact Nat.mul_pos hM (Nat.two_pow_pos _)
  exact exists_roundWithAccuracy (wide_decreaseExponent hM hE) hpos s .exact

theorem exists_normalize {n : ℤ} (hn : n ≠ 0) (hE : minExponent ≤ E) (z : Sign) :
    ∃ s m e hm, UnpackedFloat.normalize .binary64 n E z = .finite s m e hm ∧ Canonical m e := by
  rw [UnpackedFloat.normalize]
  rcases lt_trichotomy n 0 with hlt | rfl | hgt
  · rw [compare_lt_iff_lt.2 hlt]
    exact ⟨_, exists_round (by omega) hE .negative⟩
  · exact absurd rfl hn
  · rw [compare_gt_iff_gt.2 hgt]
    exact ⟨_, exists_round (by omega) hE .positive⟩

theorem two_pow_le_mul {n : ℕ} (hn : 0 < n) : 2 ^ 52 ≤ n * 2 ^ (52 - n.log2) :=
  calc 2 ^ 52 ≤ 2 ^ (n.log2 + (52 - n.log2)) := Nat.pow_le_pow_right two_pos (by omega)
    _ = 2 ^ n.log2 * 2 ^ (52 - n.log2) := pow_add ..
    _ ≤ n * 2 ^ (52 - n.log2) := Nat.mul_le_mul_right _ (Nat.log2_self_le hn.ne')

theorem normalize_natCast {n : ℕ} (hn : 0 < n) (hlt : n < 2 ^ 53) (z : Sign) :
    ∃ hm, UnpackedFloat.normalize .binary64 n 0 z =
      .finite .positive (n * 2 ^ (52 - n.log2)) (n.log2 - 52) hm ∧
      Canonical (n * 2 ^ (52 - n.log2)) (n.log2 - 52) := by
  have hlog := (Nat.log2_lt hn.ne').2 hlt
  have hupper : n < 2 ^ (n.log2 + 1) := Nat.lt_log2_self
  have hpos : 0 < 2 ^ (52 - n.log2) := Nat.two_pow_pos _
  have hc : Canonical (n * 2 ^ (52 - n.log2)) (n.log2 - 52) := by
    refine ⟨⟨?_, .inl (two_pow_le_mul hn)⟩, ?_⟩
    · rw [minExponent]
      omega
    · calc n * 2 ^ (52 - n.log2) < 2 ^ (n.log2 + 1) * 2 ^ (52 - n.log2) :=
            Nat.mul_lt_mul_of_pos_right hupper hpos
        _ = 2 ^ 53 := by rw [← pow_add]; congr 1; omega
  refine ⟨Nat.mul_pos hn hpos, ?_, hc⟩
  have hshift : (0 - max ((n.log2 : ℤ) + 0 - 52) minExponent).toNat = 52 - n.log2 := by
    rw [minExponent]
    omega
  rw [UnpackedFloat.normalize, compare_gt_iff_gt.2 (Int.natCast_pos.2 hn)]
  change UnpackedFloat.round .binary64 .positive n 0 = _
  rw [UnpackedFloat.round, targetExponent_eq, decreaseExponent]
  dsimp only
  rw [hshift, Nat.shiftLeft_eq]
  have hexact := roundWithAccuracy_of_canonical hc (Nat.mul_pos hn hpos) .positive 0
  have hexp : (n.log2 : ℤ) - 52 - (0 : ℕ) = 0 - (52 - n.log2 : ℕ) := by omega
  rwa [pow_zero, mul_one, hexp] at hexact

end Rounding

end SimCampaign.Binary64
