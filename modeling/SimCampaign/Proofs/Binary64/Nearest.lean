import SimCampaign.Proofs.Binary64.Arithmetic

/-! The double nearest to a number. A significand that is shifted still tells on which side of the
half the number lies, so that products and quotients are nearest to the exact ones. -/

namespace SimCampaign.Binary64
open Float.Model (Format UnpackedFloat totalExponent)
open Float.Model.UnpackedFloat (Sign Accuracy ExtendedMantissa shiftToExponent
  shiftToTargetExponent roundWithAccuracy accuracyOfFraction divCore)

section Integers
variable {r : ℚ} {n : ℕ}

/-- Whether an integer is nearest to a number, and even if it is one of two. -/
def RoundsTo (r : ℚ) (n : ℕ) : Prop := |r - n| ≤ 1 / 2 ∧ (|r - n| = 1 / 2 → Even n)

theorem RoundsTo.le_abs_sub (h : RoundsTo r n) (k : ℤ) :
    |r - n| ≤ |r - k| ∧ (|r - n| = |r - k| → (k : ℚ) = n ∨ Even n) := by
  obtain ⟨hhalf, heven⟩ := h
  by_cases hk : k = n
  · rw [hk, Int.cast_natCast]
    exact ⟨le_refl _, fun _ => .inl rfl⟩
  · have hgap : (1 : ℚ) ≤ |(k : ℚ) - n| := by
      exact_mod_cast Int.one_le_abs (sub_ne_zero.2 hk)
    have htriangle : |(k : ℚ) - n| ≤ |r - n| + |r - k| := by
      rw [show (k : ℚ) - n = (r - n) - (r - k) by ring]
      exact abs_sub _ _
    exact ⟨by linarith, fun he => .inr (heven (by linarith))⟩

theorem RoundsTo.le_abs_sub_finer (h : RoundsTo r n) (hr : 2 ^ 52 ≤ r) {q : ℚ} (hq : q < 2 ^ 52) :
    |r - n| < |r - q| := by
  have hle := (h.le_abs_sub (2 ^ 52)).1
  have habs : |r - (2 ^ 52 : ℤ)| = r - 2 ^ 52 := by
    push_cast
    exact abs_of_nonneg (by linarith)
  have habs' : |r - q| = r - q := abs_of_pos (by linarith)
  linarith

end Integers

section Shifting
variable {em : ExtendedMantissa} {r : ℚ} {m n d : ℕ}

/-- The worth of the first bit after the point. -/
def half (b : Bool) : ℚ := if b then 1 / 2 else 0

/-- Whether a significand is what is left of a number, with the first bit that is lost and whether
there is more than that. -/
def Represents (em : ExtendedMantissa) (r : ℚ) : Prop :=
  ∃ s : ℚ, r = em.mantissa + half em.roundBit + s ∧ 0 ≤ s ∧ s < 1 / 2 ∧
    (em.stickyBit = true ↔ 0 < s)

theorem Represents.bounds (h : Represents em r) : (em.mantissa : ℚ) ≤ r ∧ r < em.mantissa + 1 := by
  obtain ⟨s, rfl, h0, hlt, -⟩ := h
  have hbit : 0 ≤ half em.roundBit ∧ half em.roundBit ≤ 1 / 2 := by
    cases em.roundBit <;> norm_num [half]
  constructor <;> linarith

theorem represents_exact (m : ℕ) : Represents (.ofMantissaAndAccuracy m .exact) m :=
  ⟨0, by simp [ExtendedMantissa.ofMantissaAndAccuracy, half], le_refl _, by norm_num,
    iff_of_false Bool.false_ne_true (lt_irrefl _)⟩

theorem represents_fraction (m : ℕ) (h : n < d) :
    Represents (.ofMantissaAndAccuracy m (accuracyOfFraction n d)) (m + n / d) := by
  have hd : (0 : ℚ) < d := by exact_mod_cast n.zero_le.trans_lt h
  have hone : (n : ℚ) / d < 1 := (div_lt_one hd).2 (by exact_mod_cast h)
  rw [accuracyOfFraction]
  split_ifs with hn
  · simpa [hn] using represents_exact m
  have hpos : (0 : ℚ) < n / d := div_pos (by exact_mod_cast Nat.pos_of_ne_zero hn) hd
  rcases lt_trichotomy (2 * n) d with hlt | heq | hgt
  · rw [compare_lt_iff_lt.2 hlt]
    have hhalf : (n : ℚ) / d < 1 / 2 := by
      rw [div_lt_div_iff₀ hd two_pos]
      exact_mod_cast by omega
    exact ⟨n / d, by simp [ExtendedMantissa.ofMantissaAndAccuracy, half], hpos.le, hhalf,
      iff_of_true rfl hpos⟩
  · rw [compare_eq_iff_eq.2 heq]
    have hhalf : (n : ℚ) / d = 1 / 2 := by
      rw [div_eq_div_iff hd.ne' two_ne_zero]
      exact_mod_cast by omega
    rw [hhalf]
    exact ⟨0, by simp [ExtendedMantissa.ofMantissaAndAccuracy, half], le_refl _, by norm_num,
      iff_of_false Bool.false_ne_true (lt_irrefl _)⟩
  · rw [compare_gt_iff_gt.2 hgt]
    have hhalf : 1 / 2 < (n : ℚ) / d := by
      rw [div_lt_div_iff₀ two_pos hd]
      exact_mod_cast by omega
    refine ⟨n / d - 1 / 2, ?_, by linarith, by linarith, iff_of_true rfl (by linarith)⟩
    simp only [ExtendedMantissa.ofMantissaAndAccuracy, half, if_true]
    ring

theorem Represents.shiftRightOne (h : Represents em r) : Represents em.shiftRightOne (r / 2) := by
  obtain ⟨s, rfl, h0, hlt, hs⟩ := h
  have hmantissa : (em.mantissa : ℚ) = 2 * (em.mantissa / 2 : ℕ) + (em.mantissa % 2 : ℕ) := by
    exact_mod_cast (Nat.div_add_mod em.mantissa 2).symm
  have hbit : ((em.mantissa % 2 : ℕ) : ℚ) = 2 * half (em.mantissa % 2 != 0) := by
    rcases Nat.mod_two_eq_zero_or_one em.mantissa with hm | hm <;> rw [hm] <;> norm_num [half]
  refine ⟨(half em.roundBit + s) / 2, ?_, ?_⟩
  · rw [ExtendedMantissa.shiftRightOne]
    linarith
  · rw [ExtendedMantissa.shiftRightOne]
    cases hround : em.roundBit with
    | false =>
      simp only [half, Bool.false_or, hs]
      refine ⟨?_, ?_, ?_⟩ <;> norm_num <;> linarith
    | true =>
      simp only [half, Bool.true_or, true_iff]
      refine ⟨?_, ?_, ?_⟩ <;> norm_num <;> linarith

theorem Represents.shiftRight (h : Represents em r) (k : ℕ) :
    Represents (k.repeat ExtendedMantissa.shiftRightOne em) (r / 2 ^ k) := by
  induction k with
  | zero => simpa [Nat.repeat] using h
  | succ k ih =>
    rw [Nat.repeat, pow_succ, ← div_div]
    exact ih.shiftRightOne

theorem Represents.roundsTo (h : Represents em r) : RoundsTo r em.roundedMantissa := by
  obtain ⟨s, rfl, h0, hlt, hs⟩ := h
  obtain ⟨m, roundBit, stickyBit⟩ := em
  cases stickyBit with
  | false =>
    obtain rfl : s = 0 := le_antisymm (not_lt.1 fun hpos => nomatch hs.2 hpos) h0
    cases roundBit with
    | false => norm_num [RoundsTo, ExtendedMantissa.roundedMantissa, ExtendedMantissa.accuracy,
        Accuracy.roundToNearestEven, half]
    | true =>
      change RoundsTo (m + 1 / 2 + 0) (m + m % 2)
      have heven : Even (m + m % 2) := by
        rw [Nat.even_iff]
        omega
      refine ⟨?_, fun _ => heven⟩
      rcases Nat.mod_two_eq_zero_or_one m with hm | hm <;> rw [hm, abs_le] <;> push_cast <;>
        constructor <;> linarith
  | true =>
    have hpos := hs.1 rfl
    cases roundBit with
    | false =>
      change RoundsTo (m + 0 + s) m
      have habs : |(m + 0 + s : ℚ) - m| < 1 / 2 := by
        rw [abs_lt]
        constructor <;> linarith
      exact ⟨habs.le, fun he => absurd he habs.ne⟩
    | true =>
      change RoundsTo (m + 1 / 2 + s) (m + 1 : ℕ)
      have habs : |(m + 1 / 2 + s : ℚ) - (m + 1 : ℕ)| < 1 / 2 := by
        rw [abs_lt]
        push_cast
        constructor <;> linarith
      exact ⟨habs.le, fun he => absurd he habs.ne⟩

end Shifting

section Nearest
variable {q p : ℚ} {t e E : ℤ} {m n M : ℕ} {a : Accuracy} {y : Float}

/-- The midpoint of the greatest double and the next power of two. -/
def overflow : ℚ := 2 ^ 1024 - 2 ^ 970

/-- Whether a double is nearest to a number that is not negative. Of two doubles it is the one of
even significand, and infinity is nearest to what is not below the midpoint after the greatest. -/
def Nearest (q : ℚ) : Binary64 → Prop
  | .nan => False
  | .infinite negative => negative = false ∧ overflow ≤ q
  | .finite negative m e => negative = false ∧ q < overflow ∧
      ∀ (y : Float) (p : ℚ), (ofFloat y).value? = some p →
        |q - m * 2 ^ e| ≤ |q - p| ∧ (|q - m * 2 ^ e| = |q - p| → p = m * 2 ^ e ∨ Even m)

theorem exists_mul_zpow_eq (h : (ofFloat y).value? = some p) :
    ∃ k e : ℤ, p = k * 2 ^ e ∧ k < 2 ^ 53 ∧ minExponent ≤ e := by
  obtain ⟨s, -, rfl⟩ | ⟨s, m, e, hm, -, rfl, hc, -⟩ := unpack_of_value? h
  · exact ⟨0, minExponent, by simp, by norm_num, le_refl _⟩
  · have hlt := hc.lt
    refine ⟨s.apply m, e, rfl, ?_, hc.le⟩
    cases s <;> simp only [Sign.apply] <;> omega

/-- Whether a number has at most 53 bits before the place of `2 ^ t`, and all of them unless there
is no place after that. -/
structure Scaled (q : ℚ) (t : ℤ) : Prop where
  least : minExponent ≤ t
  full : 2 ^ 52 ≤ q / 2 ^ t ∨ t = minExponent
  lt : q / 2 ^ t < 2 ^ 53

theorem abs_sub_mul_zpow (q x : ℚ) (t : ℤ) : |q - x * 2 ^ t| = |q / 2 ^ t - x| * 2 ^ t := by
  have hpos : (0 : ℚ) < 2 ^ t := zpow_pos two_pos t
  have hq : q - x * 2 ^ t = (q / 2 ^ t - x) * 2 ^ t := by
    rw [sub_mul, div_mul_cancel₀ _ hpos.ne']
  rw [hq, abs_mul, abs_of_pos hpos]

/-- No double is nearer than the nearest multiple of `2 ^ t`. -/
theorem Scaled.le_abs_sub (h : Scaled q t) (hn : RoundsTo (q / 2 ^ t) n)
    (hy : (ofFloat y).value? = some p) : |q - n * 2 ^ t| ≤ |q - p| ∧
      (|q - n * 2 ^ t| = |q - p| → p = n * 2 ^ t ∨ Even n) := by
  have hpos : (0 : ℚ) < 2 ^ t := zpow_pos two_pos t
  obtain ⟨x, rfl⟩ : ∃ x, p = x * 2 ^ t := ⟨p / 2 ^ t, (div_mul_cancel₀ p hpos.ne').symm⟩
  rw [abs_sub_mul_zpow, abs_sub_mul_zpow, mul_le_mul_iff_left₀ hpos, mul_left_inj' hpos.ne',
    mul_left_inj' hpos.ne']
  obtain ⟨k, e, hx, hk, he⟩ := exists_mul_zpow_eq hy
  have hx' : x = k * 2 ^ (e - t) := by
    rw [zpow_sub₀ two_ne_zero, ← mul_div_assoc, ← hx, mul_div_cancel_right₀ _ hpos.ne']
  rcases le_or_gt t e with hle | hgt
  · have hcast : x = (k * 2 ^ (e - t).toNat : ℤ) := by
      rw [hx']
      push_cast
      rw [← zpow_natCast, Int.toNat_of_nonneg (by omega)]
    rw [hcast]
    exact hn.le_abs_sub _
  · have hfull := h.full.resolve_right (by omega)
    have hlt : x < 2 ^ 52 := by
      have hk' : (k : ℚ) < 2 ^ 53 := by exact_mod_cast hk
      have hpow : (2 : ℚ) ^ (e - t) ≤ 2 ^ (-1 : ℤ) := zpow_le_zpow_right₀ one_le_two (by omega)
      have hpow' : (0 : ℚ) < 2 ^ (e - t) := zpow_pos two_pos _
      calc x = k * 2 ^ (e - t) := hx'
        _ < 2 ^ 53 * 2 ^ (e - t) := by gcongr
        _ ≤ 2 ^ 53 * 2 ^ (-1 : ℤ) := by gcongr
        _ = 2 ^ 52 := by norm_num
    have hstrict := hn.le_abs_sub_finer hfull hlt
    exact ⟨hstrict.le, fun heq => absurd heq hstrict.ne⟩

theorem RoundsTo.le_of_le {r : ℚ} (h : RoundsTo r n) {k : ℕ} (hk : (k : ℚ) ≤ r) : k ≤ n := by
  have hle := (abs_le.1 h.1).2
  by_contra hlt
  have hcast : (n : ℚ) + 1 ≤ k := by exact_mod_cast not_le.1 hlt
  linarith

/-- Half of the distance between the greatest doubles. -/
def topHalf : ℚ := 2 ^ 970

theorem topHalf_pos : 0 < topHalf := pow_pos two_pos 970

theorem two_pow_eq : (2 : ℚ) ^ 1024 = 2 ^ 54 * topHalf := (pow_add 2 54 970)

theorem overflow_eq : overflow = (2 ^ 54 - 1) * topHalf := by
  rw [overflow, two_pow_eq, sub_mul, one_mul]
  rfl

theorem zpow_eq_mul_topHalf (k : ℕ) : (2 : ℚ) ^ (970 + k : ℤ) = 2 ^ k * topHalf := by
  rw [add_comm, zpow_add₀ two_ne_zero, zpow_natCast]
  rfl

theorem mul_topHalf_le {k : ℕ} (h : 970 + k ≤ t) : 2 ^ k * topHalf ≤ 2 ^ t := by
  rw [← zpow_eq_mul_topHalf]
  exact zpow_le_zpow_right₀ one_le_two h

theorem le_mul_topHalf {k : ℕ} (h : t ≤ 970 + k) : 2 ^ t ≤ 2 ^ k * topHalf := by
  rw [← zpow_eq_mul_topHalf]
  exact zpow_le_zpow_right₀ one_le_two h

theorem Scaled.two_pow_le (h : Scaled q t) (ht : 972 ≤ t) : (2 : ℚ) ^ 52 ≤ q / 2 ^ t :=
  h.full.resolve_right fun hmin => absurd (hmin ▸ ht) (by decide)

/-- What is rounded out of the range of doubles is not below the midpoint after the greatest. -/
theorem Scaled.overflow_le (h : Scaled q t) (hn : RoundsTo (q / 2 ^ t) n)
    (hv : 2 ^ 1024 ≤ (n : ℚ) * 2 ^ t) : overflow ≤ q := by
  have hpos : (0 : ℚ) < 2 ^ t := zpow_pos two_pos t
  have hunit := topHalf_pos
  rw [two_pow_eq] at hv
  rw [overflow_eq]
  rcases le_or_gt 972 t with ht | ht
  · have hpow : 2 ^ 2 * topHalf ≤ 2 ^ t := mul_topHalf_le ht
    have hq := (le_div_iff₀ hpos).1 (h.two_pow_le ht)
    linarith
  · have hpow : 2 ^ t ≤ 2 ^ 1 * topHalf := le_mul_topHalf (Int.lt_add_one_iff.1 ht)
    have hhalf := hn.1
    rw [← mul_le_mul_iff_left₀ hpos, ← abs_sub_mul_zpow] at hhalf
    linarith [(abs_le.1 hhalf).1]

theorem Scaled.lt_overflow (h : Scaled q t) (hn : RoundsTo (q / 2 ^ t) n)
    (hv : (n : ℚ) * 2 ^ t < 2 ^ 1024) : q < overflow := by
  have hpos : (0 : ℚ) < 2 ^ t := zpow_pos two_pos t
  have hunit := topHalf_pos
  rw [two_pow_eq] at hv
  rw [overflow_eq]
  by_contra hle
  rw [not_lt] at hle
  rcases lt_trichotomy t 971 with ht | rfl | ht
  · have hpow : 2 ^ t ≤ 2 ^ 0 * topHalf := le_mul_topHalf (Int.lt_add_one_iff.1 ht)
    have hlt := (div_lt_iff₀ hpos).1 h.lt
    linarith
  · -- The number is at the midpoint, and the greatest double is odd.
    have hstep : (2 : ℚ) ^ (971 : ℤ) = 2 ^ 1 * topHalf := zpow_eq_mul_topHalf 1
    rw [hstep] at hn hv hpos
    have hr : (2 ^ 53 - 1 / 2 : ℚ) ≤ q / (2 ^ 1 * topHalf) := by
      rw [le_div_iff₀ hpos]
      linarith
    have hge : 2 ^ 53 - 1 ≤ n := hn.le_of_le (by push_cast; linarith)
    have hlt : (n : ℚ) < 2 ^ 53 := by
      by_contra hn'
      have hmul := mul_le_mul_of_nonneg_right (not_lt.1 hn') hunit.le
      linarith
    obtain rfl : n = 2 ^ 53 - 1 := by
      have hlt' : n < 2 ^ 53 := by exact_mod_cast hlt
      omega
    have hhalf := (abs_le.1 hn.1).2
    have heq : |q / (2 ^ 1 * topHalf) - (2 ^ 53 - 1 : ℕ)| = 1 / 2 := by
      push_cast at hhalf ⊢
      rw [abs_of_nonneg] <;> linarith
    exact absurd (hn.2 heq) (by decide)
  · have hpow : 2 ^ 2 * topHalf ≤ 2 ^ t := mul_topHalf_le ht
    have hfull : 2 ^ 52 ≤ n := hn.le_of_le (by push_cast; exact h.two_pow_le ht)
    have hmul := mul_le_mul_of_nonneg_right (show (2 ^ 52 : ℚ) ≤ n by exact_mod_cast hfull) hpos.le
    linarith

/-- What is rounded to a multiple of `2 ^ t` is nearest, whatever it is held with. -/
theorem Scaled.nearest (h : Scaled q t) (hn : RoundsTo (q / 2 ^ t) n)
    (hv : (m : ℚ) * 2 ^ e = n * 2 ^ t) (heven : Even n → Even m)
    (hlt : (m : ℚ) * 2 ^ e < 2 ^ 1024) : Nearest q (.finite false m e) := by
  refine ⟨rfl, h.lt_overflow hn (hv ▸ hlt), fun y p hy => ?_⟩
  obtain ⟨hle, htie⟩ := h.le_abs_sub hn hy
  rw [hv]
  exact ⟨hle, fun he => (htie he).imp_right heven⟩

theorem Canonical.lt_two_pow (h : Canonical m e) (he : e ≤ maxExponent) :
    (m : ℚ) * 2 ^ e < 2 ^ 1024 := by
  have hpow : 2 ^ e ≤ 2 ^ 1 * topHalf := le_mul_topHalf he
  have hm : (m : ℚ) < 2 ^ 53 := by exact_mod_cast h.lt
  calc (m : ℚ) * 2 ^ e < 2 ^ 53 * 2 ^ e := by gcongr
    _ ≤ 2 ^ 53 * (2 ^ 1 * topHalf) := by gcongr
    _ = 2 ^ 1024 := by rw [two_pow_eq]; ring

theorem Canonical.two_pow_le (h : Canonical m e) (he : maxExponent < e) :
    2 ^ 1024 ≤ (m : ℚ) * 2 ^ e := by
  have hpow : 2 ^ 2 * topHalf ≤ 2 ^ e := mul_topHalf_le he
  have hfull : 2 ^ 52 ≤ m := h.full.resolve_right fun hmin => absurd (hmin ▸ he) (by decide)
  have hm : (2 ^ 52 : ℚ) ≤ m := by exact_mod_cast hfull
  calc (2 : ℚ) ^ 1024 = 2 ^ 52 * (2 ^ 2 * topHalf) := by rw [two_pow_eq]; ring
    _ ≤ 2 ^ 52 * 2 ^ e := mul_le_mul_of_nonneg_left hpow (by norm_num)
    _ ≤ m * 2 ^ e := mul_le_mul_of_nonneg_right hm (zpow_pos two_pos e).le

theorem scaled_of_represents (hE : E ≤ Format.binary64.targetExponent (totalExponent M E))
    (h : Represents (.ofMantissaAndAccuracy M a) (q / 2 ^ E)) :
    Represents (shiftToTargetExponent .binary64 M E a).1
        (q / 2 ^ (shiftToTargetExponent .binary64 M E a).2) ∧
      Scaled q (shiftToTargetExponent .binary64 M E a).2 := by
  have hc := canonical_shiftToTargetExponent hE a
  have hrep : Represents (shiftToTargetExponent .binary64 M E a).1
      (q / 2 ^ (shiftToTargetExponent .binary64 M E a).2) := by
    rw [shiftToTargetExponent, shiftToExponent]
    dsimp only
    rw [zpow_add₀ two_ne_zero, zpow_natCast, ← div_div]
    exact h.shiftRight _
  obtain ⟨hlower, hupper⟩ := hrep.bounds
  have hlt : ((shiftToTargetExponent .binary64 M E a).1.mantissa : ℚ) + 1 ≤ 2 ^ 53 := by
    exact_mod_cast hc.lt
  refine ⟨hrep, hc.le, hc.full.imp_left fun hfull => ?_, hupper.trans_le hlt⟩
  exact (show (2 ^ 52 : ℚ) ≤ _ by exact_mod_cast hfull).trans hlower

theorem nearest_roundWithAccuracy (hE : E ≤ Format.binary64.targetExponent (totalExponent M E))
    (h : Represents (.ofMantissaAndAccuracy M a) (q / 2 ^ E)) :
    Nearest q (ofUnpacked (Float.Model.pack
      (roundWithAccuracy .binary64 .positive M E a)).unpack) := by
  obtain ⟨hrep, hscaled⟩ := scaled_of_represents hE h
  have hn := hrep.roundsTo
  rcases roundWithAccuracy_cases hE .positive a rfl rfl with
    ⟨h0, hz⟩ | ⟨m, e, hm, hr, hc, hv, heven⟩
  · rw [hz, unpack_pack_zero]
    refine hscaled.nearest hn ?_ (fun _ => Even.zero) ?_
    · rw [h0, Nat.cast_zero, zero_mul, zero_mul]
    · rw [Nat.cast_zero, zero_mul]
      exact pow_pos two_pos 1024
  · rw [hr, unpack_pack_finite hc]
    split_ifs with he
    · exact hscaled.nearest hn hv heven (hc.lt_two_pow he)
    · exact ⟨rfl, hscaled.overflow_le hn (hv ▸ hc.two_pow_le (not_le.1 he))⟩

end Nearest

section Operations
variable {x y : Float} {q : ℚ} {m m' : ℕ} {e e' : ℤ} {hm : 0 < m} {hm' : 0 < m'}

theorem le_targetExponent (m : ℕ) (e : ℤ) (h : 52 ≤ m.log2 ∨ e ≤ minExponent) :
    e ≤ Format.binary64.targetExponent (totalExponent m e) := by
  rw [targetExponent_eq]
  omega

theorem nearest_mul (hfull : 2 ^ 52 ≤ m * m') : Nearest ((m : ℚ) * 2 ^ e * (m' * 2 ^ e'))
    (ofUnpacked (Float.Model.pack (UnpackedFloat.mul .binary64 (.finite .positive m e hm)
      (.finite .positive m' e' hm'))).unpack) := by
  have hlog : 52 ≤ (m * m').log2 := (Nat.le_log2 (by omega)).2 hfull
  refine nearest_roundWithAccuracy (le_targetExponent _ _ (.inl hlog)) ?_
  have hq : (m : ℚ) * 2 ^ e * (m' * 2 ^ e') / 2 ^ (e + e') = (m * m' : ℕ) := by
    rw [zpow_add₀ two_ne_zero]
    push_cast
    field_simp
  rw [hq]
  exact represents_exact _

theorem two_pow_le_div {k : ℕ} (hm : 0 < m) (hm' : 0 < m') (h : 53 + m'.log2 ≤ m.log2 + k) :
    2 ^ 52 ≤ m * 2 ^ k / m' := by
  rw [Nat.le_div_iff_mul_le hm']
  calc 2 ^ 52 * m' ≤ 2 ^ 52 * 2 ^ (m'.log2 + 1) := Nat.mul_le_mul_left _ Nat.lt_log2_self.le
    _ = 2 ^ (53 + m'.log2) := by rw [← pow_add]; congr 1; omega
    _ ≤ 2 ^ (m.log2 + k) := Nat.pow_le_pow_right two_pos h
    _ = 2 ^ m.log2 * 2 ^ k := pow_add ..
    _ ≤ m * 2 ^ k := Nat.mul_le_mul_right _ (Nat.log2_self_le hm.ne')

theorem div_eq_div_add_mod (m d : ℕ) (hd : 0 < d) :
    (m : ℚ) / d = (m / d : ℕ) + (m % d : ℕ) / d := by
  have hne : (d : ℚ) ≠ 0 := Nat.cast_ne_zero.2 hd.ne'
  rw [div_eq_iff hne, add_mul, div_mul_cancel₀ _ hne]
  exact_mod_cast (Nat.div_add_mod' m d).symm

theorem represents_divCore (e e' : ℤ) (hm : 0 < m) (hm' : 0 < m') :
    ∃ M E a, divCore .binary64 m e m' e' = (M, E, a) ∧
      E ≤ Format.binary64.targetExponent (totalExponent M E) ∧
      Represents (.ofMantissaAndAccuracy M a) ((m : ℚ) * 2 ^ e / (m' * 2 ^ e') / 2 ^ E) := by
  obtain ⟨E, hE⟩ : ∃ E, min (e - e') (Format.binary64.targetExponent
      (totalExponent m e - totalExponent m' e')) = E := ⟨_, rfl⟩
  obtain ⟨k, hk⟩ : ∃ k : ℕ, e - e' - E = k := ⟨(e - e' - E).toNat, by omega⟩
  have hcore : divCore .binary64 m e m' e' =
      (m * 2 ^ k / m', E, accuracyOfFraction (m * 2 ^ k % m') m') := by
    rw [divCore, hE, hk, Int.toNat_natCast, Nat.shiftLeft_eq]
  refine ⟨_, _, _, hcore, le_targetExponent _ _ ?_, ?_⟩
  · refine or_iff_not_imp_right.2 fun hmin => ?_
    have hlog : 53 + m'.log2 ≤ m.log2 + k := by
      have hbits : Format.binary64.mantissaBits = 53 := rfl
      have hleast : Format.binary64.minExponent = minExponent := by decide
      rw [Format.targetExponent, totalExponent, totalExponent, hbits, hleast] at hE
      omega
    have hfull := two_pow_le_div hm hm' hlog
    exact (Nat.le_log2 (by omega)).2 hfull
  · have hexp : e = E + k + e' := by omega
    have hq : (m : ℚ) * 2 ^ e / (m' * 2 ^ e') / 2 ^ E = (m * 2 ^ k : ℕ) / m' := by
      rw [hexp, zpow_add₀ two_ne_zero, zpow_add₀ two_ne_zero, zpow_natCast]
      push_cast
      field_simp
    rw [hq, div_eq_div_add_mod _ _ hm']
    exact represents_fraction _ (Nat.mod_lt _ hm')

theorem nearest_div : Nearest ((m : ℚ) * 2 ^ e / (m' * 2 ^ e'))
    (ofUnpacked (Float.Model.pack (UnpackedFloat.div .binary64 (.finite .positive m e hm)
      (.finite .positive m' e' hm'))).unpack) := by
  obtain ⟨M, E, a, hcore, hE, hrep⟩ := represents_divCore e e' hm hm'
  rw [UnpackedFloat.div, hcore]
  exact nearest_roundWithAccuracy hE hrep

theorem unpack_eq_of_ofFloat (h : ofFloat x = .finite false m e) (hm : 0 < m) :
    x.toModel.unpack = .finite .positive m e hm := by
  rw [ofFloat_eq] at h
  cases hu : x.toModel.unpack with
  | notANumber => rw [hu] at h; cases h
  | infinity s => rw [hu] at h; cases h
  | zero s =>
    rw [hu] at h
    obtain ⟨-, rfl, -⟩ := Binary64.finite.inj h
    exact absurd hm (lt_irrefl 0)
  | finite s m' e' hm' =>
    rw [hu] at h
    obtain ⟨hs, rfl, rfl⟩ := Binary64.finite.inj h
    cases s with
    | positive => rfl
    | negative => cases hs

theorem nearest_float_mul (hx : ofFloat x = .finite false m e)
    (hy : ofFloat y = .finite false m' e') (hm : 0 < m) (hfull : 2 ^ 52 ≤ m') :
    Nearest ((m : ℚ) * 2 ^ e * (m' * 2 ^ e')) (ofFloat (x * y)) := by
  have hm' : 0 < m' := (Nat.two_pow_pos 52).trans_le hfull
  have hmul : (x * y).toModel =
      Float.Model.pack (UnpackedFloat.mul .binary64 x.toModel.unpack y.toModel.unpack) := rfl
  rw [ofFloat_eq, hmul, unpack_eq_of_ofFloat hx hm, unpack_eq_of_ofFloat hy hm']
  exact nearest_mul (hfull.trans (Nat.le_mul_of_pos_left m' hm))

theorem nearest_float_div (hx : ofFloat x = .finite false m e)
    (hy : ofFloat y = .finite false m' e') (hm : 0 < m) (hm' : 0 < m') :
    Nearest ((m : ℚ) * 2 ^ e / (m' * 2 ^ e')) (ofFloat (x / y)) := by
  have hdiv : (x / y).toModel =
      Float.Model.pack (UnpackedFloat.div .binary64 x.toModel.unpack y.toModel.unpack) := rfl
  rw [ofFloat_eq, hdiv, unpack_eq_of_ofFloat hx hm, unpack_eq_of_ofFloat hy hm']
  exact nearest_div

/-- What is not beyond the half of the least double is rounded to zero. -/
theorem nearest_zero (h0 : 0 ≤ q) (h : q ≤ 2 ^ (minExponent - 1)) :
    Nearest q (.finite false 0 minExponent) := by
  have hpos : (0 : ℚ) < 2 ^ minExponent := zpow_pos two_pos _
  have hhalf : q / 2 ^ minExponent ≤ 1 / 2 := by
    rw [div_le_iff₀ hpos]
    rwa [zpow_sub_one₀ two_ne_zero, mul_comm, ← one_div] at h
  have hnonneg : 0 ≤ q / 2 ^ minExponent := div_nonneg h0 hpos.le
  have hscaled : Scaled q minExponent := ⟨le_refl _, .inr rfl, hhalf.trans_lt (by norm_num)⟩
  have hn : RoundsTo (q / 2 ^ minExponent) 0 := by
    refine ⟨?_, fun _ => Even.zero⟩
    rwa [Nat.cast_zero, sub_zero, abs_of_nonneg hnonneg]
  refine hscaled.nearest hn rfl id ?_
  rw [Nat.cast_zero, zero_mul]
  exact pow_pos two_pos 1024

end Operations

section Unsigned
variable {q : ℚ} {x y : Float} {m : ℕ} {e : ℤ} {b : Binary64}

/-- Whether a double is a number without a minus sign. -/
def Unsigned : Binary64 → Prop
  | .nan => False
  | .infinite negative => negative = false
  | .finite negative _ _ => negative = false

theorem Nearest.unsigned (h : Nearest q b) : Unsigned b := by
  cases b with
  | nan => exact h
  | infinite negative => exact h.1
  | finite negative m e => exact h.1

theorem Unsigned.unpack (h : Unsigned (ofFloat x)) : x.toModel.unpack = .infinity .positive ∨
    x.toModel.unpack = .zero .positive ∨
    ∃ m e hm, x.toModel.unpack = .finite .positive m e hm := by
  rw [ofFloat_eq] at h
  generalize x.toModel.unpack = u at h ⊢
  cases u with
  | notANumber => exact h.elim
  | infinity s =>
    cases s with
    | positive => exact .inl rfl
    | negative => cases h
  | zero s =>
    cases s with
    | positive => exact .inr (.inl rfl)
    | negative => cases h
  | finite s m e hm =>
    cases s with
    | positive => exact .inr (.inr ⟨m, e, hm, rfl⟩)
    | negative => cases h

theorem Unsigned.mul (hx : Unsigned (ofFloat x)) (hy : ofFloat y = .finite false m e)
    (hfull : 2 ^ 52 ≤ m) : Unsigned (ofFloat (x * y)) := by
  have hm : 0 < m := (Nat.two_pow_pos 52).trans_le hfull
  have hmul : (x * y).toModel =
      Float.Model.pack (UnpackedFloat.mul .binary64 x.toModel.unpack y.toModel.unpack) := rfl
  rcases hx.unpack with hu | hu | ⟨m', e', hm', hu⟩
  · rw [ofFloat_eq, hmul, hu, unpack_eq_of_ofFloat hy hm, UnpackedFloat.mul, unpack_pack_infinity]
    rfl
  · rw [ofFloat_eq, hmul, hu, unpack_eq_of_ofFloat hy hm, UnpackedFloat.mul, unpack_pack_zero]
    rfl
  · have hx' : ofFloat x = .finite false m' e' := by
      rw [ofFloat_eq, hu]
      rfl
    exact (nearest_float_mul hx' hy hm' hfull).unsigned

end Unsigned

end SimCampaign.Binary64
