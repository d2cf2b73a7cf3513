import SimCampaign.Decimal.Reader
import SimCampaign.Proofs.Binary64.Nearest

/-! Decimal text is read as the nearest double. -/

namespace SimCampaign.Decimal
open Binary64 (Nearest overflow nearest_mul nearest_div nearest_zero ofUnpacked)
open Float.Model (Format UnpackedFloat)

section Digits
variable {ds : List Char}

def Digits (ds : List Char) : Prop := ∀ c ∈ ds, c.isDigit = true

theorem foldl_digits (before : ℕ) (ds : List Char) :
    ds.foldl (fun n c => 10 * n + (c.toNat - '0'.toNat)) before =
      before * 10 ^ ds.length + natOfDigits ds := by
  induction ds generalizing before with
  | nil => simp [natOfDigits]
  | cons c ds ih =>
    rw [natOfDigits, List.foldl_cons, List.foldl_cons, ih, ih, List.length_cons, pow_succ]
    ring

theorem natOfDigits_append (ds es : List Char) :
    natOfDigits (ds ++ es) = natOfDigits ds * 10 ^ es.length + natOfDigits es := by
  rw [natOfDigits, List.foldl_append, foldl_digits]
  rfl

theorem bounds_of_isDigit {c : Char} (h : c.isDigit = true) :
    '0'.toNat ≤ c.toNat ∧ c.toNat ≤ '9'.toNat := by
  rwa [Char.isDigit, Bool.and_eq_true, decide_eq_true_eq, decide_eq_true_eq] at h

theorem natOfDigits_lt (h : Digits ds) : natOfDigits ds < 10 ^ ds.length := by
  induction ds with
  | nil => decide
  | cons c ds ih =>
    obtain ⟨hc, hds⟩ := List.forall_mem_cons.1 h
    have hlt := ih hds
    have hdigit : c.toNat - '0'.toNat ≤ 9 := Nat.sub_le_sub_right (bounds_of_isDigit hc).2 _
    have hcons := natOfDigits_append [c] ds
    have hone : natOfDigits [c] = c.toNat - '0'.toNat := by simp [natOfDigits]
    rw [List.singleton_append, hone] at hcons
    rw [hcons, List.length_cons, pow_succ]
    nlinarith

end Digits

section Scientific
variable {m k : ℕ} {e : ℤ}

theorem two_zpow_le_ten_zpow (h : 0 ≤ e) : (2 : ℚ) ^ (3 * e) ≤ 10 ^ e := by
  rw [zpow_mul]
  exact zpow_le_zpow_left₀ h (by norm_num) (by norm_num)

theorem ten_zpow_le_two_zpow (h : e ≤ 0) : (10 : ℚ) ^ e ≤ 2 ^ (3 * e) := by
  have hle := inv_anti₀ (zpow_pos two_pos _) (two_zpow_le_ten_zpow (neg_nonneg.2 h))
  rwa [mul_neg, zpow_neg, zpow_neg, inv_inv, inv_inv] at hle

/-- Numbers of so many digits before the point are beyond the doubles. -/
theorem overflow_le_mul_ten_zpow (hm : 0 < m) (he : 400 ≤ e) : overflow ≤ (m : ℚ) * 10 ^ e := by
  have hone : (1 : ℚ) ≤ m := by exact_mod_cast hm
  have hpow : (2 : ℚ) ^ (1024 : ℤ) ≤ 2 ^ (3 * e) := zpow_le_zpow_right₀ one_le_two (by omega)
  have hten := two_zpow_le_ten_zpow (show 0 ≤ e by omega)
  calc overflow ≤ 2 ^ 1024 := sub_le_self _ (pow_pos two_pos 970).le
    _ = 2 ^ (1024 : ℤ) := (zpow_natCast 2 1024).symm
    _ ≤ 10 ^ e := hpow.trans hten
    _ ≤ m * 10 ^ e := le_mul_of_one_le_left (zpow_pos (by norm_num) e).le hone

/-- Numbers of so few digits are not beyond the half of the least double. -/
theorem mul_ten_zpow_le (hm : m < 10 ^ k) (he : e + k ≤ -400) :
    (m : ℚ) * 10 ^ e ≤ 2 ^ (Binary64.minExponent - 1) := by
  have hle : (m : ℚ) ≤ 10 ^ k := by exact_mod_cast hm.le
  have hmin : Binary64.minExponent = -1074 := rfl
  calc (m : ℚ) * 10 ^ e ≤ 10 ^ k * 10 ^ e :=
        mul_le_mul_of_nonneg_right hle (zpow_pos (by norm_num) e).le
    _ = 10 ^ (e + k) := by rw [zpow_add₀ (by norm_num), zpow_natCast, mul_comm]
    _ ≤ 2 ^ (3 * (e + k)) := ten_zpow_le_two_zpow (by omega)
    _ ≤ 2 ^ (Binary64.minExponent - 1) := zpow_le_zpow_right₀ one_le_two (by omega)

theorem nearest_of_small (hm : m < 10 ^ k) (he : e + k ≤ -400) :
    Nearest ((m : ℚ) * 10 ^ e) (.finite false 0 Binary64.minExponent) :=
  nearest_zero (mul_nonneg m.cast_nonneg (zpow_pos (by norm_num) e).le) (mul_ten_zpow_le hm he)

theorem mul_two_zpow_neg (m k : ℕ) : ((m <<< k : ℕ) : ℚ) * 2 ^ (-(k : ℤ)) = m := by
  rw [Nat.shiftLeft_eq, zpow_neg, zpow_natCast]
  push_cast
  exact mul_inv_cancel_right₀ (pow_ne_zero _ two_ne_zero) _

theorem nearest_model_ofScientific (hm : 0 < m) (e : ℤ) :
    Nearest ((m : ℚ) * 10 ^ e) (ofUnpacked (Float.Model.ofScientific m e).unpack) := by
  have hbits : Format.binary64.exponentBits = 11 := rfl
  rw [Float.Model.ofScientific, UnpackedFloat.ofScientific, dif_neg hm.ne', hbits]
  split_ifs with hlarge hsmall hnonneg
  · rw [Binary64.unpack_pack_infinity]
    exact ⟨rfl, overflow_le_mul_ten_zpow hm (by omega)⟩
  · rw [Binary64.unpack_pack_zero]
    have hlt : m < 10 ^ (m.log2 + 1) :=
      Nat.lt_log2_self.trans_le (Nat.pow_le_pow_left (by decide) _)
    exact nearest_of_small hlt (by push_cast; omega)
  · have hten : (10 : ℚ) ^ e = (10 ^ e.toNat : ℕ) := by
      push_cast
      rw [← zpow_natCast, Int.toNat_of_nonneg hnonneg]
    rw [← mul_two_zpow_neg m Format.binary64.mantissaBits, hten, ← mul_one ((10 ^ e.toNat : ℕ) : ℚ),
      ← zpow_zero (2 : ℚ)]
    refine nearest_mul ?_
    have hbits : Format.binary64.mantissaBits = 53 := rfl
    have hpos : 0 < 10 ^ e.toNat := Nat.pow_pos (by decide)
    rw [hbits, Nat.shiftLeft_eq]
    calc 2 ^ 52 ≤ 1 * 2 ^ 53 * 1 := by decide
      _ ≤ m * 2 ^ 53 * 10 ^ e.toNat := Nat.mul_le_mul (Nat.mul_le_mul_right _ hm) hpos
  · have hten : (m : ℚ) * 10 ^ e = m * 2 ^ (0 : ℤ) / ((10 ^ (-e).toNat : ℕ) * 2 ^ (0 : ℤ)) := by
      have hexp : e = -((-e).toNat : ℤ) := by omega
      push_cast
      rw [mul_one, mul_one, div_eq_mul_inv, ← zpow_natCast, ← zpow_neg, ← hexp]
    rw [hten]
    exact nearest_div

theorem ofFloat_powerOfTen : ∀ k : Fin 23,
    Binary64.ofFloat Float.exactlyRepresentablePowersOfTen[k] =
      .finite false (5 ^ k.val * 2 ^ (52 - (5 ^ k.val).log2)) ((5 ^ k.val).log2 + k - 52) := by
  decide +kernel

theorem ofFloat_toFloat (hm : 0 < m) (hlt : m < 2 ^ 53) :
    Binary64.ofFloat m.toUInt64.toFloat =
      .finite false (m * 2 ^ (52 - m.log2)) (m.log2 - 52) := by
  obtain ⟨hpos, hu, -⟩ := Binary64.unpack_toFloat hm hlt
  rw [Binary64.ofFloat_eq, hu]
  rfl

theorem powerOfTen_eq (hk : k < 23) : ((5 ^ k * 2 ^ (52 - (5 ^ k).log2) : ℕ) : ℚ) *
    2 ^ ((5 ^ k).log2 + k - 52 : ℤ) = 10 ^ k := by
  have hlt : 5 ^ k < 2 ^ 53 :=
    (Nat.pow_le_pow_right (by decide) (Nat.lt_succ_iff.1 hk)).trans_lt (by decide)
  have hpow := Binary64.mul_two_pow_mul_zpow (Nat.pow_pos (by decide : 0 < 5)) hlt
  have hexp : ((5 ^ k).log2 + k - 52 : ℤ) = (5 ^ k).log2 - 52 + k := by ring
  rw [hexp, zpow_add₀ two_ne_zero, ← mul_assoc, hpow, zpow_natCast]
  push_cast
  rw [← mul_pow]
  norm_num

theorem nearest_ofScientific (hm : 0 < m) (negative : Bool) (k : ℕ) :
    Nearest ((m : ℚ) * 10 ^ (if negative then -(k : ℤ) else k))
      (Binary64.ofFloat (Float.ofScientific m negative k)) := by
  by_cases hfast : m < 2 ^ 53 ∧ k ≤ 22
  · -- Both numbers can be held, so one product or quotient is all that is rounded.
    obtain ⟨hlt, hk⟩ := hfast
    have hk' : k < 23 := Nat.lt_succ_of_le hk
    have hx := ofFloat_toFloat hm hlt
    have hxpos : 0 < m * 2 ^ (52 - m.log2) := Nat.mul_pos hm (Nat.two_pow_pos _)
    have hy := ofFloat_powerOfTen ⟨k, hk'⟩
    have hypos : 0 < 5 ^ k * 2 ^ (52 - (5 ^ k).log2) :=
      Nat.mul_pos (Nat.pow_pos (by decide)) (Nat.two_pow_pos _)
    have hfull := Binary64.two_pow_le_mul (Nat.pow_pos (by decide : 0 < 5) : 0 < 5 ^ k)
    rw [Float.ofScientific, dif_pos ⟨hlt, hk⟩]
    cases negative with
    | false =>
      have hnearest := Binary64.nearest_float_mul hx hy hxpos hfull
      rw [Binary64.mul_two_pow_mul_zpow hm hlt, powerOfTen_eq hk'] at hnearest
      simpa using hnearest
    | true =>
      have hnearest := Binary64.nearest_float_div hx hy hxpos hypos
      rw [Binary64.mul_two_pow_mul_zpow hm hlt, powerOfTen_eq hk'] at hnearest
      simpa [div_eq_mul_inv] using hnearest
  · have hnearest := nearest_model_ofScientific hm (if negative then -(k : ℤ) else k)
    rw [Binary64.ofFloat_eq, Float.ofScientific, dif_neg hfast]
    cases negative <;> exact hnearest

end Scientific

section Numerals
variable {n : Numeral}

def Numeral.value (n : Numeral) : ℚ :=
  natOfDigits (n.whole ++ n.fraction) * 10 ^ (n.exponent - n.fraction.length)

theorem Numeral.nearest_toFloat (h : Digits (n.whole ++ n.fraction)) :
    Nearest n.value (Binary64.ofFloat n.toFloat) := by
  have hzero : Binary64.ofFloat 0.0 = .finite false 0 Binary64.minExponent := by decide +kernel
  have hinfinite : Binary64.ofFloat (1.0 / 0.0) = .infinite false := by decide +kernel
  have hlt := natOfDigits_lt h
  rw [List.length_append] at hlt
  rw [value, toFloat]
  generalize natOfDigits (n.whole ++ n.fraction) = digits at hlt
  split_ifs with h0 hsmall hlarge
  · rw [hzero, h0, Nat.cast_zero, zero_mul]
    exact nearest_zero (le_refl _) (zpow_pos two_pos _).le
  · rw [hzero]
    exact nearest_of_small hlt (by omega)
  · rw [hinfinite]
    exact ⟨rfl, overflow_le_mul_ten_zpow (Nat.pos_of_ne_zero h0) (by omega)⟩
  · have hnearest := nearest_ofScientific (Nat.pos_of_ne_zero h0)
      (n.exponent - n.fraction.length < 0) (n.exponent - n.fraction.length).natAbs
    have hexp : (if decide (n.exponent - n.fraction.length < 0) = true
        then -((n.exponent - n.fraction.length).natAbs : ℤ)
        else (n.exponent - n.fraction.length).natAbs) = n.exponent - n.fraction.length := by
      split_ifs with hneg <;> rw [decide_eq_true_eq] at hneg <;> omega
    rwa [hexp] at hnearest

end Numerals

section Plain
variable {d w f cs : List Char} {q : ℚ}

/-- Whether a text has no characters but digits and points. -/
def Plain (d : List Char) : Prop := ∀ c ∈ d, c.isDigit = true ∨ c = '.'

/-- Digits with at most one point and at least one digit, and the number that they stand for. -/
inductive Writes : List Char → ℚ → Prop
  | whole {w : List Char} (hne : w ≠ []) (hw : Digits w) : Writes w (natOfDigits w)
  | pointed {w f : List Char} (hne : ¬ (w = [] ∧ f = [])) (hw : Digits w) (hf : Digits f) :
    Writes (w ++ '.' :: f) (natOfDigits w + natOfDigits f / 10 ^ f.length)

theorem Plain.cases (h : Plain d) : Digits d ∨
    (∃ w f, d = w ++ '.' :: f ∧ Digits w ∧ Digits f) ∨
    ∃ w f cs, d = w ++ '.' :: (f ++ '.' :: cs) ∧ Digits w ∧ Digits f := by
  induction d with
  | nil => exact .inl fun _ hc => nomatch hc
  | cons c d ih =>
    obtain ⟨hc, hd⟩ := List.forall_mem_cons.1 h
    rcases hc with hc | rfl
    · have hcons {w : List Char} (hw : Digits w) : Digits (c :: w) :=
        List.forall_mem_cons.2 ⟨hc, hw⟩
      rcases ih hd with hw | ⟨w, f, rfl, hw, hf⟩ | ⟨w, f, cs, rfl, hw, hf⟩
      · exact .inl (hcons hw)
      · exact .inr (.inl ⟨c :: w, f, rfl, hcons hw, hf⟩)
      · exact .inr (.inr ⟨c :: w, f, cs, rfl, hcons hw, hf⟩)
    · have hnil : Digits [] := fun _ hc => nomatch hc
      rcases ih hd with hw | ⟨w, f, rfl, hw, -⟩ | ⟨w, f, cs, rfl, hw, -⟩
      · exact .inr (.inl ⟨[], d, rfl, hnil, hw⟩)
      · exact .inr (.inr ⟨[], w, f, rfl, hnil, hw⟩)
      · exact .inr (.inr ⟨[], w, _, rfl, hnil, hw⟩)

theorem spanDigits_digits (hw : Digits w) : spanDigits w = (w, []) := by
  rw [spanDigits, List.takeWhile_eq_self_iff.2 hw, List.dropWhile_eq_nil_iff.2 hw]

theorem spanDigits_point (hw : Digits w) (cs : List Char) :
    spanDigits (w ++ '.' :: cs) = (w, '.' :: cs) := by
  rw [spanDigits, List.takeWhile_append_of_pos hw, List.dropWhile_append_of_pos hw,
    List.takeWhile_cons_of_neg (by decide), List.dropWhile_cons_of_neg (by decide), List.append_nil]

theorem numeral?_digits (hne : w ≠ []) (hw : Digits w) : numeral? w = some ⟨w, [], 0⟩ := by
  simp [numeral?, spanDigits_digits hw, hne]

theorem numeral?_point (hne : ¬ (w = [] ∧ f = [])) (hw : Digits w) (hf : Digits f) :
    numeral? (w ++ '.' :: f) = some ⟨w, f, 0⟩ := by
  simp [numeral?, spanDigits_point hw, spanDigits_digits hf, hne]

theorem numeral?_two_points (hw : Digits w) (hf : Digits f) (cs : List Char) :
    numeral? (w ++ '.' :: (f ++ '.' :: cs)) = none := by
  simp [numeral?, spanDigits_point hw, spanDigits_point hf]

theorem toLower_of_plain {c : Char} (h : c.isDigit = true ∨ c = '.') : c.toLower = c := by
  apply Char.toLower_eq_of_not_isUpper
  rcases h with hc | rfl
  · intro hu
    have hle : c.toNat ≤ '9'.toNat := (bounds_of_isDigit hc).2
    have hge : 'A'.toNat ≤ c.toNat := (of_decide_eq_true hu).1
    exact absurd (hge.trans hle) (by decide)
  · decide

theorem float?_plain (h : Plain d) : float? d = (numeral? d).map Numeral.toFloat := by
  have hlower : asciiLower d = d := by
    rw [asciiLower, List.map_congr_left fun c hc => toLower_of_plain (h c hc), List.map_id']
  have hname {name : List Char} (c : Char) (hc : c ∈ name)
      (hplain : ¬ (c.isDigit = true ∨ c = '.')) : d ≠ name := by
    rintro rfl
    exact hplain (h c hc)
  have hunsigned : unsigned? d = (numeral? d).map Numeral.toFloat := by
    rw [unsigned?, hlower, if_neg (hname 'n' (by decide) (by decide)), if_neg]
    rintro (hinf | hinf)
    · exact hname 'i' (by decide) (by decide) hinf
    · exact hname 'i' (by decide) (by decide) hinf
  rw [float?, hunsigned]
  · exact fun cs => hname '-' List.mem_cons_self (by decide)
  · exact fun cs => hname '+' List.mem_cons_self (by decide)

theorem float?_digits (hne : w ≠ []) (hw : Digits w) :
    float? w = some (Numeral.toFloat ⟨w, [], 0⟩) := by
  rw [float?_plain fun c hc => .inl (hw c hc), numeral?_digits hne hw, Option.map_some]

theorem plain_point (hw : Digits w) (hcs : Plain cs) : Plain (w ++ '.' :: cs) :=
  List.forall_mem_append.2 ⟨fun c hc => .inl (hw c hc), List.forall_mem_cons.2 ⟨.inr rfl, hcs⟩⟩

theorem float?_of_writes (h : Writes d q) :
    ∃ x, float? d = some x ∧ Nearest q (Binary64.ofFloat x) := by
  cases h with
  | whole hne hw =>
    have hnearest := Numeral.nearest_toFloat (n := ⟨d, [], 0⟩) (by rwa [List.append_nil])
    have hvalue : Numeral.value ⟨d, [], 0⟩ = natOfDigits d := by simp [Numeral.value]
    exact ⟨_, float?_digits hne hw, hvalue ▸ hnearest⟩
  | @pointed w f hne hw hf =>
    have hnearest := Numeral.nearest_toFloat (n := ⟨w, f, 0⟩) (List.forall_mem_append.2 ⟨hw, hf⟩)
    have hvalue : Numeral.value ⟨w, f, 0⟩ = natOfDigits w + natOfDigits f / 10 ^ f.length := by
      rw [Numeral.value, natOfDigits_append, zero_sub, zpow_neg, zpow_natCast]
      push_cast
      field_simp
    refine ⟨_, ?_, hvalue ▸ hnearest⟩
    rw [float?_plain (plain_point hw fun c hc => .inl (hf c hc)), numeral?_point hne hw hf,
      Option.map_some]

/-- Of the plain texts, those are read that write a number. -/
theorem exists_writes_of_float? {x : Float} (h : Plain d) (hx : float? d = some x) :
    ∃ q, Writes d q := by
  rw [float?_plain h] at hx
  rcases h.cases with hw | ⟨w, f, rfl, hw, hf⟩ | ⟨w, f, cs, rfl, hw, hf⟩
  · refine ⟨_, .whole ?_ hw⟩
    rintro rfl
    cases hx
  · refine ⟨_, .pointed ?_ hw hf⟩
    rintro ⟨rfl, rfl⟩
    cases hx
  · rw [numeral?_two_points hw hf] at hx
    cases hx

theorem exists_writes_iff : (∃ q, Writes d q) ↔
    Plain d ∧ d.count '.' ≤ 1 ∧ ∃ c ∈ d, c.isDigit = true := by
  have hcount {w : List Char} (hw : Digits w) : w.count '.' = 0 :=
    List.count_eq_zero.2 fun hc => absurd (hw _ hc) (by decide)
  have hdigit {w : List Char} (hne : w ≠ []) (hw : Digits w) : ∃ c ∈ w, c.isDigit = true :=
    (List.exists_mem_of_ne_nil w hne).imp fun c hc => ⟨hc, hw c hc⟩
  constructor
  · rintro ⟨q, h⟩
    cases h with
    | whole hne hw =>
      exact ⟨fun c hc => .inl (hw c hc), (hcount hw).le.trans (Nat.zero_le 1), hdigit hne hw⟩
    | pointed hne hw hf =>
      refine ⟨plain_point hw fun c hc => .inl (hf c hc), ?_, ?_⟩
      · rw [List.count_append, List.count_cons_self, hcount hw, hcount hf]
      · rcases not_and_or.1 hne with hne | hne
        · obtain ⟨c, hc, hd⟩ := hdigit hne hw
          exact ⟨c, List.mem_append_left _ hc, hd⟩
        · obtain ⟨c, hc, hd⟩ := hdigit hne hf
          exact ⟨c, List.mem_append_right _ (List.mem_cons_of_mem _ hc), hd⟩
  · rintro ⟨hplain, hone, c, hc, hd⟩
    rcases hplain.cases with hw | ⟨w, f, rfl, hw, hf⟩ | ⟨w, f, cs, rfl, hw, hf⟩
    · exact ⟨_, .whole (List.ne_nil_of_mem hc) hw⟩
    · refine ⟨_, .pointed ?_ hw hf⟩
      rintro ⟨rfl, rfl⟩
      obtain rfl := List.mem_singleton.1 hc
      exact absurd hd (by decide)
    · rw [List.count_append, List.count_cons_self, List.count_append, List.count_cons_self] at hone
      omega

end Plain

end SimCampaign.Decimal
