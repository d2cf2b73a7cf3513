import SimCampaign.Proofs.Binary64.Rounding

/-! Arithmetic of doubles: what is undefined stays undefined, numbers are equal if their values are,
and a difference is zero only of equal numbers. -/

namespace SimCampaign.Binary64
open Float.Model (Format UnpackedFloat)
open Float.Model.UnpackedFloat (Sign Accuracy decreaseExponent roundWithAccuracy)

section Undefined
variable {x y : Float}

/-- Whether an operation has no result as soon as one of its operands is no number. -/
def Strict (op : UnpackedFloat → UnpackedFloat → UnpackedFloat) : Prop :=
  ∀ u, op .notANumber u = .notANumber ∧ op u .notANumber = .notANumber

theorem strict_add : Strict (UnpackedFloat.add .binary64) := fun u => by
  cases u <;> exact ⟨rfl, rfl⟩

theorem strict_sub : Strict (UnpackedFloat.sub .binary64) := fun u => by
  cases u <;> exact ⟨rfl, rfl⟩

theorem strict_mul : Strict (UnpackedFloat.mul .binary64) := fun u => by
  cases u <;> exact ⟨rfl, rfl⟩

theorem strict_div : Strict (UnpackedFloat.div .binary64) := fun u => by
  cases u <;> exact ⟨rfl, rfl⟩

theorem isNaN_iff_unpack : x.isNaN = true ↔ x.toModel.unpack = .notANumber := by
  change x.toModel.unpack.isNaN = true ↔ _
  cases x.toModel.unpack <;> simp [UnpackedFloat.isNaN]

theorem isNaN_of_strict {op : UnpackedFloat → UnpackedFloat → UnpackedFloat} (hop : Strict op)
    (h : x.isNaN = true ∨ y.isNaN = true) :
    (Float.ofModel (.pack (op x.toModel.unpack y.toModel.unpack))).isNaN = true := by
  have hundefined : op x.toModel.unpack y.toModel.unpack = .notANumber := by
    rcases h with hx | hy
    · rw [isNaN_iff_unpack.1 hx]
      exact (hop _).1
    · rw [isNaN_iff_unpack.1 hy]
      exact (hop _).2
  rw [hundefined]
  rfl

theorem isNaN_add (h : x.isNaN = true ∨ y.isNaN = true) : (x + y).isNaN = true :=
  isNaN_of_strict strict_add h

theorem isNaN_sub (h : x.isNaN = true ∨ y.isNaN = true) : (x - y).isNaN = true :=
  isNaN_of_strict strict_sub h

theorem isNaN_mul (h : x.isNaN = true ∨ y.isNaN = true) : (x * y).isNaN = true :=
  isNaN_of_strict strict_mul h

theorem isNaN_div (h : x.isNaN = true ∨ y.isNaN = true) : (x / y).isNaN = true :=
  isNaN_of_strict strict_div h

theorem isNaN_sqrt (h : x.isNaN = true) : x.sqrt.isNaN = true := by
  change (Float.Model.pack (UnpackedFloat.sqrt .binary64 x.toModel.unpack)).unpack.isNaN = true
  rw [isNaN_iff_unpack.1 h]
  rfl

end Undefined

section Unpacked
variable {u v : UnpackedFloat} {s s' : Sign} {m m' : ℕ} {e e' : ℤ} {hm : 0 < m} {hm' : 0 < m'}
  {p q : ℚ}

/-- Whether a double is held with this significand and exponent, if it is finite and not zero. -/
def Held : UnpackedFloat → Prop
  | .finite _ m e _ => Canonical m e ∧ e ≤ maxExponent
  | _ => True

theorem held_unpack (x : Float.Model) : Held x.unpack := by
  cases hu : x.unpack with
  | finite s m e hm => exact canonical_unpack hu
  | _ => trivial

theorem value?_zero (s : Sign) : (ofUnpacked (.zero s)).value? = some 0 := by
  cases s <;> simp [ofUnpacked, value?]

theorem value?_finite (s : Sign) (m : ℕ) (e : ℤ) (hm : 0 < m) :
    (ofUnpacked (.finite s m e hm)).value? = some ((s.apply m : ℚ) * 2 ^ e) := by
  cases s <;> simp [ofUnpacked, value?, Sign.apply]

theorem apply_ne_zero (s : Sign) (hm : 0 < m) : (s.apply m : ℚ) * 2 ^ e ≠ 0 := by
  refine mul_ne_zero ?_ (zpow_ne_zero e two_ne_zero)
  cases s <;> simp [Sign.apply, hm.ne']

theorem apply_mul_inj (hm : 0 < m) (hm' : 0 < m') :
    (s.apply m : ℚ) * 2 ^ e = s'.apply m' * 2 ^ e' ↔ s = s' ∧ (m : ℚ) * 2 ^ e = m' * 2 ^ e' := by
  have hpos : (0 : ℚ) < m * 2 ^ e := by positivity
  have hpos' : (0 : ℚ) < m' * 2 ^ e' := by positivity
  cases s <;> cases s' <;> simp only [Sign.apply, Int.cast_neg, Int.cast_natCast, neg_mul,
    neg_inj, true_and, reduceCtorEq, false_and, iff_false]
  all_goals linarith

/-- Two unpacked doubles are equal as numbers if they are the same number, or zero both. -/
theorem compare_eq_some_eq_iff : UnpackedFloat.compare u v = some .eq ↔
    (u = v ∧ u.isNaN = false) ∨ ∃ s s', u = .zero s ∧ v = .zero s' := by
  cases u with
  | notANumber => simp [UnpackedFloat.compare, UnpackedFloat.isNaN]
  | infinity s =>
    cases v with
    | notANumber => simp [UnpackedFloat.compare]
    | infinity s' =>
      cases s <;> cases s' <;> simp [UnpackedFloat.compare, UnpackedFloat.isNaN]
      all_goals rfl
    | zero s' => cases s <;> simp [UnpackedFloat.compare]
    | finite s' m' e' hm' => cases s <;> cases s' <;> simp [UnpackedFloat.compare]
  | zero s =>
    cases v with
    | notANumber => simp [UnpackedFloat.compare]
    | infinity s' => cases s' <;> simp [UnpackedFloat.compare]
    | zero s' => simp [UnpackedFloat.compare]
    | finite s' m' e' hm' => cases s' <;> simp [UnpackedFloat.compare]
  | finite s m e hm =>
    cases v with
    | notANumber => simp [UnpackedFloat.compare]
    | infinity s' => cases s <;> cases s' <;> simp [UnpackedFloat.compare]
    | zero s' => cases s <;> simp [UnpackedFloat.compare]
    | finite s' m' e' hm' =>
      have hsame : (compare e e').then (compare m m') = .eq ↔ m = m' ∧ e = e' := by
        rw [Ordering.then_eq_eq, compare_eq_iff_eq, compare_eq_iff_eq, and_comm]
      cases s <;> cases s' <;> simp [UnpackedFloat.compare, UnpackedFloat.isNaN, hsame]

theorem compare_eq_iff (hu : Held u) (hv : Held v) (hp : (ofUnpacked u).value? = some p) :
    UnpackedFloat.compare u v = some .eq ↔ (ofUnpacked v).value? = some p := by
  rw [compare_eq_some_eq_iff]
  constructor
  · rintro (⟨rfl, -⟩ | ⟨s, s', rfl, rfl⟩)
    · exact hp
    · rwa [value?_zero] at hp ⊢
  intro hq
  cases u with
  | notANumber => cases hp
  | infinity s => cases hp
  | zero s =>
    rw [value?_zero, Option.some_inj] at hp
    cases v with
    | notANumber => cases hq
    | infinity s' => cases hq
    | zero s' => exact .inr ⟨s, s', rfl, rfl⟩
    | finite s' m' e' hm' =>
      rw [value?_finite, Option.some_inj, ← hp] at hq
      exact absurd hq (apply_ne_zero s' hm')
  | finite s m e hm =>
    rw [value?_finite, Option.some_inj] at hp
    cases v with
    | notANumber => cases hq
    | infinity s' => cases hq
    | zero s' =>
      rw [value?_zero, Option.some_inj, ← hp] at hq
      exact absurd hq.symm (apply_ne_zero s hm)
    | finite s' m' e' hm' =>
      rw [value?_finite, Option.some_inj, ← hp, apply_mul_inj hm' hm] at hq
      obtain ⟨rfl, hq⟩ := hq
      obtain ⟨rfl, rfl⟩ := hv.1.unique hu.1 hq
      exact .inl ⟨rfl, rfl⟩

theorem apply_decreaseExponent (s : Sign) (m : ℕ) {E : ℤ} (hE : E ≤ e) :
    (s.apply (decreaseExponent m e E).1 : ℚ) * 2 ^ E = s.apply m * 2 ^ e := by
  have hshift : e = (e - E).toNat + E := by omega
  have hpow : (2 : ℚ) ^ e = 2 ^ (e - E).toNat * 2 ^ E := by
    conv_lhs => rw [hshift, zpow_add₀ two_ne_zero, zpow_natCast]
  rw [decreaseExponent, Nat.shiftLeft_eq, hpow]
  cases s <;> simp only [Sign.apply] <;> push_cast <;> ring

/-- Whether an unpacked double is a number other than zero. -/
def Nonzero (u : UnpackedFloat) : Prop := u.isNaN = false ∧ ∀ z, u ≠ .zero z

theorem nonzero_unpack_pack_finite (h : Canonical m e) (s : Sign) (hm : 0 < m) :
    Nonzero (Float.Model.pack (.finite s m e hm)).unpack := by
  rw [unpack_pack_finite h]
  split_ifs <;> exact ⟨rfl, fun _ hz => nomatch hz⟩

theorem nonzero_unpack_pack_infinity (s : Sign) :
    Nonzero (Float.Model.pack (.infinity s)).unpack := by
  rw [unpack_pack_infinity]
  exact ⟨rfl, fun _ hz => nomatch hz⟩

/-- Whether a result is a number, and zero exactly under a condition. -/
def ZeroIff (u : UnpackedFloat) (P : Prop) : Prop := u.isNaN = false ∧ ((∃ z, u = .zero z) ↔ P)

theorem Nonzero.zeroIff {P : Prop} (h : Nonzero u) (hP : ¬ P) : ZeroIff u P :=
  ⟨h.1, iff_of_false (fun ⟨z, hz⟩ => h.2 z hz) hP⟩

theorem zeroIff_zero {P : Prop} (hP : P) (z : Sign) :
    ZeroIff (Float.Model.pack (.zero z)).unpack P := by
  rw [unpack_pack_zero]
  exact ⟨rfl, iff_of_true ⟨z, rfl⟩ hP⟩

theorem zeroIff_normalize (n : ℤ) {E : ℤ} (hE : minExponent ≤ E) (z : Sign) :
    ZeroIff (Float.Model.pack (UnpackedFloat.normalize .binary64 n E z)).unpack (n = 0) := by
  by_cases hn : n = 0
  · rw [hn]
    exact zeroIff_zero rfl z
  · obtain ⟨s, m, e, hm, hr, hc⟩ := exists_normalize hn hE z
    rw [hr]
    exact (nonzero_unpack_pack_finite hc s hm).zeroIff hn

theorem apply_decreaseExponent_sub_eq_zero_iff {E : ℤ} (hE : E ≤ e) (hE' : E ≤ e') :
    s.apply (decreaseExponent m e E).1 - s'.apply (decreaseExponent m' e' E).1 = 0 ↔
      (s'.apply m' : ℚ) * 2 ^ e' = s.apply m * 2 ^ e := by
  rw [← apply_decreaseExponent s m hE, ← apply_decreaseExponent s' m' hE',
    mul_left_inj' (zpow_ne_zero E two_ne_zero), Int.cast_inj, sub_eq_zero, eq_comm]

/-- A finite number less another number is a number, and zero only if they are equal. -/
theorem zeroIff_sub (hu : Held u) (hv : Held v) (hp : (ofUnpacked u).value? = some p)
    (hnan : v.isNaN = false) :
    ZeroIff (Float.Model.pack (UnpackedFloat.sub .binary64 u v)).unpack
      ((ofUnpacked v).value? = some p) := by
  cases v with
  | notANumber => cases hnan
  | infinity s' =>
    have hne : ¬ (ofUnpacked (.infinity s')).value? = some p := fun h => nomatch h
    cases u with
    | notANumber => cases hp
    | infinity s => cases hp
    | zero s => exact (nonzero_unpack_pack_infinity _).zeroIff hne
    | finite s m e hm => exact (nonzero_unpack_pack_infinity _).zeroIff hne
  | zero s' =>
    rw [value?_zero, Option.some_inj]
    cases u with
    | notANumber => cases hp
    | infinity s => cases hp
    | zero s =>
      rw [value?_zero, Option.some_inj] at hp
      rw [UnpackedFloat.sub]
      split <;> exact zeroIff_zero hp _
    | finite s m e hm =>
      rw [value?_finite, Option.some_inj] at hp
      exact (nonzero_unpack_pack_finite hu.1 s hm).zeroIff (hp ▸ (apply_ne_zero s hm).symm)
  | finite s' m' e' hm' =>
    rw [value?_finite, Option.some_inj]
    cases u with
    | notANumber => cases hp
    | infinity s => cases hp
    | zero s =>
      rw [value?_zero, Option.some_inj] at hp
      exact (nonzero_unpack_pack_finite hv.1 _ hm').zeroIff (hp ▸ apply_ne_zero s' hm')
    | finite s m e hm =>
      rw [value?_finite, Option.some_inj] at hp
      rw [← hp, ← apply_decreaseExponent_sub_eq_zero_iff (min_le_left e e') (min_le_right e e')]
      exact zeroIff_normalize _ (le_min hu.1.le hv.1.le) _

end Unpacked

section Numbers
variable {x y : Float} {n : ℕ}

theorem value?_ofFloat (x : Float) :
    (ofFloat x).value? = (ofUnpacked x.toModel.unpack).value? := by
  rw [ofFloat_eq]

theorem unpack_of_value? {p : ℚ} (h : (ofFloat x).value? = some p) :
    (∃ s, x.toModel.unpack = .zero s ∧ p = 0) ∨
      ∃ s m e hm, x.toModel.unpack = .finite s m e hm ∧ p = s.apply m * 2 ^ e ∧
        Canonical m e ∧ e ≤ maxExponent := by
  rw [value?_ofFloat] at h
  cases hu : x.toModel.unpack with
  | notANumber => rw [hu] at h; cases h
  | infinity s => rw [hu] at h; cases h
  | zero s =>
    rw [hu, value?_zero, Option.some_inj] at h
    exact .inl ⟨s, rfl, h.symm⟩
  | finite s m e hm =>
    rw [hu, value?_finite, Option.some_inj] at h
    exact .inr ⟨s, m, e, hm, rfl, h.symm, canonical_unpack hu⟩

theorem isFinite_of_value? {p : ℚ} (h : (ofFloat x).value? = some p) :
    x.isFinite = true ∧ x.isNaN = false := by
  change x.toModel.unpack.isFinite = true ∧ x.toModel.unpack.isNaN = false
  obtain ⟨s, hu, -⟩ | ⟨s, m, e, hm, hu, -⟩ := unpack_of_value? h
  · rw [hu]
    exact ⟨rfl, rfl⟩
  · rw [hu]
    exact ⟨rfl, rfl⟩

theorem exists_value?_of_isFinite (h : x.isFinite = true) :
    ∃ p, (ofUnpacked x.toModel.unpack).value? = some p := by
  change x.toModel.unpack.isFinite = true at h
  cases hu : x.toModel.unpack with
  | notANumber => rw [hu] at h; cases h
  | infinity s => rw [hu] at h; cases h
  | zero s => exact ⟨_, value?_zero s⟩
  | finite s m e hm => exact ⟨_, value?_finite s m e hm⟩

theorem beq_iff_compare : (x == y) = true ↔
    UnpackedFloat.compare x.toModel.unpack y.toModel.unpack = some .eq := by
  change (UnpackedFloat.compare x.toModel.unpack y.toModel.unpack == some .eq) = true ↔ _
  exact beq_iff_eq

theorem beq_iff_value? {p : ℚ} (hx : (ofFloat x).value? = some p) :
    (x == y) = true ↔ (ofFloat y).value? = some p := by
  rw [value?_ofFloat] at hx ⊢
  rw [beq_iff_compare, compare_eq_iff (held_unpack _) (held_unpack _) hx]

def IsZero (x : Float) : Prop := ∃ s, x.toModel.unpack = .zero s

theorem beq_iff_unpack : (x == y) = true ↔
    (x.toModel.unpack = y.toModel.unpack ∧ x.isNaN = false) ∨ (IsZero x ∧ IsZero y) := by
  rw [beq_iff_compare, compare_eq_some_eq_iff]
  simp only [IsZero, exists_and_left, exists_and_right]
  rfl

theorem beq_symm (h : (x == y) = true) : (y == x) = true := by
  rw [beq_iff_unpack] at h ⊢
  rcases h with ⟨hxy, hnan⟩ | ⟨hx, hy⟩
  · have hnan' : x.toModel.unpack.isNaN = false := hnan
    exact .inl ⟨hxy.symm, (congrArg UnpackedFloat.isNaN hxy).symm.trans hnan'⟩
  · exact .inr ⟨hy, hx⟩

theorem isZero_iff_beq : IsZero x ↔ (x == 0.0) = true := by
  have hzero : (0.0 : Float).toModel.unpack = .zero .positive := rfl
  rw [IsZero, beq_iff_compare, hzero]
  cases x.toModel.unpack with
  | notANumber => simp [UnpackedFloat.compare]
  | infinity s => cases s <;> simp [UnpackedFloat.compare]
  | zero s => simp [UnpackedFloat.compare]
  | finite s m e hm => cases s <;> simp [UnpackedFloat.compare]

/-- A finite number less another number is a number, and zero only if they are equal. -/
theorem sub_of_isFinite (hx : x.isFinite = true) (hy : y.isNaN = false) :
    (x - y).isNaN = false ∧ (IsZero (x - y) ↔ (x == y) = true) := by
  obtain ⟨p, hp⟩ := exists_value?_of_isFinite hx
  obtain ⟨hnan, hzero⟩ := zeroIff_sub (held_unpack x.toModel) (held_unpack y.toModel) hp hy
  refine ⟨hnan, hzero.trans ?_⟩
  rw [beq_iff_value? ((value?_ofFloat x).trans hp), value?_ofFloat]

theorem zero_div (hx : IsZero x) (hy : y.isNaN = false) :
    ((x / y).isNaN = true ↔ IsZero y) ∧ ((x / y).isNaN = false → IsZero (x / y)) := by
  obtain ⟨s, hs⟩ := hx
  change y.toModel.unpack.isNaN = false at hy
  have hdiv : (x / y).toModel.unpack = (Float.Model.pack
      (UnpackedFloat.div .binary64 (.zero s) y.toModel.unpack)).unpack := by
    rw [← hs]
    rfl
  have hnan : (x / y).isNaN = (x / y).toModel.unpack.isNaN := rfl
  rw [hnan, IsZero, IsZero, hdiv]
  generalize y.toModel.unpack = v at hy ⊢
  cases v with
  | notANumber => cases hy
  | infinity s' =>
    rw [UnpackedFloat.div, unpack_pack_zero]
    simp [UnpackedFloat.isNaN]
  | zero s' =>
    rw [UnpackedFloat.div, unpack_pack_notANumber]
    simp [UnpackedFloat.isNaN]
  | finite s' m e hm =>
    rw [UnpackedFloat.div, unpack_pack_zero]
    simp [UnpackedFloat.isNaN]

/-- Whether an unpacked double is zero or no number. -/
def Vanishes (u : UnpackedFloat) : Prop := (∃ s, u = .zero s) ∨ u = .notANumber

def Void (x : Float) : Prop := Vanishes x.toModel.unpack

/-- What makes something void of each zero makes it of what is void. -/
theorem Void.apply {f : UnpackedFloat → UnpackedFloat} (hzero : ∀ s, Vanishes (f (.zero s)))
    (hnan : f .notANumber = .notANumber) (h : Void x) :
    Void (Float.ofModel (.pack (f x.toModel.unpack))) := by
  have hop : Vanishes (f x.toModel.unpack) := by
    rcases h with ⟨s, hs⟩ | hx
    · exact hs ▸ hzero s
    · exact .inr (hx ▸ hnan)
  rcases hop with ⟨s, hs⟩ | hu
  · rw [hs]
    exact .inl ⟨s, unpack_pack_zero s⟩
  · rw [hu]
    exact .inr unpack_pack_notANumber

theorem vanishes_zero_mul (s : Sign) (v : UnpackedFloat) :
    Vanishes (UnpackedFloat.mul .binary64 (.zero s) v) := by
  cases v with
  | notANumber => exact .inr rfl
  | infinity s' => exact .inr rfl
  | zero s' => exact .inl ⟨_, rfl⟩
  | finite s' m e hm => exact .inl ⟨_, rfl⟩

theorem vanishes_mul_zero (u : UnpackedFloat) (s : Sign) :
    Vanishes (UnpackedFloat.mul .binary64 u (.zero s)) := by
  cases u with
  | notANumber => exact .inr rfl
  | infinity s' => exact .inr rfl
  | zero s' => exact .inl ⟨_, rfl⟩
  | finite s' m e hm => exact .inl ⟨_, rfl⟩

theorem vanishes_zero_div (s : Sign) (v : UnpackedFloat) :
    Vanishes (UnpackedFloat.div .binary64 (.zero s) v) := by
  cases v with
  | notANumber => exact .inr rfl
  | infinity s' => exact .inl ⟨_, rfl⟩
  | zero s' => exact .inr rfl
  | finite s' m e hm => exact .inl ⟨_, rfl⟩

theorem Void.mul_right (h : Void x) (y : Float) : Void (x * y) :=
  h.apply (f := (UnpackedFloat.mul .binary64 · y.toModel.unpack))
    (fun s => vanishes_zero_mul s _) (strict_mul _).1

theorem Void.mul_left (h : Void y) (x : Float) : Void (x * y) :=
  h.apply (f := UnpackedFloat.mul .binary64 x.toModel.unpack)
    (fun s => vanishes_mul_zero _ s) (strict_mul _).2

theorem Void.div_right (h : Void x) (y : Float) : Void (x / y) :=
  h.apply (f := (UnpackedFloat.div .binary64 · y.toModel.unpack))
    (fun s => vanishes_zero_div s _) (strict_div _).1

theorem Void.zero_div (h : Void x) : 0.0 / x = 0.0 / 0.0 := by
  have hnan : UnpackedFloat.div .binary64 (0.0 : Float).toModel.unpack x.toModel.unpack =
      .notANumber := by
    rcases h with ⟨s, hs⟩ | hnan
    · rw [hs]
      rfl
    · rw [hnan]
      exact (strict_div _).2
  change Float.ofModel (.pack (UnpackedFloat.div .binary64 _ _)) = _
  rw [hnan]
  rfl

/-- Doubles that stand at the same place of the order have the same products and quotients, unless
they are zeros. -/
theorem unpack_eq_or_void_of_same (h : same x y = true) :
    x.toModel.unpack = y.toModel.unpack ∨ Void x ∧ Void y := by
  rw [same, Bool.or_eq_true, Bool.and_eq_true, isNaN_iff_unpack, isNaN_iff_unpack] at h
  rcases h with hbeq | ⟨hx, hy⟩
  · rcases beq_iff_unpack.1 hbeq with ⟨heq, -⟩ | ⟨hx, hy⟩
    · exact .inl heq
    · exact .inr ⟨.inl hx, .inl hy⟩
  · exact .inl (hx.trans hy.symm)

theorem mul_congr_unpack (h : x.toModel.unpack = y.toModel.unpack) (z : Float) :
    x * z = y * z := by
  change Float.ofModel (.pack (UnpackedFloat.mul .binary64 x.toModel.unpack _)) = _
  rw [h]
  rfl

theorem isNaN_roundWithAccuracy (s : Sign) (m : ℕ) (e : ℤ) (a : Accuracy) :
    (roundWithAccuracy .binary64 s m e a).isNaN = false := by
  rw [roundWithAccuracy]
  dsimp only
  split <;> rfl

/-- A number over a finite number that is not zero is a number. -/
theorem isNaN_div_of_finite (hx : x.isNaN = false) {s : Sign} {m : ℕ} {e : ℤ} {hm : 0 < m}
    (hy : y.toModel.unpack = .finite s m e hm) : (x / y).isNaN = false := by
  change x.toModel.unpack.isNaN = false at hx
  change (Float.Model.pack
    (UnpackedFloat.div .binary64 x.toModel.unpack y.toModel.unpack)).unpack.isNaN = false
  rw [isNaN_unpack_pack, hy]
  cases hu : x.toModel.unpack with
  | notANumber => rw [hu] at hx; cases hx
  | infinity s' => rfl
  | zero s' => rfl
  | finite s' m' e' hm' => exact isNaN_roundWithAccuracy ..

theorem isNaN_toFloat (n : UInt64) : n.toFloat.isNaN = false :=
  (zeroIff_normalize n.toNat (by decide) .positive).1

theorem mul_one_of_canonical {m : ℕ} {e : ℤ} (h : Canonical m e) (s : Sign) (hm : 0 < m) :
    UnpackedFloat.mul .binary64 (.finite s m e hm)
      (.finite .positive (2 ^ 52) (-52) (Nat.two_pow_pos 52)) = .finite s m e hm := by
  have hs : s * .positive = s := by cases s <;> rfl
  have hround := roundWithAccuracy_of_canonical h hm s 52
  rw [UnpackedFloat.mul, hs]
  exact hround

theorem unpack_toFloat (h0 : 0 < n) (h : n < 2 ^ 53) : ∃ hm,
    n.toUInt64.toFloat.toModel.unpack =
      .finite .positive (n * 2 ^ (52 - n.log2)) (n.log2 - 52) hm ∧
    Canonical (n * 2 ^ (52 - n.log2)) (n.log2 - 52) ∧ (n.log2 : ℤ) - 52 ≤ maxExponent := by
  obtain ⟨hm, hn, hc⟩ := normalize_natCast h0 h .positive
  have hlog := (Nat.log2_lt h0.ne').2 h
  have hmax : (n.log2 : ℤ) - 52 ≤ maxExponent := by
    rw [maxExponent]
    omega
  have hword : n.toUInt64.toNat = n := Nat.mod_eq_of_lt (h.trans (by decide))
  refine ⟨hm, ?_, hc, hmax⟩
  change (Float.Model.pack
    (UnpackedFloat.normalize .binary64 n.toUInt64.toNat 0 .positive)).unpack = _
  rw [hword, hn, unpack_pack_finite hc, if_pos hmax]

theorem mul_two_pow_mul_zpow (h0 : 0 < n) (h : n < 2 ^ 53) :
    ((n * 2 ^ (52 - n.log2) : ℕ) : ℚ) * 2 ^ ((n.log2 : ℤ) - 52) = n := by
  have hlog := (Nat.log2_lt h0.ne').2 h
  have hexp : (n.log2 : ℤ) - 52 = -(52 - n.log2 : ℕ) := by omega
  rw [hexp, zpow_neg, zpow_natCast]
  push_cast
  exact mul_inv_cancel_right₀ (pow_ne_zero _ two_ne_zero) _

theorem unpack_ofNat (h0 : 0 < n) (h : n < 2 ^ 53) : ∃ hm, (Float.ofNat n).toModel.unpack =
    .finite .positive (n * 2 ^ (52 - n.log2)) (n.log2 - 52) hm := by
  obtain ⟨hm, hconv, hc, hmax⟩ := unpack_toFloat h0 h
  refine ⟨hm, ?_⟩
  have hmul : Float.ofNat n = n.toUInt64.toFloat * Float.ofBits 0x3FF0000000000000 := by
    change Float.ofScientific n false 0 = _
    rw [Float.ofScientific, dif_pos ⟨h, by decide⟩]
    rfl
  have hone : (Float.ofBits 0x3FF0000000000000).toModel.unpack =
      .finite .positive (2 ^ 52) (-52) (Nat.two_pow_pos 52) := rfl
  rw [hmul]
  change (Float.Model.pack (UnpackedFloat.mul .binary64 n.toUInt64.toFloat.toModel.unpack
    (Float.ofBits 0x3FF0000000000000).toModel.unpack)).unpack = _
  rw [hconv, hone, mul_one_of_canonical hc, unpack_pack_finite hc, if_pos hmax]

theorem value?_ofNat (h : n ≤ 2 ^ 53) : (ofFloat (Float.ofNat n)).value? = some (n : ℚ) := by
  rw [value?_ofFloat]
  rcases Nat.eq_zero_or_pos n with rfl | h0
  · have hzero : (Float.ofNat 0).toModel.unpack = .zero .positive := rfl
    rw [hzero, value?_zero, Nat.cast_zero]
  rcases h.lt_or_eq with hlt | rfl
  · obtain ⟨hm, hn⟩ := unpack_ofNat h0 hlt
    rw [hn, value?_finite, Option.some_inj, Sign.apply, Int.cast_natCast]
    exact mul_two_pow_mul_zpow h0 hlt
  · have htop : (Float.ofNat (2 ^ 53)).toModel.unpack =
        .finite .positive (2 ^ 52) 1 (Nat.two_pow_pos 52) := rfl
    rw [htop, value?_finite, Option.some_inj, Sign.apply]
    norm_num

end Numbers

end SimCampaign.Binary64
