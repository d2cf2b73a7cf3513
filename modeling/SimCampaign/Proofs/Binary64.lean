import Mathlib
import SimCampaign.Binary64
import SimCampaign.Quantity

/-! The exact values of doubles, and the natural numbers that doubles are converted to. -/

namespace SimCampaign.Binary64
open Float.Model (UnpackedFloat)
open Float.Model.UnpackedFloat (Sign unpack unpackExponent unpackMantissa unpackSign
  unpackExponent_def unpackMantissa_def unpackSign_def decreaseExponent shiftToExponent roundToInt
  ExtendedMantissa)

section Value

def value? : Binary64 → Option ℚ
  | .finite negative m e => some (if negative then -(m * 2 ^ e) else m * 2 ^ e)
  | _ => none

theorem mul_zpow_eq_natCast_iff (m n : ℕ) (e : ℤ) :
    (m : ℚ) * 2 ^ e = n ↔ m * 2 ^ e.toNat = n * 2 ^ (-e).toNat := by
  obtain ⟨k, rfl | rfl⟩ := e.eq_nat_or_neg
  · rw [zpow_natCast, Int.toNat_natCast, Int.toNat_neg_natCast, pow_zero, mul_one]
    norm_cast
  · rw [zpow_neg, zpow_natCast, neg_neg, Int.toNat_natCast, Int.toNat_neg_natCast, pow_zero,
      mul_one, mul_inv_eq_iff_eq_mul₀ (by positivity)]
    norm_cast

theorem value?_finite_eq_natCast_iff {negative : Bool} {m n : ℕ} {e : ℤ} :
    (finite negative m e).value? = some (n : ℚ) ↔
      (m = 0 ∨ negative = false) ∧ m * 2 ^ e.toNat = n * 2 ^ (-e).toNat := by
  rw [value?, Option.some_inj, ← mul_zpow_eq_natCast_iff]
  cases negative with
  | false => simp
  | true =>
    have hm : (0 : ℚ) ≤ m * 2 ^ e := by positivity
    have hn : (0 : ℚ) ≤ n := n.cast_nonneg
    simp only [if_true, Bool.true_eq_false, or_false]
    constructor
    · intro h
      have h0 : (m : ℚ) * 2 ^ e = 0 := by linarith
      have hm0 := (mul_eq_zero.1 h0).resolve_right (zpow_ne_zero _ two_ne_zero)
      exact ⟨Nat.cast_eq_zero.1 hm0, by linarith⟩
    · rintro ⟨rfl, h⟩
      simpa using h

end Value

section Bits
variable (b : BitVec Float.Model.Format.binary64.numBits)

theorem toNat_unpackMantissa : (unpackMantissa b).toNat = b.toNat % 2 ^ 52 := by
  rw [unpackMantissa_def, BitVec.extractLsb'_toNat, Nat.shiftRight_zero]

theorem toNat_unpackExponent : (unpackExponent b).toNat = b.toNat / 2 ^ 52 % 2 ^ 11 := by
  rw [unpackExponent_def, BitVec.extractLsb'_toNat, Nat.shiftRight_eq_div_pow]

theorem toNat_unpackSign : (unpackSign b).toNat = b.toNat / 2 ^ 63 := by
  have hb : b.toNat < 2 ^ 64 := b.isLt
  rw [unpackSign_def, BitVec.extractLsb'_toNat, Nat.shiftRight_eq_div_pow]
  change b.toNat / 2 ^ 63 % 2 ^ 1 = _
  omega

def ofUnpacked : UnpackedFloat → Binary64
  | .notANumber => .nan
  | .infinity s => .infinite (s == .negative)
  | .zero s => .finite (s == .negative) 0 minExponent
  | .finite s m e _ => .finite (s == .negative) m e

theorem ofBitVec_unpackSign :
    (Sign.ofBitVec (unpackSign b) == .negative) = decide (2 ^ 63 ≤ b.toNat) := by
  have hb : b.toNat < 2 ^ 64 := b.isLt
  have hs := toNat_unpackSign b
  by_cases h : unpackSign b = 0#1
  · rw [h] at hs
    rw [h, decide_eq_false (by simp at hs; omega)]
    rfl
  · have : (unpackSign b).toNat ≠ 0 := fun h0 => h (BitVec.eq_of_toNat_eq h0)
    rw [Sign.ofBitVec, if_neg h, decide_eq_true (by omega)]
    rfl

theorem toNat_one_append (m : BitVec 52) : (1#1 ++ m).toNat = 2 ^ 52 + m.toNat := by
  rw [BitVec.toNat_append, ← Nat.shiftLeft_add_eq_or_of_lt m.isLt]
  rfl

theorem ofBits_ofBitVec : ofBits (.ofBitVec b) =
    if (unpackExponent b).toNat = 2047 then
      if (unpackMantissa b).toNat = 0 then
        .infinite (Sign.ofBitVec (unpackSign b) == .negative)
      else .nan
    else if (unpackExponent b).toNat = 0 then
      .finite (Sign.ofBitVec (unpackSign b) == .negative) (unpackMantissa b).toNat minExponent
    else
      .finite (Sign.ofBitVec (unpackSign b) == .negative) (2 ^ 52 + (unpackMantissa b).toNat)
        ((unpackExponent b).toNat - 1075) := by
  rw [toNat_unpackMantissa, toNat_unpackExponent, ofBitVec_unpackSign]
  rfl

theorem ofUnpacked_unpack : ofUnpacked (unpack .binary64 b) = ofBits (.ofBitVec b) := by
  have hm : unpackMantissa b = 0#_ ↔ (unpackMantissa b).toNat = 0 := BitVec.toNat_inj.symm
  have he : unpackExponent b = 0#_ ↔ (unpackExponent b).toNat = 0 := BitVec.toNat_inj.symm
  have hi : unpackExponent b = -1#_ ↔ (unpackExponent b).toNat = 2047 := BitVec.toNat_inj.symm
  rw [unpack, ofBits_ofBitVec]
  dsimp only
  split
  case isTrue h =>
    rw [if_pos (hi.1 h)]
    split
    case isTrue h0 => rw [if_pos (hm.1 h0), ofUnpacked]
    case isFalse h0 => rw [if_neg (mt hm.2 h0), ofUnpacked]
  case isFalse h =>
    rw [if_neg (mt hi.2 h)]
    split
    case isTrue h0 =>
      rw [if_pos (he.1 h0)]
      split
      case isTrue hz => rw [hm.1 hz, ofUnpacked]
      case isFalse hz => 
        rw [ofUnpacked, he.1 h0]
        rfl
    case isFalse h0 =>
      rw [if_neg (mt he.2 h0), ofUnpacked, toNat_one_append]
      rfl

end Bits

theorem ofFloat_eq (x : Float) : ofFloat x = ofUnpacked x.toModel.unpack :=
  (ofUnpacked_unpack x.toBits.toBitVec).symm

section Conversion

theorem repeat_shiftRightOne (k : ℕ) (em : ExtendedMantissa) :
    (k.repeat ExtendedMantissa.shiftRightOne em).mantissa = em.mantissa / 2 ^ k := by
  induction k with
  | zero => simp [Nat.repeat]
  | succ k ih =>
    rw [Nat.repeat, ExtendedMantissa.shiftRightOne, ih, Nat.div_div_eq_div_mul, ← Nat.pow_succ]

theorem roundToInt_eq (s : Sign) (m : ℕ) (e : ℤ) :
    roundToInt s m e = s.apply ((m * 2 ^ e.toNat / 2 ^ (-e).toNat : ℕ) : ℤ) := by
  have he : (0 - (e - ((e - 0).toNat : ℤ))).toNat = (-e).toNat := by omega
  simp only [roundToInt, decreaseExponent, shiftToExponent, he]
  rw [show e - 0 = e from Int.sub_zero e, Nat.shiftLeft_eq]
  congr 2
  exact repeat_shiftRightOne _ _

theorem toNat_ofNatClamp (n : ℕ) : (UInt64.ofNatClamp n).toNat = min n maxUInt64 := by
  have hmax : maxUInt64 + 1 = UInt64.size := rfl
  rw [UInt64.ofNatClamp]
  split
  · rw [UInt64.toNat_ofNatLT]
    omega
  · rw [UInt64.toNat_ofNatLT]
    omega

/-- A natural number is converted to itself, or to the largest integer if it is beyond that. -/
theorem toNat_toUInt64 {x : Float} {n : ℕ} (h : (ofFloat x).value? = some (n : ℚ)) :
    x.toUInt64.toNat = min n maxUInt64 := by
  rw [ofFloat_eq] at h
  rw [Float.toUInt64, Float.Model.toUInt64, UnpackedFloat.toUInt64, toNat_ofNatClamp]
  congr 1
  revert h
  cases x.toModel.unpack with
  | notANumber => simp [ofUnpacked, value?]
  | infinity s => simp [ofUnpacked, value?]
  | zero s =>
    intro h
    obtain ⟨-, h⟩ := value?_finite_eq_natCast_iff.1 h
    have hn : n = 0 := by simpa using h
    rw [hn]
    rfl
  | finite s m e hm =>
    intro h
    obtain ⟨hs, h⟩ := value?_finite_eq_natCast_iff.1 h
    rw [UnpackedFloat.toInt, roundToInt_eq, h, Nat.mul_div_cancel _ (Nat.two_pow_pos _)]
    cases s with
    | positive => rfl
    | negative => exact absurd (hs.resolve_left hm.ne') (by decide)

theorem roundMagnitude_eq (m : ℕ) (e : ℤ) :
    roundMagnitude m e = ⌊(m : ℚ) * 2 ^ e + 1 / 2⌋₊ := by
  rw [roundMagnitude]
  split_ifs with he
  · obtain ⟨k, rfl⟩ := Int.eq_ofNat_of_zero_le he
    symm
    rw [Nat.floor_eq_iff (by positivity), Int.toNat_natCast, Nat.pow_eq]
    push_cast
    rw [zpow_natCast]
    constructor <;> linarith
  · obtain ⟨k, rfl⟩ : ∃ k : ℕ, e = -k := ⟨(-e).toNat, by omega⟩
    have hq : (m : ℚ) * 2 ^ (-k : ℤ) + 1 / 2 = (2 * m + 2 ^ k : ℕ) / (2 ^ (k + 1) : ℕ) := by
      rw [zpow_neg, zpow_natCast, pow_succ]
      push_cast
      field_simp
    rw [hq, Nat.floor_div_eq_div, neg_neg, Int.toNat_natCast]
    rfl

end Conversion

end SimCampaign.Binary64
