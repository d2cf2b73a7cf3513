import Mathlib.Data.List.TakeWhile
import SimCampaign.Json.Writer
import SimCampaign.Proofs.Decimal.Layout

/-! What a written number is read as does not depend on what follows it. -/

namespace SimCampaign.Json
open Decimal (spanDigits)

structure Digits (ds : List Char) : Prop where
  ne_nil : ds ≠ []
  isDigit : ∀ c ∈ ds, c.isDigit = true

def NoDigit (rest : List Char) : Prop := ∀ c ∈ rest.head?, c.isDigit = false

def EndsNumber (rest : List Char) : Prop :=
  ∀ c ∈ rest.head?, c.isDigit = false ∧ c ≠ '.' ∧ c ≠ 'e' ∧ c ≠ 'E'

theorem endsNumber_nil : EndsNumber [] := by
  intro c hc
  cases hc

theorem EndsNumber.noDigit {rest : List Char} (h : EndsNumber rest) : NoDigit rest :=
  fun c hc => (h c hc).1

theorem noDigit_cons {c : Char} (h : c.isDigit = false) (rest : List Char) :
    NoDigit (c :: rest) := by
  intro d hd
  cases hd
  exact h

theorem spanDigits_append {ds rest : List Char} (hd : ∀ c ∈ ds, c.isDigit = true)
    (hr : NoDigit rest) : spanDigits (ds ++ rest) = (ds, rest) := by
  have ht : rest.takeWhile Char.isDigit = [] := by
    cases rest with
    | nil => rfl
    | cons c rest => simp [hr c rfl]
  have hw : rest.dropWhile Char.isDigit = rest := by
    cases rest with
    | nil => rfl
    | cons c rest => simp [hr c rfl]
  rw [spanDigits, List.takeWhile_append_of_pos hd, List.dropWhile_append_of_pos hd, ht, hw,
    List.append_nil]

/-- The parts of a number in JSON text; an exponent is negative or not. -/
structure Literal where
  negative : Bool
  whole : List Char
  fraction : Option (List Char)
  exponent : Option (Bool × List Char)

namespace Literal

def fractionChars (l : Literal) : List Char :=
  match l.fraction with
  | none => []
  | some ds => '.' :: ds

def exponentChars (l : Literal) : List Char :=
  match l.exponent with
  | none => []
  | some (negative, ds) => 'e' :: (if negative then '-' else '+') :: ds

def chars (l : Literal) : List Char :=
  (if l.negative then ['-'] else []) ++ l.whole ++ l.fractionChars ++ l.exponentChars

structure WellFormed (l : Literal) : Prop where
  whole : Digits l.whole
  fraction : ∀ ds ∈ l.fraction, Digits ds
  exponent : ∀ e ∈ l.exponent, Digits e.2

def exponentValue (e : Bool × List Char) : Int :=
  let n : Int := Decimal.natOfDigits e.2
  if e.1 then -n else n

def value? (l : Literal) : Option Json :=
  if l.whole.head? = some '0' ∧ 1 < l.whole.length then none
  else match l.fraction, l.exponent with
    | none, none => ofWhole? l.negative l.whole
    | fraction, exponent =>
      ofDecimal? l.negative l.whole (fraction.getD []) ((exponent.map exponentValue).getD 0)

variable {l : Literal} {rest : List Char}

/-- Whether a literal shows that it is no integer. -/
def IsDecimal (l : Literal) : Prop := l.fraction ≠ none ∨ l.exponent ≠ none

theorem IsDecimal.eq_float {j : Json} (h : l.IsDecimal) (hv : l.value? = some j) :
    ∃ x, j = .float x := by
  have hdecimal : ∀ fraction exponent, ofDecimal? l.negative l.whole fraction exponent = some j →
      ∃ x, j = .float x := by
    intro fraction exponent hj
    obtain ⟨x, -, rfl⟩ := Option.map_eq_some_iff.1 hj
    exact ⟨_, rfl⟩
  rw [value?] at hv
  split at hv
  next => cases hv
  next =>
    split at hv
    next hf he =>
      rcases h with h | h
      · exact absurd hf h
      · exact absurd he h
    next => exact hdecimal _ _ hv

theorem exponent?_of_ends (hr : EndsNumber rest) : exponent? rest = some (none, rest) := by
  cases rest with
  | nil => rfl
  | cons c rest =>
    obtain ⟨-, -, he, hE⟩ := hr c rfl
    rw [exponent?.eq_def]
    split
    next h =>
      cases h
      exact absurd rfl he
    next h =>
      cases h
      exact absurd rfl hE
    next => rfl

theorem exponent?_chars (h : l.WellFormed) (hr : EndsNumber rest) :
    exponent? (l.exponentChars ++ rest) = some (l.exponent.map exponentValue, rest) := by
  cases he : l.exponent with
  | none =>
    rw [exponentChars, he]
    exact exponent?_of_ends hr
  | some e =>
    obtain ⟨negative, ds⟩ := e
    have hds := h.exponent _ he
    have hs := spanDigits_append hds.isDigit hr.noDigit
    rw [exponentChars, he]
    cases negative with
    | false => simp [exponent?, hs, hds.ne_nil, exponentValue]
    | true => simp [exponent?, hs, hds.ne_nil, exponentValue]

theorem exponentChars_append (hr : EndsNumber rest) :
    ∀ c ∈ (l.exponentChars ++ rest).head?, c.isDigit = false ∧ c ≠ '.' := by
  intro c hc
  cases he : l.exponent with
  | none =>
    rw [exponentChars, he] at hc
    exact ⟨(hr c hc).1, (hr c hc).2.1⟩
  | some e =>
    rw [exponentChars, he] at hc
    cases hc
    decide

theorem fraction?_chars (h : l.WellFormed) (hr : EndsNumber rest) :
    fraction? (l.fractionChars ++ (l.exponentChars ++ rest)) =
      some (l.fraction, l.exponentChars ++ rest) := by
  have ht := exponentChars_append (l := l) hr
  cases hf : l.fraction with
  | none =>
    rw [fractionChars, hf, List.nil_append, fraction?.eq_def]
    split
    next he =>
      rw [he] at ht
      exact absurd rfl (ht '.' rfl).2
    next => rfl
  | some ds =>
    have hds := h.fraction _ hf
    have hs := spanDigits_append hds.isDigit fun c hc => (ht c hc).1
    rw [fractionChars, hf]
    simp [fraction?, hs, hds.ne_nil]

theorem noDigit_fractionChars (hr : EndsNumber rest) :
    NoDigit (l.fractionChars ++ (l.exponentChars ++ rest)) := by
  cases hf : l.fraction with
  | none =>
    rw [fractionChars, hf]
    exact fun c hc => (exponentChars_append hr c hc).1
  | some ds =>
    rw [fractionChars, hf]
    exact noDigit_cons (by decide) _

theorem unsigned?_chars (h : l.WellFormed) (hr : EndsNumber rest) :
    unsigned? l.negative (l.whole ++ (l.fractionChars ++ (l.exponentChars ++ rest))) =
      l.value?.map fun j => (j, rest) := by
  have hw := spanDigits_append h.whole.isDigit (noDigit_fractionChars (l := l) hr)
  have hf := fraction?_chars h hr
  have he := exponent?_chars h hr
  rw [unsigned?, value?]
  simp only [hw, h.whole.ne_nil, false_or]
  split
  · rfl
  · simp only [hf, he, Option.bind_eq_bind, Option.bind_some]
    have hmap (v : Option Json) : (v.bind fun j => some (j, rest)) = v.map fun j => (j, rest) := by
      cases v <;> rfl
    cases l.fraction <;> cases l.exponent <;> exact hmap _

theorem number?_chars (h : l.WellFormed) (hr : EndsNumber rest) :
    number? (l.chars ++ rest) = l.value?.map fun j => (j, rest) := by
  have hu := unsigned?_chars h hr
  obtain ⟨c, cs, hc⟩ := List.exists_cons_of_ne_nil h.whole.ne_nil
  have hminus : c ≠ '-' := by
    rintro rfl
    have hd := h.whole.isDigit '-' (by simp [hc])
    cases hd
  cases hn : l.negative with
  | true =>
    rw [hn] at hu
    rw [chars, hn, ← hu]
    simp [number?]
  | false =>
    rw [hn, hc] at hu
    rw [chars, hn, hc, ← hu]
    simp only [Bool.false_eq_true, if_false, List.nil_append, List.cons_append, List.append_assoc]
    rw [number?.eq_def]
    split
    next he =>
      cases he
      exact absurd rfl hminus
    next => rfl

end Literal

section Integer

theorem digits_digitChars (n : Nat) : Digits (Decimal.digitChars n) :=
  ⟨Nat.toDigits_ne_nil, fun _ => Decimal.isDigit_of_mem_digitChars⟩

def integerLiteral (n : Int) : Literal :=
  { negative := decide (n < 0), whole := Decimal.digitChars n.natAbs, fraction := none
    exponent := none }

theorem wellFormed_integerLiteral (n : Int) : (integerLiteral n).WellFormed :=
  ⟨digits_digitChars _, by simp [integerLiteral], by simp [integerLiteral]⟩

theorem chars_integerLiteral (n : Int) : (integerLiteral n).chars = integerChars n := by
  by_cases hn : n < 0 <;>
    simp [Literal.chars, Literal.fractionChars, Literal.exponentChars, integerLiteral,
      integerChars, hn]

theorem appendDigits_cons (k : Nat) (c : Char) (ds : List Char) :
    appendDigits k (c :: ds) =
      if 10 * k + (c.toNat - '0'.toNat) ≤ maxSignificand then
        ((appendDigits (10 * k + (c.toNat - '0'.toNat)) ds).1,
          (appendDigits (10 * k + (c.toNat - '0'.toNat)) ds).2 + 1)
      else (k, 0) := rfl

theorem snd_appendDigits_le (k : Nat) (ds : List Char) : (appendDigits k ds).2 ≤ ds.length := by
  induction ds generalizing k with
  | nil => exact Nat.le_refl _
  | cons c ds ih =>
    rw [appendDigits_cons]
    split
    · exact Nat.succ_le_succ (ih _)
    · exact Nat.zero_le _

theorem fst_appendDigits {k : Nat} {ds : List Char} (h : (appendDigits k ds).2 = ds.length) :
    (appendDigits k ds).1 = Nat.ofDigitChars 10 ds k := by
  induction ds generalizing k with
  | nil => simp [appendDigits]
  | cons c ds ih =>
    rw [appendDigits_cons] at h ⊢
    rw [Nat.ofDigitChars_cons]
    split at h
    next hb =>
      rw [if_pos hb]
      exact ih (Nat.succ.inj h)
    next => cases h

theorem le_ofDigitChars (k : Nat) (ds : List Char) : k ≤ Nat.ofDigitChars 10 ds k := by
  rw [Nat.ofDigitChars_eq_ofDigitChars_zero]
  have hp : 0 < 10 ^ ds.length := Nat.pow_pos (by decide)
  exact (Nat.le_mul_of_pos_left k hp).trans (Nat.le_add_right _ _)

theorem snd_appendDigits {k : Nat} {ds : List Char}
    (h : Nat.ofDigitChars 10 ds k ≤ maxSignificand) : (appendDigits k ds).2 = ds.length := by
  induction ds generalizing k with
  | nil => rfl
  | cons c ds ih =>
    rw [Nat.ofDigitChars_cons] at h
    rw [appendDigits_cons, if_pos ((le_ofDigitChars _ ds).trans h)]
    exact congrArg Nat.succ (ih h)

theorem ofDigitChars_digitChars (n : Nat) : Nat.ofDigitChars 10 (Decimal.digitChars n) 0 = n :=
  Nat.ofDigitChars_toDigits (by decide) (by decide)

theorem ofWhole?_digitChars (negative : Bool) (n : Nat) :
    ofWhole? negative (Decimal.digitChars n) =
      if (appendDigits 0 (Decimal.digitChars n)).2 < (Decimal.digitChars n).length then
        (scale? (appendDigits 0 (Decimal.digitChars n)).1 ((Decimal.digitChars n).length -
          (appendDigits 0 (Decimal.digitChars n)).2 : Nat)).map (.float ∘ signed negative)
      else if !negative then some (.integer n)
      else if n = 0 ∨ Nat.pow 2 63 < n then some (.float (-Float.ofNat n))
      else some (.integer (-n)) := by
  by_cases ht : (appendDigits 0 (Decimal.digitChars n)).2 < (Decimal.digitChars n).length
  · rw [if_pos ht]
    exact if_pos ht
  · have hl := snd_appendDigits_le 0 (Decimal.digitChars n)
    have hv := fst_appendDigits (Nat.le_antisymm hl (Nat.not_lt.1 ht))
    rw [ofDigitChars_digitChars] at hv
    rw [if_neg ht]
    refine Eq.trans (if_neg ht) ?_
    rw [hv]

theorem head?_digitChars {n : Nat} (h : n ≠ 0) : (Decimal.digitChars n).head? ≠ some '0' := by
  induction n using Nat.strongRecOn with
  | ind n ih =>
    by_cases hn : n < 10
    · have hd : ∀ n < 10, n ≠ 0 → (Decimal.digitChars n).head? ≠ some '0' := by decide
      exact hd n hn h
    · have hn : 10 ≤ n := Nat.not_lt.1 hn
      have hq := ih (n / 10) (by omega) (by omega)
      have he : Decimal.digitChars n = Decimal.digitChars (n / 10) ++ [(n % 10).digitChar] :=
        Nat.toDigits_of_base_le (by decide) hn
      obtain ⟨c, cs, hc⟩ := List.exists_cons_of_ne_nil (digits_digitChars (n / 10)).ne_nil
      rw [hc] at hq
      rw [he, hc]
      exact hq

theorem value?_integerLiteral_eq (n : Int) : (integerLiteral n).value? =
    ofWhole? (decide (n < 0)) (Decimal.digitChars n.natAbs) := by
  -- No zero is written in front of other digits.
  rw [Literal.value?]
  refine if_neg ?_
  rintro ⟨hz, hl⟩
  by_cases hn : n.natAbs = 0
  · simp only [integerLiteral, hn] at hl
    exact absurd hl (by decide)
  · exact head?_digitChars hn hz

/-- An integer is read as itself, or as a double. -/
theorem eq_or_float_of_value? {n : Int} {j : Json} (h : (integerLiteral n).value? = some j) :
    j = .integer n ∨ ∃ x, j = .float x := by
  rw [value?_integerLiteral_eq, ofWhole?_digitChars] at h
  split at h
  next =>
    obtain ⟨x, -, hx⟩ := Option.map_eq_some_iff.1 h
    exact .inr ⟨_, hx.symm⟩
  next =>
    by_cases hn : n < 0
    · simp only [hn, decide_true, Bool.not_true, Bool.false_eq_true, if_false] at h
      split at h
      next => exact .inr ⟨_, (Option.some.inj h).symm⟩
      next =>
        have hz : -(n.natAbs : Int) = n := by omega
        exact .inl ((Option.some.inj h).symm.trans (by rw [hz]))
    · simp only [hn, decide_false, Bool.not_false, if_true] at h
      have hz : (n.natAbs : Int) = n := by omega
      exact .inl ((Option.some.inj h).symm.trans (by rw [hz]))

theorem value?_integerLiteral_of_int64 (n : Int64) :
    (integerLiteral n.toInt).value? = some (.integer n.toInt) := by
  -- The digits fit the significand, and the sign is not that of a zero.
  have hlow := n.le_toInt
  have hhigh := n.toInt_lt
  have hmax : n.toInt.natAbs ≤ maxSignificand := by
    have hm : maxSignificand = 18446744073709551615 := by decide
    omega
  have htaken : ¬ (appendDigits 0 (Decimal.digitChars n.toInt.natAbs)).2 <
      (Decimal.digitChars n.toInt.natAbs).length := by
    rw [snd_appendDigits (by rwa [ofDigitChars_digitChars])]
    exact Nat.lt_irrefl _
  rw [value?_integerLiteral_eq, ofWhole?_digitChars, if_neg htaken]
  by_cases hn : n.toInt < 0
  · have hp : Nat.pow 2 63 = 9223372036854775808 := by decide
    have hsmall : ¬ (n.toInt.natAbs = 0 ∨ Nat.pow 2 63 < n.toInt.natAbs) := by omega
    have hz : -(n.toInt.natAbs : Int) = n.toInt := by omega
    simp only [hn, decide_true, Bool.not_true, Bool.false_eq_true, if_false, if_neg hsmall, hz]
  · have hz : (n.toInt.natAbs : Int) = n.toInt := by omega
    simp [hn, hz]

end Integer

section Float
variable {d : Decimal}

theorem Digits.append {cs ds : List Char} (hc : Digits cs) (hd : ∀ c ∈ ds, c.isDigit = true) :
    Digits (cs ++ ds) := by
  refine ⟨by simp [hc.ne_nil], fun c h => ?_⟩
  rcases List.mem_append.1 h with h | h
  · exact hc.isDigit c h
  · exact hd c h

theorem digits_zero : Digits ['0'] := ⟨by simp, by simp⟩

theorem positional_eq (d : Decimal) : ∃ whole fraction, Digits whole ∧ Digits fraction ∧
    d.positional ++ (if 0 ≤ d.exponent then ['.', '0'] else []) = whole ++ '.' :: fraction := by
  have hds := digits_digitChars d.digits
  by_cases he : 0 ≤ d.exponent
  · refine ⟨d.positional, ['0'], ?_, digits_zero, by simp [he]⟩
    rw [Decimal.positional]
    simp only [if_pos he]
    refine hds.append fun c hc => ?_
    split at hc
    next => cases hc
    next => exact Decimal.isDigit_of_mem_zeros hc
  · rw [if_neg he, List.append_nil, Decimal.positional]
    simp only [if_neg he]
    generalize Decimal.digitChars d.digits = ds at hds
    have hplaces : 0 < (-d.exponent).toNat := by omega
    generalize (-d.exponent).toNat = places at hplaces
    split
    next hl =>
      refine ⟨['0'], Decimal.zeros (places - ds.length) ++ ds, digits_zero, ?_, rfl⟩
      refine ⟨by simp [hds.ne_nil], fun c hc => ?_⟩
      rcases List.mem_append.1 hc with hc | hc
      · exact Decimal.isDigit_of_mem_zeros hc
      · exact hds.isDigit c hc
    next hl =>
      refine ⟨_, _, ⟨?_, fun c hc => hds.isDigit c (List.mem_of_mem_take hc)⟩,
        ⟨?_, fun c hc => hds.isDigit c (List.mem_of_mem_drop hc)⟩, rfl⟩
      · rw [ne_eq, List.take_eq_nil_iff, not_or]
        exact ⟨by omega, hds.ne_nil⟩
      · rw [ne_eq, List.drop_eq_nil_iff]
        omega

theorem scientific_eq (d : Decimal) (negative : Bool) : ∃ l : Literal, l.WellFormed ∧
    l.IsDecimal ∧ l.chars = (if negative then ['-'] else []) ++ d.scientific := by
  have hds := digits_digitChars d.digits
  have hexp := digits_digitChars d.leadingPlace.natAbs
  rw [Decimal.scientific]
  cases hc : Decimal.digitChars d.digits with
  | nil => exact absurd hc hds.ne_nil
  | cons c cs =>
    rw [hc] at hds
    have hone : Digits [c] := ⟨by simp, fun x hx => hds.isDigit x (by simp_all)⟩
    cases cs with
    | nil =>
      refine ⟨⟨negative, [c], none,
        some (decide (d.leadingPlace < 0), Decimal.digitChars d.leadingPlace.natAbs)⟩, ?_,
        .inr (by simp), ?_⟩
      · exact ⟨hone, by simp, by simpa using hexp⟩
      · simp [Literal.chars, Literal.fractionChars, Literal.exponentChars]
    | cons c' cs =>
      refine ⟨⟨negative, [c], some (c' :: cs),
        some (decide (d.leadingPlace < 0), Decimal.digitChars d.leadingPlace.natAbs)⟩, ?_,
        .inr (by simp), ?_⟩
      · refine ⟨hone, ?_, by simpa using hexp⟩
        rintro ds ⟨⟩
        exact ⟨by simp, fun x hx => hds.isDigit x (List.mem_cons_of_mem _ hx)⟩
      · simp [Literal.chars, Literal.fractionChars, Literal.exponentChars]

/-- A double is written as a number, or as the null that stands for what is not finite. -/
theorem floatChars_eq (x : Float) :
    (∃ l : Literal, l.WellFormed ∧ l.IsDecimal ∧ l.chars = floatChars x) ∨
      floatChars x = nullChars := by
  rw [floatChars.eq_def]
  split
  next negative m q hx =>
    left
    dsimp only
    by_cases hm : m = 0
    · rw [if_pos hm]
      refine ⟨⟨negative, ['0'], some ['0'], none⟩, ⟨digits_zero, ?_, by simp⟩, .inl (by simp), ?_⟩
      · rintro ds ⟨⟩
        exact digits_zero
      · simp [Literal.chars, Literal.fractionChars, Literal.exponentChars]
    by_cases hp : positionalPlaces.1 ≤ (Decimal.shortest .even m q).leadingPlace ∧
        (Decimal.shortest .even m q).leadingPlace ≤ positionalPlaces.2
    · obtain ⟨whole, fraction, hw, hf, he⟩ := positional_eq (Decimal.shortest .even m q)
      rw [if_neg hm, if_pos hp, he]
      refine ⟨⟨negative, whole, some fraction, none⟩, ⟨hw, ?_, by simp⟩, .inl (by simp), ?_⟩
      · rintro ds ⟨⟩
        exact hf
      · simp [Literal.chars, Literal.fractionChars, Literal.exponentChars]
    · rw [if_neg hm, if_neg hp]
      exact scientific_eq _ negative
  next => exact .inr rfl

end Float

end SimCampaign.Json
