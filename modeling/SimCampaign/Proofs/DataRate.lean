import SimCampaign.Proofs.Decimal.Reading
import SimCampaign.Quantity

/-! Written data rates: which texts are read, and as which rates. -/

namespace SimCampaign.DataRate
variable {s : String} {d cs suffix value unit : List Char} {factor x y : Float} {r : DataRate}

section Rounding

/-- Whether a rate is what a double is rounded to: to the nearest integer, a half going away from
zero, and to the largest rate if it is beyond that. -/
def Rounds (y : Float) (r : DataRate) : Prop :=
  (Binary64.ofFloat y = .infinite false ∧ r.bps.toNat = maxUInt64) ∨
  ∃ v : ℚ, (Binary64.ofFloat y).value? = some v ∧ 0 ≤ v ∧
    r.bps.toNat = min ⌊v + 1 / 2⌋₊ maxUInt64

theorem toNat_toUInt64_min (n : ℕ) : (min n maxUInt64).toUInt64.toNat = min n maxUInt64 :=
  Nat.mod_eq_of_lt ((min_le_right _ _).trans_lt (by decide))

theorem rounds_ofFloat (h : Binary64.Unsigned (Binary64.ofFloat y)) : Rounds y (ofFloat y) := by
  rw [Rounds, ofFloat]
  cases hb : Binary64.ofFloat y with
  | nan => rw [hb] at h; cases h
  | infinite negative =>
    rw [hb] at h
    obtain rfl : negative = false := h
    exact .inl ⟨rfl, rfl⟩
  | finite negative m e =>
    rw [hb] at h
    obtain rfl : negative = false := h
    refine .inr ⟨m * 2 ^ e, rfl, by positivity, ?_⟩
    rw [← Binary64.roundMagnitude_eq]
    exact toNat_toUInt64_min _

end Rounding

section Units

/-- The unit letters before `bps`, and their factors. -/
def units : List (List Char × Float) :=
  [([], 1.0), (['k'], 1e3), (['K'], 1e3), (['M'], 1e6), (['G'], 1e9)]

theorem exists_ofFloat_factor (h : (unit, factor) ∈ units) :
    ∃ m e, Binary64.ofFloat factor = .finite false m e ∧ 2 ^ 52 ≤ m := by
  simp only [units, List.mem_cons, Prod.mk.injEq, List.not_mem_nil, or_false] at h
  rcases h with ⟨-, rfl⟩ | ⟨-, rfl⟩ | ⟨-, rfl⟩ | ⟨-, rfl⟩ | ⟨-, rfl⟩
  · exact ⟨2 ^ 52, -52, by decide +kernel, le_refl _⟩
  · exact ⟨1000 * 2 ^ 43, -43, by decide +kernel, by decide⟩
  · exact ⟨1000 * 2 ^ 43, -43, by decide +kernel, by decide⟩
  · exact ⟨1000000 * 2 ^ 33, -33, by decide +kernel, by decide⟩
  · exact ⟨1000000000 * 2 ^ 23, -23, by decide +kernel, by decide⟩

theorem splitUnit_append (hu : (unit, factor) ∈ units) (hd : Decimal.Plain d) :
    splitUnit (d ++ unit) = (d, factor) := by
  have hlast (c : Char) (hc : ¬ (c.isDigit = true ∨ c = '.')) : d.getLast? ≠ some c :=
    fun h => hc (hd c (List.mem_of_getLast? h))
  simp only [units, List.mem_cons, Prod.mk.injEq, List.not_mem_nil, or_false] at hu
  rcases hu with ⟨rfl, rfl⟩ | ⟨rfl, rfl⟩ | ⟨rfl, rfl⟩ | ⟨rfl, rfl⟩ | ⟨rfl, rfl⟩
  · rw [List.append_nil, splitUnit]
    split
    next hl => exact absurd hl (hlast 'k' (by decide))
    next hl => exact absurd hl (hlast 'K' (by decide))
    next hl => exact absurd hl (hlast 'M' (by decide))
    next hl => exact absurd hl (hlast 'G' (by decide))
    next => rfl
  all_goals simp [splitUnit]

theorem exists_unit_of_splitUnit (h : splitUnit value = (d, factor)) :
    ∃ unit, (unit, factor) ∈ units ∧ value = d ++ unit := by
  have hletter {c : Char} {f : Float} (hu : ([c], f) ∈ units) (hl : value.getLast? = some c)
      (h : (value.dropLast, f) = (d, factor)) :
      ∃ unit, (unit, factor) ∈ units ∧ value = d ++ unit := by
    obtain ⟨rfl, rfl⟩ := Prod.mk.inj h
    exact ⟨[c], hu, (List.dropLast_append_getLast? c hl).symm⟩
  rw [splitUnit] at h
  split at h
  next hl => exact hletter (by simp [units]) hl h
  next hl => exact hletter (by simp [units]) hl h
  next hl => exact hletter (by simp [units]) hl h
  next hl => exact hletter (by simp [units]) hl h
  next =>
    obtain ⟨rfl, rfl⟩ := Prod.mk.inj h
    exact ⟨[], by simp [units], (List.append_nil _).symm⟩

theorem dropSuffix?_eq_some_iff : dropSuffix? suffix cs = some value ↔ cs = value ++ suffix := by
  rw [dropSuffix?]
  split_ifs with h
  · rw [List.isSuffixOf_iff_suffix, List.suffix_iff_eq_append] at h
    rw [Option.some_inj]
    constructor
    · rintro rfl
      exact h.symm
    · rintro rfl
      simp
  · refine iff_of_false (fun hs => nomatch hs) ?_
    rintro rfl
    exact h (List.isSuffixOf_iff_suffix.2 (List.suffix_append _ _))

end Units

section Parsing

/-- Whether a text is digits with at most one point and at least one digit, an optional unit letter
and `bps`. -/
structure Spells (s : String) (d unit : List Char) (factor : Float) : Prop where
  mem_units : (unit, factor) ∈ units
  text : s.toList = d ++ unit ++ ['b', 'p', 's']
  plain : ∀ c ∈ d, c.isDigit = true ∨ c = '.'
  one_point : d.count '.' ≤ 1
  digit : ∃ c ∈ d, c.isDigit = true

theorem Spells.exists_writes (h : Spells s d unit factor) : ∃ q, Decimal.Writes d q :=
  Decimal.exists_writes_iff.2 ⟨h.plain, h.one_point, h.digit⟩

theorem spells_of_writes {q : ℚ} (hu : (unit, factor) ∈ units)
    (hs : s.toList = d ++ unit ++ ['b', 'p', 's']) (hq : Decimal.Writes d q) :
    Spells s d unit factor := by
  obtain ⟨hplain, hone, hdigit⟩ := Decimal.exists_writes_iff.1 ⟨q, hq⟩
  exact ⟨hu, hs, hplain, hone, hdigit⟩

theorem all_digits_iff : (d.all fun c => c.isDigit || c == '.') = true ↔ Decimal.Plain d := by
  simp [Decimal.Plain]

theorem parse?_of_plain (hu : (unit, factor) ∈ units)
    (hs : s.toList = d ++ unit ++ ['b', 'p', 's']) (hd : Decimal.Plain d) (hne : d ≠ []) :
    parse? s = (Decimal.float? d).map fun x => ofFloat (x * factor) := by
  have hsuffix := dropSuffix?_eq_some_iff.2 hs
  have hall : ¬ (d = [] ∨ (!d.all fun c => c.isDigit || c == '.') = true) := by
    rw [all_digits_iff.2 hd]
    simpa using hne
  rw [parse?, hsuffix, Option.bind_eq_bind, Option.bind_some, splitUnit_append hu hd]
  dsimp only
  rw [if_neg hall]
  cases Decimal.float? d <;> rfl

theorem exists_spells_of_parse? (h : parse? s = some r) :
    ∃ d unit factor, Spells s d unit factor := by
  rw [parse?] at h
  obtain ⟨value, hv, h⟩ := Option.bind_eq_some_iff.1 h
  cases hsplit : splitUnit value with
  | mk d factor =>
    obtain ⟨unit, hu, rfl⟩ := exists_unit_of_splitUnit hsplit
    rw [hsplit] at h
    dsimp only at h
    split_ifs at h with hd
    obtain ⟨-, hall⟩ := not_or.1 hd
    obtain ⟨x, hx, -⟩ := Option.bind_eq_some_iff.1 h
    rw [Bool.not_eq_true', Bool.not_eq_false] at hall
    have hplain := all_digits_iff.1 hall
    obtain ⟨q, hq⟩ := Decimal.exists_writes_of_float? hplain hx
    exact ⟨d, unit, factor, spells_of_writes hu (dropSuffix?_eq_some_iff.1 hv) hq⟩

theorem Spells.exists_parse? (h : Spells s d unit factor) : ∃ q x r, Decimal.Writes d q ∧
    Decimal.float? d = some x ∧ Binary64.Nearest q (Binary64.ofFloat x) ∧
    parse? s = some r ∧ Rounds (x * factor) r := by
  obtain ⟨q, hq⟩ := h.exists_writes
  obtain ⟨x, hx, hnearest⟩ := Decimal.float?_of_writes hq
  obtain ⟨c, hc, -⟩ := h.digit
  obtain ⟨m, e, hfactor, hfull⟩ := exists_ofFloat_factor h.mem_units
  refine ⟨q, x, ofFloat (x * factor), hq, hx, hnearest, ?_, ?_⟩
  · rw [parse?_of_plain h.mem_units h.text h.plain (List.ne_nil_of_mem hc), hx, Option.map_some]
  · exact rounds_ofFloat (hnearest.unsigned.mul hfactor hfull)

/-- The texts that are read as rates are those of the grammar. The number is read as the nearest
double, and its product with the factor is rounded to the rate. -/
theorem parse?_spec (s : String) :
    ((∃ r, parse? s = some r) ↔ ∃ d unit factor, Spells s d unit factor) ∧
    ∀ d unit factor, Spells s d unit factor → ∃ q x r, Decimal.Writes d q ∧
      Decimal.float? d = some x ∧ Binary64.Nearest q (Binary64.ofFloat x) ∧
      parse? s = some r ∧ Rounds (x * factor) r := by
  refine ⟨⟨fun ⟨r, hr⟩ => exists_spells_of_parse? hr, ?_⟩, fun d unit factor h => h.exists_parse?⟩
  rintro ⟨d, unit, factor, h⟩
  obtain ⟨q, x, r, -, -, -, hr, -⟩ := h.exists_parse?
  exact ⟨r, hr⟩

/-- A number may begin with its point. -/
theorem parse?_spec_halfKilo : ∃ q x r, Decimal.Writes ['.', '5'] q ∧
    Decimal.float? ['.', '5'] = some x ∧ Binary64.Nearest q (Binary64.ofFloat x) ∧
    parse? ".5kbps" = some r ∧ Rounds (x * 1e3) r :=
  (parse?_spec ".5kbps").2 ['.', '5'] ['k'] 1e3
    ⟨by simp [units], by decide +kernel, by simp, by decide, ⟨'5', by decide, by decide⟩⟩

example : parse? "0.5bps" = some ⟨1⟩ ∧ parse? "99999999999.Gbps" = some ⟨18446744073709551615⟩ ∧
    parse? ".bps" = none ∧ parse? "1kMbps" = none ∧ parse? "1e3bps" = none := by
  decide +kernel

end Parsing

end SimCampaign.DataRate
