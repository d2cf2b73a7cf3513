import SimCampaign.Json.Reader
import SimCampaign.Json.Writer

/-! A string that is written is read back: each character is escaped on its own. -/

namespace SimCampaign.Json

theorem hexPad4_eq : ∀ n < 0x20,
    hexPad4 n = ['0', '0', (n / 16).digitChar, (n % 16).digitChar] := by decide

theorem hexUnit?_digitChar : ∀ n < 0x20,
    hexUnit? '0' '0' (n / 16).digitChar (n % 16).digitChar = some n := by decide

theorem stringBody?_unit {a b c d : Char} {n : Nat} (h : hexUnit? a b c d = some n)
    (hl : isLeadingUnit n = false) (ht : isTrailingUnit n = false) (rest : List Char) :
    stringBody? ('\\' :: 'u' :: a :: b :: c :: d :: rest) =
      (stringBody? rest).map fun p => (Char.ofNat n :: p.1, p.2) := by
  -- Two branches are left: another escaped unit follows, or not.
  rw [stringBody?.eq_def]
  split
  next he => cases he
  next he => cases he
  next he =>
    cases he
    simp [h, hl, ht]
  next he =>
    cases he
    simp [h, hl, ht]
  next hu he =>
    cases he
    exact absurd rfl (hu a b c d rest rfl)
  next he => cases he
  next hb _ he =>
    cases he
    exact absurd rfl (hb 'u' _ rfl)

theorem stringBody?_simple {c x : Char} (h : simpleEscape? c = some x) (hu : c ≠ 'u')
    (rest : List Char) :
    stringBody? ('\\' :: c :: rest) = (stringBody? rest).map fun p => (x :: p.1, p.2) := by
  rw [stringBody?.eq_def]
  split
  next he => cases he
  next he => cases he
  next he =>
    cases he
    exact absurd rfl hu
  next he =>
    cases he
    exact absurd rfl hu
  next he =>
    cases he
    simp [h]
  next he => cases he
  next hb _ he =>
    cases he
    exact absurd rfl (hb c rest rfl)

theorem stringBody?_plain {c : Char} (hq : c ≠ '"') (hb : c ≠ '\\') (hc : ¬ c.toNat < 0x20)
    (rest : List Char) :
    stringBody? (c :: rest) = (stringBody? rest).map fun p => (c :: p.1, p.2) := by
  rw [stringBody?.eq_def]
  split
  next he => cases he
  next he =>
    cases he
    exact absurd rfl hq
  next he =>
    cases he
    exact absurd rfl hb
  next he =>
    cases he
    exact absurd rfl hb
  next he =>
    cases he
    exact absurd rfl hb
  next he =>
    cases he
    exact absurd rfl hb
  next he =>
    cases he
    rw [if_neg hc]

theorem stringBody?_escapeChar (c : Char) (rest : List Char) :
    stringBody? (escapeChar c ++ rest) = (stringBody? rest).map fun p => (c :: p.1, p.2) := by
  rw [escapeChar.eq_def]
  split
  case h_8 _ hq hb _ _ _ _ _ =>
    split
    next hc =>
      have hl : isLeadingUnit c.toNat = false := by simp [isLeadingUnit]; omega
      have ht : isTrailingUnit c.toNat = false := by simp [isTrailingUnit]; omega
      rw [hexPad4_eq _ hc]
      have hu := stringBody?_unit (hexUnit?_digitChar _ hc) hl ht rest
      rwa [Char.ofNat_toNat] at hu
    next hc => exact stringBody?_plain hq hb hc rest
  all_goals exact stringBody?_simple rfl (by decide) rest

theorem stringBody?_flatMap_escapeChar (cs rest : List Char) :
    stringBody? (cs.flatMap escapeChar ++ '"' :: rest) = some (cs, rest) := by
  induction cs with
  | nil => simp [stringBody?]
  | cons c cs ih =>
    rw [List.flatMap_cons, List.append_assoc, stringBody?_escapeChar, ih]
    rfl

theorem string?_stringChars (s : String) (rest : List Char) :
    ∃ cs, stringChars s ++ rest = '"' :: cs ∧ string? cs = some (s, rest) := by
  refine ⟨s.toList.flatMap escapeChar ++ '"' :: rest, by simp [stringChars], ?_⟩
  rw [string?, stringBody?_flatMap_escapeChar]
  simp

end SimCampaign.Json
