import Mathlib
import SimCampaign.Proofs.Archive.Execution
import SimCampaign.Proofs.Record

/-! The hash behind run ids. Each step is a bijection of the state, so runs that differ in one short
value have different ids, whatever else they have in common. -/

namespace SimCampaign.RunId
open Param (Assignment Value)

variable {a : Assignment} {name : String} {v v' : Value} {bytes bytes' : List UInt8}

section Mixing

theorem toNat_div_lt (x : UInt64) : x.toNat / 2 ^ 59 < 2 ^ 5 := by
  have hx : x.toNat < 2 ^ 64 := x.toNat_lt
  omega

/-- The five bits that leave at the top come back at the bottom. -/
theorem toNat_rotate5 (x : UInt64) :
    (rotate5 x).toNat = x.toNat % 2 ^ 59 * 2 ^ 5 + x.toNat / 2 ^ 59 := by
  have hlow : x.toNat <<< 5 % 2 ^ 64 = (x.toNat % 2 ^ 59) <<< 5 := by
    rw [Nat.shiftLeft_eq, Nat.shiftLeft_eq]
    omega
  rw [rotate5, UInt64.toNat_or, UInt64.toNat_shiftLeft, UInt64.toNat_shiftRight]
  calc x.toNat <<< 5 % 2 ^ 64 ||| x.toNat >>> 59
      = (x.toNat % 2 ^ 59) <<< 5 ||| x.toNat / 2 ^ 59 := by rw [hlow, Nat.shiftRight_eq_div_pow]
    _ = (x.toNat % 2 ^ 59) <<< 5 + x.toNat / 2 ^ 59 :=
      (Nat.shiftLeft_add_eq_or_of_lt (toNat_div_lt x) _).symm
    _ = x.toNat % 2 ^ 59 * 2 ^ 5 + x.toNat / 2 ^ 59 := by rw [Nat.shiftLeft_eq]

theorem rotate5_injective : Function.Injective rotate5 := by
  have hparts (x : UInt64) : (rotate5 x).toNat % 2 ^ 5 = x.toNat / 2 ^ 59 ∧
      (rotate5 x).toNat / 2 ^ 5 = x.toNat % 2 ^ 59 := by
    rw [toNat_rotate5, Nat.mul_comm, Nat.mul_add_mod, Nat.mul_add_div (by decide),
      Nat.mod_eq_of_lt (toNat_div_lt x), Nat.div_eq_of_lt (toNat_div_lt x)]
    exact ⟨rfl, rfl⟩
  intro x y h
  apply UInt64.toNat_inj.1
  rw [← Nat.div_add_mod x.toNat (2 ^ 59), ← (hparts x).1, ← (hparts x).2, h, (hparts y).1,
    (hparts y).2, Nat.div_add_mod]

/-- The multiplier is odd, so it has an inverse. -/
def unspread : UInt64 := 0x2040003d780970bd

theorem spread_mul_unspread : spread * unspread = 1 := by decide

theorem mul_spread_injective : Function.Injective (· * spread) := by
  intro x y h
  have hm : x * spread * unspread = y * spread * unspread := congrArg (· * unspread) h
  rwa [UInt64.mul_assoc, UInt64.mul_assoc, spread_mul_unspread, UInt64.mul_one,
    UInt64.mul_one] at hm

theorem mix_left_injective (w : UInt64) : Function.Injective (mix · w) := by
  intro x y h
  exact rotate5_injective ((UInt64.xor_left_inj w).1 (mul_spread_injective h))

theorem mix_right_injective (state : UInt64) : Function.Injective (mix state) := by
  intro w w' h
  exact (UInt64.xor_right_inj (rotate5 state)).1 (mul_spread_injective h)

/-- Words in common leave two states different. -/
theorem foldl_mix_injective (ws : List UInt64) : Function.Injective (ws.foldl mix) := by
  induction ws with
  | nil => exact fun _ _ h => h
  | cons w ws ih => exact fun _ _ h => mix_left_injective w (ih h)

/-- One word makes the difference, wherever it is read. -/
theorem foldl_mix_ne (state : UInt64) (before after : List UInt64) {w w' : UInt64} (h : w ≠ w') :
    (before ++ w :: after).foldl mix state ≠ (before ++ w' :: after).foldl mix state := by
  intro he
  rw [List.foldl_append, List.foldl_append] at he
  exact h (mix_right_injective _ (foldl_mix_injective after he))

end Mixing

section Words

def littleEndian : List UInt8 → Nat
  | [] => 0
  | b :: bytes => b.toNat + 256 * littleEndian bytes

theorem littleEndian_lt (bytes : List UInt8) : littleEndian bytes < 256 ^ bytes.length := by
  induction bytes with
  | nil => exact Nat.one_pos
  | cons b bytes ih =>
    have hb : b.toNat < 256 := b.toNat_lt
    rw [littleEndian, List.length_cons, Nat.pow_succ]
    omega

theorem toNat_word (h : bytes.length ≤ 8) : (word bytes).toNat = littleEndian bytes := by
  induction bytes with
  | nil => rfl
  | cons b bytes ih =>
    have hl : bytes.length ≤ 7 := Nat.le_of_succ_le_succ h
    have hb : b.toNat < 2 ^ 8 := b.toNat_lt
    have hlt : littleEndian bytes < 256 ^ 7 :=
      (littleEndian_lt bytes).trans_le (Nat.pow_le_pow_right (by decide) hl)
    have hshift : littleEndian bytes <<< 8 % 2 ^ 64 = littleEndian bytes <<< 8 := by
      rw [Nat.shiftLeft_eq]
      exact Nat.mod_eq_of_lt (by omega)
    have hword : word (b :: bytes) = word bytes <<< 8 ||| b.toUInt64 := rfl
    rw [hword, UInt64.toNat_or, UInt64.toNat_shiftLeft, ih (by omega), UInt8.toNat_toUInt64]
    calc littleEndian bytes <<< 8 % 2 ^ 64 ||| b.toNat
        = littleEndian bytes <<< 8 + b.toNat := by
          rw [hshift, Nat.shiftLeft_add_eq_or_of_lt hb]
      _ = littleEndian (b :: bytes) := by
          rw [Nat.shiftLeft_eq, littleEndian]
          omega

/-- Without zero bytes, texts of different lengths are different numbers, too. -/
theorem eq_of_littleEndian_eq (hz : 0 ∉ bytes) (hz' : 0 ∉ bytes')
    (h : littleEndian bytes = littleEndian bytes') : bytes = bytes' := by
  have hpos {b : UInt8} (hb : 0 ≠ b) : b.toNat ≠ 0 := fun he => hb (UInt8.toNat_inj.1 he.symm)
  induction bytes generalizing bytes' with
  | nil =>
    cases bytes' with
    | nil => rfl
    | cons b bytes' =>
      have hb := hpos (List.ne_of_not_mem_cons hz')
      simp only [littleEndian] at h
      omega
  | cons b bytes ih =>
    cases bytes' with
    | nil =>
      have hb := hpos (List.ne_of_not_mem_cons hz)
      simp only [littleEndian] at h
      omega
    | cons b' bytes' =>
      have hlt : b.toNat < 256 := b.toNat_lt
      have hlt' : b'.toNat < 256 := b'.toNat_lt
      simp only [littleEndian] at h
      have hhead : b = b' := UInt8.toNat_inj.1 (by omega)
      rw [hhead, ih (List.not_mem_of_not_mem_cons hz) (List.not_mem_of_not_mem_cons hz')
        (by omega)]

/-- Four widths are read in one word. -/
theorem words_of_length (h : bytes.length ∈ [1, 2, 4, 8]) : words bytes = [word bytes] := by
  match bytes, h with
  | [_], _ => rfl
  | [_, _], _ => rfl
  | [_, _, _, _], _ => rfl
  | [_, _, _, _, _, _, _, _], _ => rfl

end Words

/-- A text of one, two, four or eight bytes, none of which is zero. -/
structure OneWord (s : String) : Prop where
  length : s.toUTF8.data.toList.length ∈ [1, 2, 4, 8]
  no_zero : 0 ∉ s.toUTF8.data.toList

theorem OneWord.textWords {s : String} (h : OneWord s) :
    textWords s = [word s.toUTF8.data.toList] := words_of_length h.length

theorem OneWord.word_ne {s s' : String} (h : OneWord s) (h' : OneWord s') (hne : s ≠ s') :
    word s.toUTF8.data.toList ≠ word s'.toUTF8.data.toList := by
  have hle {n : Nat} (hn : n ∈ [1, 2, 4, 8]) : n ≤ 8 := by simp at hn; omega
  intro he
  have hn := congrArg UInt64.toNat he
  rw [toNat_word (hle h.length), toNat_word (hle h'.length)] at hn
  have hb := eq_of_littleEndian_eq h.no_zero h'.no_zero hn
  exact hne (String.toByteArray_inj.1 (ByteArray.ext (Array.ext' hb)))

section Put

theorem exists_pairs_put (a : Assignment) (name : String) : ∃ before after,
    ∀ v : Value, (a.put name v).pairs = before ++ (name, v) :: after := by
  by_cases h : name ∈ a.names
  · obtain ⟨w, hw⟩ := Record.exists_mem_pairs h
    obtain ⟨before, after, hp⟩ := Record.exists_pairs_eq (Record.get?_eq_some_iff.2 hw)
    refine ⟨before, after, fun v => ?_⟩
    rw [Record.put, dif_pos h]
    exact Record.pairs_replace hp v
  · exact ⟨a.pairs, [], fun v => Record.pairs_put_of_not_mem h v⟩

theorem hash_put_ne (h : OneWord v.display) (h' : OneWord v'.display)
    (hne : v.display ≠ v'.display) : hash (a.put name v) ≠ hash (a.put name v') := by
  obtain ⟨before, after, hp⟩ := exists_pairs_put a name
  have hwords {v : Value} (h : OneWord v.display) :
      (a.put name v).pairs.flatMap pairWords =
        (before.flatMap pairWords ++ textWords name ++ [0]) ++
          word v.display.toUTF8.data.toList :: 0 :: after.flatMap pairWords := by
    rw [hp, List.flatMap_append, List.flatMap_cons, pairWords, h.textWords]
    simp
  rw [hash, hash, hwords h, hwords h']
  exact foldl_mix_ne 0 _ _ (h.word_ne h' hne)

theorem ofParams_put_ne (h : OneWord v.display) (h' : OneWord v'.display)
    (hne : v.display ≠ v'.display) : ofParams (a.put name v) ≠ ofParams (a.put name v') := by
  intro he
  rw [ofParams, ofParams] at he
  exact hash_put_ne h h' hne (hex16_injective he)

end Put

section Repetitions
variable {i j : Nat}

theorem display_ofNat (h : i < 2 ^ 63) :
    (Value.ofNat i).display = String.ofList (Nat.toDigits 10 i) := by
  have hi : (Int64.ofNat i).toInt = i := Int64.toInt_ofNat_of_lt h
  rw [Value.ofNat, Value.display, hi]
  exact Nat.toString_eq_ofList_toDigits

theorem display_ofNat_ne (hi : i < 2 ^ 63) (hj : j < 2 ^ 63) (hne : i ≠ j) :
    (Value.ofNat i).display ≠ (Value.ofNat j).display := by
  intro h
  have hl := congrArg String.toList h
  rw [display_ofNat hi, display_ofNat hj, String.toList_ofList, String.toList_ofList] at hl
  have hv := congrArg (fun ds => Nat.ofDigitChars 10 ds 0) hl
  simp only [Nat.ofDigitChars_ten_toDigits] at hv
  exact hne hv

theorem oneWord_display_ofNat (h : i < 100) : OneWord (Value.ofNat i).display := by
  have hall : ∀ i < 100,
      (Value.ofNat i).display.toUTF8.data.toList.length ∈ [1, 2, 4, 8] ∧
        (0 : UInt8) ∉ (Value.ofNat i).display.toUTF8.data.toList := by
    decide +kernel
  exact ⟨(hall i h).1, (hall i h).2⟩

theorem of_ids_ne (params : Assignment) (hi : i < 100) (hj : j < 100) (hne : i ≠ j) :
    (Archive.PendingRun.of params i).id ≠ (Archive.PendingRun.of params j).id :=
  ofParams_put_ne (oneWord_display_ofNat hi) (oneWord_display_ofNat hj)
    (display_ofNat_ne (by omega) (by omega) hne)

end Repetitions

/-- A short value decides the run id, wherever its name stands; repetitions below a hundred have
folders of their own, none within another's; and every run id is sixteen hexadecimal digits. -/
theorem ofParams_apart :
    (∀ (a : Assignment) (name : String) (v v' : Value),
      OneWord v.display → OneWord v'.display → v.display ≠ v'.display →
        ofParams (a.put name v) ≠ ofParams (a.put name v')) ∧
    (∀ (archive : Archive) (params : Assignment) (i j : Nat), i < 100 → j < 100 → i ≠ j →
      ¬ archive.runFolder (Archive.PendingRun.of params i).id <+:
        archive.runFolder (Archive.PendingRun.of params j).id) ∧
    ∀ params : Assignment, (ofParams params).toList.length = 16 ∧
      ∀ c ∈ (ofParams params).toList, c ∈ hexChars := by
  refine ⟨fun a name v v' h h' hne => ofParams_put_ne h h' hne, ?_, fun params => ?_⟩
  · intro archive params i j hi hj hne
    have hids := of_ids_ne params hi hj hne
    have hfolder := Archive.not_runFolder_above (a := archive) (plain_ofParams _)
      (plain_ofParams _) hids []
    rwa [List.append_nil] at hfolder
  · exact ⟨length_toList_hex16 _, fun c hc => mem_hexChars_of_mem_hex16 hc⟩

/-- A value in the middle, eight bytes long or a single digit, and two repetitions. -/
theorem ofParams_apart_middle :
    let a : Assignment := Record.ofPairs
      [("protocol", .text "a long text, in several words"), ("rate", .int 0), ("seed", .int 5)]
    ofParams (a.put "rate" (.text "54.0Mbps")) ≠ ofParams (a.put "rate" (.int 7)) ∧
      ∀ archive : Archive, ¬ archive.runFolder (Archive.PendingRun.of a 7).id <+:
        archive.runFolder (Archive.PendingRun.of a 70).id := by
  intro a
  have height : OneWord (Value.text "54.0Mbps").display := ⟨by decide +kernel, by decide +kernel⟩
  have hdigit : OneWord (Value.int 7).display := ⟨by decide +kernel, by decide +kernel⟩
  refine ⟨ofParams_apart.1 a "rate" _ _ height hdigit (by decide +kernel), fun archive => ?_⟩
  exact ofParams_apart.2.1 archive a 7 70 (by decide) (by decide) (by decide)

end SimCampaign.RunId
