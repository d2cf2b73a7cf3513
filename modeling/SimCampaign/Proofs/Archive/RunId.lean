import SimCampaign.Archive.RunId
import SimCampaign.Proofs.Storage.Path

/-! The text of a run id: sixteen hexadecimal digits, so that it names a folder. -/

namespace SimCampaign.RunId

def hexChars : List Char :=
  ['0', '1', '2', '3', '4', '5', '6', '7', '8', '9', 'a', 'b', 'c', 'd', 'e', 'f']

theorem digitChar_mem_hexChars {n : Nat} (h : n < 16) : n.digitChar ∈ hexChars := by
  revert n
  decide

theorem mem_hexChars_of_mem_toDigits {n : Nat} {c : Char} (h : c ∈ Nat.toDigits 16 n) :
    c ∈ hexChars := by
  induction n using Nat.strongRecOn with
  | ind n ih =>
    rw [Nat.toDigits_eq_if (by decide)] at h
    split at h
    next hn =>
      rw [List.mem_singleton] at h
      exact h ▸ digitChar_mem_hexChars hn
    next hn =>
      rcases List.mem_append.1 h with h | h
      · exact ih (n / 16) (by omega) h
      · rw [List.mem_singleton] at h
        exact h ▸ digitChar_mem_hexChars (Nat.mod_lt n (by decide))

theorem mem_hexChars_of_mem_hex16 {x : UInt64} {c : Char} (h : c ∈ (hex16 x).toList) :
    c ∈ hexChars := by
  rw [hex16, String.toList_ofList] at h
  rcases List.mem_append.1 h with h | h
  · obtain rfl := (List.mem_replicate.1 h).2
    decide
  · exact mem_hexChars_of_mem_toDigits h

theorem length_toList_hex16 (x : UInt64) : (hex16 x).toList.length = 16 := by
  have hl : (Nat.toDigits 16 x.toNat).length ≤ 16 :=
    (Nat.length_toDigits_le_iff (by decide) (by decide)).2 x.toNat_lt
  rw [hex16, String.toList_ofList, List.length_append, List.length_replicate]
  exact Nat.sub_add_cancel hl

section Reading

/-- The number that hexadecimal digits stand for, after those that were read before. -/
def hexValue (before : Nat) (ds : List Char) : Nat :=
  ds.foldl (fun n c => 16 * n + hexChars.idxOf c) before

theorem idxOf_digitChar {n : Nat} (h : n < 16) : hexChars.idxOf n.digitChar = n := by
  revert n
  decide

theorem hexValue_replicate_zero (k : Nat) : hexValue 0 (List.replicate k '0') = 0 := by
  induction k with
  | zero => rfl
  | succ k ih => exact ih

theorem hexValue_toDigits (n : Nat) : hexValue 0 (Nat.toDigits 16 n) = n := by
  induction n using Nat.strongRecOn with
  | ind n ih =>
    rw [Nat.toDigits_eq_if (by decide)]
    split
    next hn => simp [hexValue, idxOf_digitChar hn]
    next hn =>
      have hd := ih (n / 16) (by omega)
      rw [hexValue] at hd ⊢
      rw [List.foldl_append, hd, List.foldl_cons, List.foldl_nil,
        idxOf_digitChar (Nat.mod_lt n (by decide)), Nat.div_add_mod]

theorem hexValue_hex16 (x : UInt64) : hexValue 0 (hex16 x).toList = x.toNat := by
  have hz := hexValue_replicate_zero (16 - (Nat.toDigits 16 x.toNat).length)
  have hd := hexValue_toDigits x.toNat
  rw [hexValue] at hz hd ⊢
  rw [hex16, String.toList_ofList, List.foldl_append, hz, hd]

theorem hex16_injective : Function.Injective hex16 := by
  intro x y h
  apply UInt64.toNat_inj.1
  rw [← hexValue_hex16, ← hexValue_hex16, h]

end Reading

theorem plain_ofParams (params : Param.Assignment) : Path.Plain (ofParams params) := by
  have hl := length_toList_hex16 (hash params)
  have hne (s : String) (hs : s.toList.length ≠ 16) : ofParams params ≠ s := by
    rintro rfl
    exact hs hl
  refine ⟨hne _ (by decide), ?_, hne _ (by decide), hne _ (by decide)⟩
  intro hm
  exact absurd (mem_hexChars_of_mem_hex16 hm) (by decide)

end SimCampaign.RunId
