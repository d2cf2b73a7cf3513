import Mathlib.Data.List.Lex
import SimCampaign.Text.Utf8

/-! Texts in the order of their bytes, which is that of their characters. -/

namespace SimCampaign.Text

def bytes (s : String) : List UInt8 := (encode s).data.toList

theorem bytes_eq (s : String) : bytes s = s.toList.flatMap String.utf8EncodeChar := by
  rw [bytes, encode, String.toUTF8, ← String.utf8Encode_toList]
  exact List.toList_data_toByteArray

theorem ofNat_cons_lt {m n : Nat} {xs ys : List UInt8} (hn : n < 256)
    (h : m < n ∨ m = n ∧ xs < ys) : UInt8.ofNat m :: xs < UInt8.ofNat n :: ys := by
  rw [List.cons_lt_cons_iff]
  refine h.imp (fun hlt => ?_) fun ⟨he, hlt⟩ => ⟨congrArg _ he, hlt⟩
  rw [UInt8.lt_iff_toNat_lt, UInt8.toNat_ofNat_of_lt' hn, UInt8.toNat_ofNat_of_lt' (hlt.trans hn)]
  exact hlt

/-- A longer character has a greater lead byte. The bytes of characters of one length hold the
digits of their numbers to the base 64. -/
theorem utf8EncodeChar_append_lt {c d : Char} (h : c < d) (xs ys : List UInt8) :
    String.utf8EncodeChar c ++ xs < String.utf8EncodeChar d ++ ys := by
  have hlt : c.val.toNat < d.val.toNat := h
  have hd : d.val.toNat < 0x110000 := by
    have hv := d.valid
    simp only [UInt32.isValidChar, Nat.isValidChar] at hv
    omega
  unfold String.utf8EncodeChar
  generalize c.val.toNat = m at hlt ⊢
  generalize d.val.toNat = n at hlt hd ⊢
  simp only
  split_ifs <;> simp only [List.cons_append, List.nil_append] <;>
    refine ofNat_cons_lt (by omega) ?_
  -- Two, three and four bytes on both sides are left.
  all_goals try exact .inl (by omega)
  · refine (by omega : _ ∨ _ ∧ m % 64 < n % 64).imp_right fun ⟨he, hlt⟩ => ⟨he, ?_⟩
    exact ofNat_cons_lt (by omega) (.inl (by omega))
  · refine (by omega : _ ∨ _ ∧ m % 4096 < n % 4096).imp_right fun ⟨he, hlt⟩ => ⟨he, ?_⟩
    refine ofNat_cons_lt (by omega) ?_
    refine (by omega : _ ∨ _ ∧ m % 64 < n % 64).imp_right fun ⟨he, hlt⟩ => ⟨he, ?_⟩
    exact ofNat_cons_lt (by omega) (.inl (by omega))
  · refine (by omega : _ ∨ _ ∧ m % 262144 < n % 262144).imp_right fun ⟨he, hlt⟩ => ⟨he, ?_⟩
    refine ofNat_cons_lt (by omega) ?_
    refine (by omega : _ ∨ _ ∧ m % 4096 < n % 4096).imp_right fun ⟨he, hlt⟩ => ⟨he, ?_⟩
    refine ofNat_cons_lt (by omega) ?_
    refine (by omega : _ ∨ _ ∧ m % 64 < n % 64).imp_right fun ⟨he, hlt⟩ => ⟨he, ?_⟩
    exact ofNat_cons_lt (by omega) (.inl (by omega))

theorem flatMap_utf8EncodeChar_lt {cs ds : List Char} (h : cs < ds) :
    cs.flatMap String.utf8EncodeChar < ds.flatMap String.utf8EncodeChar := by
  induction h with
  | @nil d ds =>
    have hne : String.utf8EncodeChar d ≠ [] := String.utf8EncodeChar_ne_nil
    obtain ⟨b, bs, hd⟩ := List.exists_cons_of_ne_nil hne
    rw [List.flatMap_cons, List.flatMap_nil, hd]
    exact List.nil_lt_cons _ _
  | rel hlt => exact utf8EncodeChar_append_lt hlt _ _
  | cons _ ih => exact List.append_left_lt ih

theorem bytes_lt {a b : String} (h : a < b) : bytes a < bytes b := by
  rw [bytes_eq, bytes_eq]
  exact flatMap_utf8EncodeChar_lt h

theorem bytes_le_iff {a b : String} : bytes a ≤ bytes b ↔ a ≤ b := by
  constructor
  · exact fun h hlt => h (bytes_lt hlt)
  · intro h
    by_cases hlt : a < b
    · exact List.le_of_lt (bytes_lt hlt)
    · rw [String.le_antisymm h (String.not_lt.1 hlt)]
      exact List.le_refl _

end SimCampaign.Text
