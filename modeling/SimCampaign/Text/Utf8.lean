/-! Bytes as UTF-8 text: strictly, or with a replacement character for what is not text. -/

namespace SimCampaign.Text

def decode? (bytes : ByteArray) : Option String := String.fromUTF8? bytes

def encode (s : String) : ByteArray := s.toUTF8

def replacement : Char := Char.ofNat 0xfffd

/-- The number of bytes after the lead byte, the bits the lead byte holds, and the bounds of the
byte that follows it. -/
structure Lead where
  more : Nat
  bits : Nat
  low : Nat
  high : Nat

/-- The bounds of the second byte exclude long forms, surrogates and numbers beyond Unicode. -/
def lead? (b : Nat) : Option Lead :=
  if b < 0x80 then some ⟨0, b, 0, 0⟩
  else if b < 0xc2 then none
  else if b < 0xe0 then some ⟨1, b - 0xc0, 0x80, 0xbf⟩
  else if b = 0xe0 then some ⟨2, 0, 0xa0, 0xbf⟩
  else if b = 0xed then some ⟨2, 0xd, 0x80, 0x9f⟩
  else if b < 0xf0 then some ⟨2, b - 0xe0, 0x80, 0xbf⟩
  else if b = 0xf0 then some ⟨3, 0, 0x90, 0xbf⟩
  else if b < 0xf4 then some ⟨3, b - 0xf0, 0x80, 0xbf⟩
  else if b = 0xf4 then some ⟨3, 4, 0x80, 0x8f⟩
  else none

/-- Reads `more` continuation bytes, the first between `low` and `high`. The bytes left start at the
first one that does not fit. -/
def continuation : Nat → Nat → Nat → Nat → List UInt8 → Option Nat × List UInt8
  | 0, bits, _, _, bytes => (some bits, bytes)
  | _ + 1, _, _, _, [] => (none, [])
  | more + 1, bits, low, high, b :: bytes =>
    if low ≤ b.toNat ∧ b.toNat ≤ high then
      continuation more (bits * 64 + (b.toNat - 0x80)) 0x80 0xbf bytes
    else (none, b :: bytes)

theorem continuation_length_le (more bits low high : Nat) (bytes : List UInt8) :
    (continuation more bits low high bytes).2.length ≤ bytes.length := by
  induction more generalizing bits low high bytes with
  | zero => simp [continuation]
  | succ more ih =>
    cases bytes with
    | nil => simp [continuation]
    | cons b bytes =>
      simp only [continuation]
      split
      · exact Nat.le_succ_of_le (ih _ _ _ _)
      · simp

/-- Each longest piece that could start a character but does not make one becomes one replacement
character, as does each byte that starts none. -/
def decodeLossy : List UInt8 → List Char
  | [] => []
  | b :: bytes =>
    match lead? b.toNat with
    | none => replacement :: decodeLossy bytes
    | some l =>
      let next := continuation l.more l.bits l.low l.high bytes
      (next.1.map Char.ofNat).getD replacement :: decodeLossy next.2
termination_by bytes => bytes.length
decreasing_by
  · simp
  · exact Nat.lt_succ_of_le (continuation_length_le _ _ _ _ _)

end SimCampaign.Text
