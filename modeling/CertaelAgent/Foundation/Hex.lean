import CertaelAgent.Foundation.Wire

/-!
# Hexadecimal texts

A byte is written as two lower-case digits, high half first. Readers take either case, so a
text need not be the encoding of what it decodes to; an encoding always decodes to its bytes.
-/

namespace Hex

open ProtoWire

def digit (value : Fin 16) : Char :=
  if value < 10 then Char.ofNat (48 + value) else Char.ofNat (87 + value)

/-- The digit of a number's last four bits. -/
def lastDigit (n : ℕ) : Char := digit (Fin.ofNat 16 n)

def isDigit (c : Char) : Bool :=
  ('0' ≤ c && c ≤ '9') || ('a' ≤ c && c ≤ 'f') || ('A' ≤ c && c ≤ 'F')

def value (c : Char) : Option (Fin 16) :=
  if '0' ≤ c ∧ c ≤ '9' then some (Fin.ofNat 16 (c.toNat - 48))
  else if 'a' ≤ c ∧ c ≤ 'f' then some (Fin.ofNat 16 (c.toNat - 87))
  else if 'A' ≤ c ∧ c ≤ 'F' then some (Fin.ofNat 16 (c.toNat - 55))
  else none

theorem value_digit (v : Fin 16) : value (digit v) = some v := by
  revert v
  decide

theorem isDigit_digit (v : Fin 16) : isDigit (digit v) := by
  revert v
  decide

theorem toLower_digit (v : Fin 16) : (digit v).toLower = digit v := by
  revert v
  decide

def high (b : UInt8) : Fin 16 := ⟨b.toNat / 16, by have := b.toNat_lt; omega⟩

def low (b : UInt8) : Fin 16 := ⟨b.toNat % 16, by omega⟩

def join (h l : Fin 16) : UInt8 := UInt8.ofNat (16 * h + l)

theorem join_high_low (b : UInt8) : join (high b) (low b) = b := by
  have hsplit : 16 * (b.toNat / 16) + b.toNat % 16 = b.toNat := by omega
  simp [join, high, low, hsplit]

def encodeChars : Bytes → List Char
  | [] => []
  | b :: rest => digit (high b) :: digit (low b) :: encodeChars rest

def decodeChars : List Char → Option Bytes
  | [] => some []
  | [_] => none
  | h :: l :: rest => do
    let h ← value h
    let l ← value l
    let rest ← decodeChars rest
    some (join h l :: rest)

def encode (bytes : Bytes) : String := String.ofList (encodeChars bytes)

def decode (text : String) : Option Bytes := decodeChars text.toList

theorem decodeChars_encodeChars (bytes : Bytes) : decodeChars (encodeChars bytes) = some bytes := by
  induction bytes with
  | nil => rfl
  | cons b rest ih => simp [encodeChars, decodeChars, value_digit, ih, join_high_low]

theorem decode_encode (bytes : Bytes) : decode (encode bytes) = some bytes := by
  simp [decode, encode, decodeChars_encodeChars]

theorem encode_injective {a b : Bytes} (h : encode a = encode b) : a = b := by
  have ha := decode_encode a
  rw [h, decode_encode] at ha
  exact (Option.some.inj ha).symm

theorem mem_encodeChars {bytes : Bytes} {c : Char} (h : c ∈ encodeChars bytes) :
    ∃ v, c = digit v := by
  induction bytes with
  | nil => simp [encodeChars] at h
  | cons b rest ih =>
    rcases List.mem_cons.mp h with rfl | h
    · exact ⟨_, rfl⟩
    · rcases List.mem_cons.mp h with rfl | h
      · exact ⟨_, rfl⟩
      · exact ih h

theorem length_utf8_digit (v : Fin 16) : (String.utf8EncodeChar (digit v)).length = 1 := by
  revert v
  decide

/-- A digit is one byte, so a text has two bytes for every byte it encodes. -/
theorem utf8ByteSize_encode (bytes : Bytes) : (encode bytes).utf8ByteSize = 2 * bytes.length := by
  have hsum : ((encodeChars bytes).flatMap String.utf8EncodeChar).length = 2 * bytes.length := by
    induction bytes with
    | nil => rfl
    | cons b rest ih =>
      simp only [encodeChars, List.flatMap_cons, List.length_append, length_utf8_digit, ih,
        List.length_cons]
      omega
  calc (encode bytes).utf8ByteSize
      = ((encodeChars bytes).flatMap String.utf8EncodeChar).length := by
        simp [encode, ← String.size_toByteArray, List.utf8Encode]
    _ = 2 * bytes.length := hsum

theorem all_isDigit_encode (bytes : Bytes) : (encode bytes).toList.all isDigit := by
  rw [List.all_eq_true]
  intro c hc
  obtain ⟨v, rfl⟩ := mem_encodeChars (by simpa [encode] using hc)
  exact isDigit_digit v

theorem map_toLower_encode (bytes : Bytes) :
    (encode bytes).toList.map Char.toLower = (encode bytes).toList := by
  rw [List.map_congr_left, List.map_id]
  intro c hc
  obtain ⟨v, rfl⟩ := mem_encodeChars (by simpa [encode] using hc)
  exact toLower_digit v

end Hex
