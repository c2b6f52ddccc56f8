import Mathlib.Data.List.Basic
import Mathlib.Tactic

/-!
# UTF-16

Characters up to U+FFFF are one unit, the others a high and a low surrogate. A reader replaces a
surrogate that is not part of a pair, so reading undoes writing and always gives a text.
-/

namespace Utf16

/-- The units of a character. -/
def encodeChar (c : Char) : List UInt16 :=
  if c.toNat < 0x10000 then [UInt16.ofNat c.toNat]
  else [UInt16.ofNat (0xD800 + (c.toNat - 0x10000) / 0x400),
    UInt16.ofNat (0xDC00 + (c.toNat - 0x10000) % 0x400)]

def encode (text : String) : List UInt16 := text.toList.flatMap encodeChar

def isHigh (unit : UInt16) : Bool := 0xD800 ≤ unit.toNat && unit.toNat < 0xDC00

def isLow (unit : UInt16) : Bool := 0xDC00 ≤ unit.toNat && unit.toNat < 0xE000

/-- The character of a surrogate pair. -/
def pair (high low : UInt16) : Char :=
  Char.ofNat (0x10000 + (high.toNat - 0xD800) * 0x400 + (low.toNat - 0xDC00))

/-- What stands for a surrogate without its other half. -/
def replacement : Char := Char.ofNat 0xFFFD

def decodeChars : List UInt16 → List Char
  | [] => []
  | [unit] => [if isHigh unit || isLow unit then replacement else Char.ofNat unit.toNat]
  | unit :: next :: units =>
    if isHigh unit && isLow next then pair unit next :: decodeChars units
    else (if isHigh unit || isLow unit then replacement else Char.ofNat unit.toNat) ::
      decodeChars (next :: units)

/-- `String::from_utf16_lossy`. -/
def decodeLossy (units : List UInt16) : String := String.ofList (decodeChars units)

theorem encodeChar_ne_nil (c : Char) : encodeChar c ≠ [] := by
  unfold encodeChar
  split_ifs <;> simp

theorem decodeChars_encodeChar (c : Char) (units : List UInt16) :
    decodeChars (encodeChar c ++ units) = c :: decodeChars units := by
  have hvalid : c.toNat < 0xD800 ∨ 0xDFFF < c.toNat ∧ c.toNat < 0x110000 := c.valid
  unfold encodeChar
  split_ifs with h
  · have hnat : (UInt16.ofNat c.toNat).toNat = c.toNat := by
      simp only [UInt16.toNat_ofNat']
      omega
    have hhigh : isHigh (UInt16.ofNat c.toNat) = false := by
      simp only [isHigh, hnat, Bool.and_eq_false_iff, decide_eq_false_iff_not]
      omega
    have hlow : isLow (UInt16.ofNat c.toNat) = false := by
      simp only [isLow, hnat, Bool.and_eq_false_iff, decide_eq_false_iff_not]
      omega
    cases units with
    | nil => simp [decodeChars, hhigh, hlow, hnat]
    | cons next units => simp [decodeChars, hhigh, hlow, hnat]
  · have hhighNat : (UInt16.ofNat (0xD800 + (c.toNat - 0x10000) / 0x400)).toNat =
        0xD800 + (c.toNat - 0x10000) / 0x400 := by
      simp only [UInt16.toNat_ofNat']
      omega
    have hlowNat : (UInt16.ofNat (0xDC00 + (c.toNat - 0x10000) % 0x400)).toNat =
        0xDC00 + (c.toNat - 0x10000) % 0x400 := by
      simp only [UInt16.toNat_ofNat']
      omega
    have hhigh : isHigh (UInt16.ofNat (0xD800 + (c.toNat - 0x10000) / 0x400)) = true := by
      simp only [isHigh, hhighNat, Bool.and_eq_true, decide_eq_true_eq]
      omega
    have hlow : isLow (UInt16.ofNat (0xDC00 + (c.toNat - 0x10000) % 0x400)) = true := by
      simp only [isLow, hlowNat, Bool.and_eq_true, decide_eq_true_eq]
      omega
    have hpair : 0x10000 + (0xD800 + (c.toNat - 0x10000) / 0x400 - 0xD800) * 0x400 +
        (0xDC00 + (c.toNat - 0x10000) % 0x400 - 0xDC00) = c.toNat := by
      omega
    simp only [List.cons_append, List.nil_append, decodeChars, hhigh, hlow, Bool.and_self, if_true,
      pair, hhighNat, hlowNat, hpair, Char.ofNat_toNat]

theorem decodeChars_encode (chars : List Char) :
    decodeChars (chars.flatMap encodeChar) = chars := by
  induction chars with
  | nil => rfl
  | cons c chars ih => rw [List.flatMap_cons, decodeChars_encodeChar, ih]

theorem decodeLossy_encode (text : String) : decodeLossy (encode text) = text := by
  unfold decodeLossy encode
  rw [decodeChars_encode, String.ofList_toList]

theorem encode_append (a b : String) : encode (a ++ b) = encode a ++ encode b := by
  simp [encode]

theorem mem_encodeChar_iff {c : Char} {n : ℕ} (hn : n < 0xD800) :
    UInt16.ofNat n ∈ encodeChar c ↔ c.toNat = n := by
  have hvalid : c.toNat < 0xD800 ∨ 0xDFFF < c.toNat ∧ c.toNat < 0x110000 := c.valid
  unfold encodeChar
  split_ifs with h
  · simp only [List.mem_singleton, ← UInt16.toNat_inj, UInt16.toNat_ofNat']
    omega
  · simp only [List.mem_cons, List.not_mem_nil, or_false, ← UInt16.toNat_inj, UInt16.toNat_ofNat']
    omega

theorem not_mem_tail_encodeChar {c : Char} {n : ℕ} (hn : n < 0xD800) :
    UInt16.ofNat n ∉ (encodeChar c).tail := by
  have hvalid : c.toNat < 0xD800 ∨ 0xDFFF < c.toNat ∧ c.toNat < 0x110000 := c.valid
  unfold encodeChar
  split_ifs with h
  · exact List.not_mem_nil
  · simp only [List.tail_cons, List.mem_singleton, ← UInt16.toNat_inj, UInt16.toNat_ofNat']
    omega

theorem mem_encode_iff {text : String} {n : ℕ} (hn : n < 0xD800) :
    UInt16.ofNat n ∈ encode text ↔ ∃ c ∈ text.toList, c.toNat = n := by
  simp only [encode, List.mem_flatMap, mem_encodeChar_iff hn]

end Utf16
