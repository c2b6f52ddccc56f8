import CertaelAgent.Foundation.Schema

/-!
# Sizes of encodings

How many bytes a message takes, computed from the sizes of its values. A varint takes one byte for
every seven bits; a field takes its key and its payload; a message takes its fields.
-/

namespace ProtoWire

/-- One byte for every seven bits, and ten at most. -/
def varintLength (n : ℕ) : ℕ := min 10 (n.log2 / 7 + 1)

theorem log2_div_128 {n : ℕ} (h : 128 ≤ n) : n.log2 / 7 = (n / 128).log2 / 7 + 1 := by
  have hlog : (n / 2 ^ 7).log2 = n.log2 - 7 := by
    rw [Nat.log2_eq_log_two, Nat.log2_eq_log_two, Nat.log_div_base_pow]
  have hlarge : 7 ≤ n.log2 := (Nat.le_log2 (by omega)).mpr (by omega)
  rw [show 128 = 2 ^ 7 from rfl, hlog]
  omega

theorem varintGroups_length (extra n : ℕ) :
    (varintGroups extra n).length = min (extra + 1) (n.log2 / 7 + 1) := by
  induction extra generalizing n with
  | zero => simp [varintGroups]
  | succ extra ih =>
    unfold varintGroups
    split_ifs with h
    · have hlog : n.log2 < 7 := by
        rcases Nat.eq_zero_or_pos n with rfl | hpos
        · decide
        · exact (Nat.log2_lt (by omega)).mpr h
      simp only [List.length_singleton]
      omega
    · rw [List.length_cons, ih, log2_div_128 (not_lt.mp h)]
      omega

theorem encodeVarint_length (n : ℕ) : (encodeVarint n).length = varintLength n :=
  varintGroups_length 9 n

/-- The bytes of a payload under its key. -/
def occurrenceSize : Occurrence → ℕ
  | (tag, .varint n) => varintLength (8 * tag) + varintLength n
  | (tag, .delimited body) => varintLength (8 * tag + 2) + (varintLength body.length + body.length)
  | (_, .skipped) => 0

theorem encodeField_length (f : Occurrence) : (encodeField f).length = occurrenceSize f := by
  obtain ⟨tag, p⟩ := f
  cases p <;> simp [encodeField, occurrenceSize, encodeVarint_length]

theorem encodeFields_length (fields : List Occurrence) :
    (encodeFields fields).length = (fields.map occurrenceSize).sum := by
  induction fields with
  | nil => rfl
  | cons f fields ih =>
    rw [List.map_cons, List.sum_cons, ← ih, ← encodeField_length f]
    simp [encodeFields]

/-- The bytes of a body of the given length under its key. -/
def delimitedSize (tag length : ℕ) : ℕ :=
  varintLength (8 * tag + 2) + (varintLength length + length)

/-- The bytes of a number under its key; zero is not written. -/
def varintSize (tag n : ℕ) : ℕ := if n = 0 then 0 else varintLength (8 * tag) + varintLength n

/-- The bytes of a body under its key; an empty one is not written. -/
def bodySize (tag length : ℕ) : ℕ := if length = 0 then 0 else delimitedSize tag length

theorem varintLength_le (n : ℕ) : varintLength n ≤ 10 := min_le_left _ _

theorem varintSize_le (tag n : ℕ) : varintSize tag n ≤ 20 := by
  have hkey := varintLength_le (8 * tag)
  have hvalue := varintLength_le n
  unfold varintSize
  split_ifs <;> omega

theorem delimitedSize_le (tag length : ℕ) : delimitedSize tag length ≤ length + 20 := by
  have hkey := varintLength_le (8 * tag + 2)
  have hlength := varintLength_le length
  unfold delimitedSize
  omega

theorem bodySize_le (tag length : ℕ) : bodySize tag length ≤ length + 20 := by
  unfold bodySize
  split_ifs
  · omega
  · exact delimitedSize_le tag length

namespace Field

/-- The bytes that a value takes under a field number. -/
def encodedSize (tag : ℕ) (f : Field) (v : f.Value) : ℕ :=
  ((f.emit v).map fun p => occurrenceSize (tag, p)).sum

theorem encodedSize_uint32 (tag : ℕ) (v : UInt32) :
    encodedSize tag uint32 v = varintSize tag v.toNat := by
  unfold encodedSize uint32 scalar varintSize
  by_cases h : v = 0
  · simp [h]
  · have hnat : v.toNat ≠ 0 := fun hzero => h (UInt32.toNat_inj.mp hzero)
    simp [h, hnat, occurrenceSize]

theorem encodedSize_uint64 (tag : ℕ) (v : UInt64) :
    encodedSize tag uint64 v = varintSize tag v.toNat := by
  unfold encodedSize uint64 scalar varintSize
  by_cases h : v = 0
  · simp [h]
  · have hnat : v.toNat ≠ 0 := fun hzero => h (UInt64.toNat_inj.mp hzero)
    simp [h, hnat, occurrenceSize]

theorem encodedSize_int64 (tag : ℕ) (v : Int64) :
    encodedSize tag int64 v = varintSize tag v.toUInt64.toNat := by
  unfold encodedSize int64 scalar varintSize
  by_cases h : v = 0
  · rw [h]
    rfl
  · have hnat : v.toUInt64.toNat ≠ 0 := by
      intro hzero
      have hword : v.toUInt64 = 0 := UInt64.toNat_inj.mp hzero
      exact h (by rw [← Int64.toInt64_toUInt64 v, hword]; rfl)
    simp [h, hnat, occurrenceSize]

theorem encodedSize_bytes (tag : ℕ) (v : Bytes) :
    encodedSize tag bytes v = bodySize tag v.length := by
  unfold encodedSize bytes bodySize delimitedSize
  by_cases h : v = []
  · simp [h]
  · simp [h, occurrenceSize]

theorem encodedSize_string (tag : ℕ) (v : String) :
    encodedSize tag string v = bodySize tag v.utf8ByteSize := by
  unfold encodedSize string bodySize delimitedSize
  by_cases h : v = ""
  · simp [h]
  · simp [h, occurrenceSize, length_utf8]

end Field

/-- The bytes of a row's columns together. -/
def Row.encodedSize : (s : Schema) → Row s → ℕ
  | [], _ => 0
  | (tag, f) :: s, (v, r) => f.encodedSize tag v + encodedSize s r

theorem Row.encodeFields_emit_length : ∀ (s : Schema) (r : Row s),
    (encodeFields (Row.emit s r)).length = Row.encodedSize s r := by
  intro s
  induction s with
  | nil => intro _; rfl
  | cons c s ih =>
    intro row
    obtain ⟨tag, f⟩ := c
    obtain ⟨v, r⟩ := row
    have hhead := encodeFields_length ((f.emit v).map (tag, ·))
    rw [List.map_map] at hhead
    calc
      _ = (encodeFields ((f.emit v).map (tag, ·))).length +
          (encodeFields (Row.emit s r)).length := by
        rw [Row.emit, encodeFields, List.flatMap_append, List.length_append]
        rfl
      _ = _ := by
        rw [hhead, ih r]
        rfl

theorem encode_length {M : Type} [Message M] (m : M) :
    (encode m).length = Row.encodedSize (Message.schema M) (Message.toRow m) :=
  Row.encodeFields_emit_length _ _

theorem Field.encodedSize_repeatedMessage {M : Type} [Message M] (tag : ℕ) (ms : List M) :
    encodedSize tag (repeatedMessage M) ms =
      (ms.map fun m => delimitedSize tag (encode m).length).sum := by
  simp [encodedSize, repeatedMessage, repeated, occurrenceSize, delimitedSize, Function.comp_def]

end ProtoWire
