import Mathlib.Data.List.Basic
import Mathlib.Tactic

/-!
# The proto3 wire format

A message is a concatenation of fields, each a key varint (field number times eight plus the
wire type) followed by a payload. Only varint and length-delimited payloads carry values of the
scalar, string, bytes and message types used here; the remaining wire types are skipped by a
reader that does not know the field and refused by one that does.

Readers accept what the format allows (any varint up to ten bytes, unknown fields, balanced
groups); writers emit the minimal form. The round trip below is the only direction in which the
two agree.
-/

namespace ProtoWire

abbrev Bytes := List UInt8

/-- Base-128 groups, least significant first, the top bit set on every byte but the last.
`extra` bounds the groups after the first one. -/
def varintGroups : ℕ → ℕ → Bytes
  | 0, n => [UInt8.ofNat n]
  | extra + 1, n =>
    if n < 128 then [UInt8.ofNat n]
    else UInt8.ofNat (n % 128 + 128) :: varintGroups extra (n / 128)

/-- A 64-bit value takes at most ten groups. -/
def encodeVarint (n : ℕ) : Bytes := varintGroups 9 n

def readGroups : ℕ → Bytes → Option (ℕ × Bytes)
  | _, [] => none
  | 0, b :: rest => if b.toNat < 2 then some (b.toNat, rest) else none
  | extra + 1, b :: rest =>
    if b.toNat < 128 then some (b.toNat, rest)
    else (readGroups extra rest).map fun r => (b.toNat % 128 + 128 * r.1, r.2)

/-- The tenth byte may only contribute the 64th bit; an eleventh is never read. -/
def decodeVarint (input : Bytes) : Option (ℕ × Bytes) := readGroups 9 input

theorem varintGroups_ne_nil (extra n : ℕ) : varintGroups extra n ≠ [] := by
  cases extra with
  | zero => simp [varintGroups]
  | succ extra =>
    unfold varintGroups
    split_ifs <;> simp

theorem readGroups_varintGroups (rest : Bytes) : ∀ extra n, n < 2 ^ (7 * extra + 1) →
    readGroups extra (varintGroups extra n ++ rest) = some (n, rest) := by
  intro extra
  induction extra with
  | zero =>
    intro n hn
    have hb : (UInt8.ofNat n).toNat = n := by simp; omega
    simp [varintGroups, readGroups, hb]
    omega
  | succ extra ih =>
    intro n hn
    unfold varintGroups
    split_ifs with h
    · have hb : (UInt8.ofNat n).toNat = n := by simp; omega
      simp [readGroups, hb, h]
    · have hb : (UInt8.ofNat (n % 128 + 128)).toNat = n % 128 + 128 := by simp; omega
      have hdiv : n / 128 < 2 ^ (7 * extra + 1) := by
        have hpow : 2 ^ (7 * (extra + 1) + 1) = 2 ^ (7 * extra + 1) * 128 := by ring
        omega
      simp only [List.cons_append, readGroups, hb, ih _ hdiv]
      rw [if_neg (by omega)]
      simp only [Option.map_some, Option.some.injEq, Prod.mk.injEq, and_true]
      omega

theorem decodeVarint_encodeVarint {n : ℕ} (hn : n < 2 ^ 64) (rest : Bytes) :
    decodeVarint (encodeVarint n ++ rest) = some (n, rest) :=
  readGroups_varintGroups rest 9 n hn

theorem varintGroups_length_le (extra n : ℕ) : (varintGroups extra n).length ≤ extra + 1 := by
  induction extra generalizing n with
  | zero => simp [varintGroups]
  | succ extra ih =>
    unfold varintGroups
    split_ifs
    · simp
    · simpa using ih (n / 128)

theorem encodeVarint_length_pos (n : ℕ) : 0 < (encodeVarint n).length :=
  List.length_pos_of_ne_nil (varintGroups_ne_nil 9 n)

theorem encodeVarint_length_le (n : ℕ) : (encodeVarint n).length ≤ 10 :=
  varintGroups_length_le 9 n

/-- What follows a key. `skipped` stands for a wire type that no field read here uses. -/
inductive Payload
  | varint (n : ℕ)
  | delimited (body : Bytes)
  | skipped
deriving DecidableEq, Repr

namespace Payload

def bodyLength : Payload → ℕ
  | .delimited body => body.length
  | _ => 0

/-- A payload that a writer on a 64-bit machine can emit. -/
def Fits : Payload → Prop
  | .varint n => n < 2 ^ 64
  | .delimited body => body.length < 2 ^ 64
  | .skipped => False

end Payload

/-- One occurrence of a field: its number and its payload. -/
abbrev Occurrence := ℕ × Payload

def encodeField : Occurrence → Bytes
  | (tag, .varint n) => encodeVarint (8 * tag) ++ encodeVarint n
  | (tag, .delimited body) => encodeVarint (8 * tag + 2) ++ (encodeVarint body.length ++ body)
  | (_, .skipped) => []

def encodeFields (fields : List Occurrence) : Bytes := fields.flatMap encodeField

/-- Nesting limit of skipped groups. -/
def recursionLimit : ℕ := 100

/-- Field number and wire type; field numbers start at one and keys fit in 32 bits. -/
def readKey (input : Bytes) : Option (ℕ × ℕ × Bytes) :=
  (decodeVarint input).bind fun r =>
    if 2 ^ 32 ≤ r.1 ∨ r.1 < 8 then none else some (r.1 / 8, r.1 % 8, r.2)

/-- The payload of every wire type except the two group markers. -/
def readPayload : ℕ → Bytes → Option (Payload × Bytes)
  | 0, input => (decodeVarint input).map fun r => (.varint r.1, r.2)
  | 1, input => if input.length < 8 then none else some (.skipped, input.drop 8)
  | 2, input => (decodeVarint input).bind fun r =>
      if r.2.length < r.1 then none else some (.delimited (r.2.take r.1), r.2.drop r.1)
  | 5, input => if input.length < 4 then none else some (.skipped, input.drop 4)
  | _, _ => none

/-- A field inside an open group is dropped together with the group. -/
def keepOutside (groups : List ℕ) (f : Occurrence) (fields : List Occurrence) : List Occurrence :=
  if groups.isEmpty then f :: fields else fields

@[simp] theorem keepOutside_nil (f : Occurrence) : keepOutside [] f = (f :: ·) := rfl

/-- Reads occurrences until the input ends. `groups` lists the field numbers of the groups that
are still open, innermost first. -/
def readFields : ℕ → List ℕ → Bytes → Option (List Occurrence)
  | _, [], [] => some []
  | _, _ :: _, [] => none
  | 0, _, _ :: _ => none
  | fuel + 1, groups, b :: bs =>
    match readKey (b :: bs) with
    | none => none
    | some (tag, 4, rest) =>
      match groups with
      | [] => none
      | g :: outer => if g = tag then readFields fuel outer rest else none
    | some (tag, 3, rest) =>
      if recursionLimit ≤ groups.length then none
      else (readFields fuel (tag :: groups) rest).map (keepOutside groups (tag, .skipped))
    | some (tag, wire, rest) =>
      if recursionLimit ≤ groups.length then none
      else (readPayload wire rest).bind fun r =>
        (readFields fuel groups r.2).map (keepOutside groups (tag, r.1))

/-- Every field takes at least one byte, so the input length is enough fuel. -/
def decodeFields (input : Bytes) : Option (List Occurrence) :=
  readFields input.length [] input

/-- An occurrence with a legal field number and a payload that fits. -/
def Writable (f : Occurrence) : Prop := 0 < f.1 ∧ f.1 < 2 ^ 29 ∧ f.2.Fits

theorem encodeField_length_pos {f : Occurrence} (hf : Writable f) : 0 < (encodeField f).length := by
  obtain ⟨tag, p⟩ := f
  cases p with
  | varint n =>
    have := encodeVarint_length_pos n
    simp only [encodeField, List.length_append]
    omega
  | delimited body =>
    have := encodeVarint_length_pos (8 * tag + 2)
    simp only [encodeField, List.length_append]
    omega
  | skipped => exact hf.2.2.elim

theorem bodyLength_le_encodeField (f : Occurrence) : f.2.bodyLength ≤ (encodeField f).length := by
  obtain ⟨tag, p⟩ := f
  cases p <;> simp [Payload.bodyLength, encodeField]
  omega

theorem encodeField_length_le (f : Occurrence) :
    (encodeField f).length ≤ f.2.bodyLength + 20 := by
  obtain ⟨tag, p⟩ := f
  cases p with
  | varint n =>
    have hkey := encodeVarint_length_le (8 * tag)
    have hvalue := encodeVarint_length_le n
    simp only [encodeField, Payload.bodyLength, List.length_append]
    omega
  | delimited body =>
    have hkey := encodeVarint_length_le (8 * tag + 2)
    have hlength := encodeVarint_length_le body.length
    simp only [encodeField, Payload.bodyLength, List.length_append]
    omega
  | skipped => simp [encodeField]

theorem encodeFields_length_le (fields : List Occurrence) :
    (encodeFields fields).length ≤ (fields.map fun f => f.2.bodyLength + 20).sum := by
  induction fields with
  | nil => simp [encodeFields]
  | cons f fields ih =>
    have hf := encodeField_length_le f
    simp only [encodeFields, List.flatMap_cons, List.length_append, List.map_cons,
      List.sum_cons] at ih ⊢
    omega

theorem readKey_encodeVarint {tag wire : ℕ} (hpos : 0 < tag) (htag : tag < 2 ^ 29)
    (hwire : wire < 8) (rest : Bytes) :
    readKey (encodeVarint (8 * tag + wire) ++ rest) = some (tag, wire, rest) := by
  unfold readKey
  rw [decodeVarint_encodeVarint (by omega), Option.bind_some, if_neg (by omega)]
  simp only [Option.some.injEq, Prod.mk.injEq, and_true]
  omega

theorem readFields_cons {fuel : ℕ} {f : Occurrence} (hf : Writable f) (rest : Bytes) :
    readFields (fuel + 1) [] (encodeField f ++ rest) = (readFields fuel [] rest).map (f :: ·) := by
  have hlen : 0 < (encodeField f ++ rest).length := by
    have := encodeField_length_pos hf
    rw [List.length_append]
    omega
  obtain ⟨b, bs, hbs⟩ := List.exists_cons_of_length_pos hlen
  obtain ⟨tag, p⟩ := f
  obtain ⟨hpos, htag, hfit⟩ := hf
  cases p with
  | varint n =>
    have hkey : readKey (b :: bs) = some (tag, 0, encodeVarint n ++ rest) := by
      rw [← hbs]
      simpa [encodeField] using @readKey_encodeVarint tag 0 hpos htag (by omega)
        (encodeVarint n ++ rest)
    rw [hbs]
    simp [readFields, hkey, recursionLimit, readPayload, decodeVarint_encodeVarint hfit]
  | delimited body =>
    have hkey : readKey (b :: bs) =
        some (tag, 2, encodeVarint body.length ++ (body ++ rest)) := by
      rw [← hbs]
      simpa [encodeField] using @readKey_encodeVarint tag 2 hpos htag (by omega)
        (encodeVarint body.length ++ (body ++ rest))
    have hlen : body.length < 2 ^ 64 := hfit
    rw [hbs]
    simp [readFields, hkey, recursionLimit, readPayload, decodeVarint_encodeVarint hlen]
  | skipped => exact hfit.elim

theorem readFields_encodeFields (fields : List Occurrence) (hw : ∀ f ∈ fields, Writable f) :
    ∀ fuel, (encodeFields fields).length ≤ fuel →
      readFields fuel [] (encodeFields fields) = some fields := by
  induction fields with
  | nil =>
    intro fuel _
    cases fuel <;> simp [encodeFields, readFields]
  | cons f fields ih =>
    intro fuel hfuel
    have hf := hw f (by simp)
    have hpos := encodeField_length_pos hf
    have hsplit : encodeFields (f :: fields) = encodeField f ++ encodeFields fields := rfl
    rw [hsplit, List.length_append] at hfuel
    obtain ⟨fuel, rfl⟩ : ∃ k, fuel = k + 1 := ⟨fuel - 1, by omega⟩
    rw [hsplit, readFields_cons hf, ih (fun g hg => hw g (by simp [hg])) fuel (by omega)]
    rfl

theorem decodeFields_encodeFields (fields : List Occurrence) (hw : ∀ f ∈ fields, Writable f) :
    decodeFields (encodeFields fields) = some fields :=
  readFields_encodeFields fields hw _ le_rfl

theorem bodyLength_le_encodeFields {fields : List Occurrence} {f : Occurrence} (hf : f ∈ fields) :
    f.2.bodyLength ≤ (encodeFields fields).length := by
  obtain ⟨before, after, rfl⟩ := List.append_of_mem hf
  have := bodyLength_le_encodeField f
  simp only [encodeFields, List.flatMap_append, List.flatMap_cons, List.length_append]
  omega

end ProtoWire
