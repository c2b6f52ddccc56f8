import CertaelAgent.Foundation.Wire

/-!
# Message schemas over the wire format

A field codec fixes the payloads a value is written as and how a reader merges one payload into
the value it has so far; its law says that merging what was written into the default gives the
value back. A schema is a list of numbered codecs, and the round trip is proved once for rows of
values over any schema. A record type becomes a message by naming its schema and its row.

Writers omit defaults and write fields in schema order. Readers start from the defaults, merge
occurrences in the order they arrive and ignore field numbers outside the schema.
-/

namespace ProtoWire

structure Field where
  Value : Type
  default : Value
  emit : Value → List Payload
  merge : Value → Payload → Option Value
  emit_fits : ∀ v, ∀ p ∈ emit v, p.bodyLength < 2 ^ 64 → p.Fits
  merge_emit : ∀ v, (∀ p ∈ emit v, p.Fits) → (emit v).foldlM merge default = some v

namespace Field

/-- A scalar written as a varint, omitted when it is zero. Readers truncate to its width. -/
def scalar {α : Type} [DecidableEq α] (zero : α) (toWord : α → UInt64) (ofWord : UInt64 → α)
    (h : ∀ v, ofWord (toWord v) = v) : Field where
  Value := α
  default := zero
  emit v := if v = zero then [] else [.varint (toWord v).toNat]
  merge
    | _, .varint n => some (ofWord (UInt64.ofNat n))
    | _, _ => none
  emit_fits v p hp _ := by
    split_ifs at hp with hv
    · simp at hp
    · rw [List.mem_singleton.mp hp]
      exact (toWord v).toNat_lt
  merge_emit v _ := by
    split_ifs with hv
    · simp [hv]
    · simp [h v]

def uint32 : Field := scalar (0 : UInt32) UInt32.toUInt64 UInt64.toUInt32 (by simp)

def uint64 : Field := scalar (0 : UInt64) id id (by simp)

/-- Negative values are sign extended to 64 bits, here and in `enumeration`. -/
def int64 : Field := scalar (0 : Int64) Int64.toUInt64 UInt64.toInt64 (by simp)

def enumeration : Field :=
  scalar (0 : Int32) (fun v => v.toInt64.toUInt64) (fun n => n.toInt64.toInt32) (by simp)

def bool : Field :=
  scalar false (fun v => if v then 1 else 0) (fun n => n != 0) (by decide)

def bytes : Field where
  Value := Bytes
  default := []
  emit v := if v = [] then [] else [.delimited v]
  merge
    | _, .delimited body => some body
    | _, _ => none
  emit_fits v p hp hlen := by
    split_ifs at hp with hv
    · simp at hp
    · rw [List.mem_singleton.mp hp] at hlen ⊢
      exact hlen
  merge_emit v _ := by
    split_ifs with hv <;> simp [hv]

/-- The bytes of a string. -/
def utf8 (s : String) : Bytes := s.toUTF8.data.toList

theorem length_utf8 (s : String) : (utf8 s).length = s.utf8ByteSize := rfl

theorem length_utf8_ofList (chars : List Char) :
    (utf8 (String.ofList chars)).length = (chars.flatMap String.utf8EncodeChar).length := by
  simp [utf8, String.toUTF8, List.utf8Encode]

theorem utf8_eq (s : String) : utf8 s = s.toList.flatMap String.utf8EncodeChar := by
  obtain ⟨chars, rfl⟩ : ∃ chars, s = String.ofList chars := ⟨s.toList, by simp⟩
  simp [utf8, String.toUTF8, List.utf8Encode]

def fromUtf8 (body : Bytes) : Option String := String.fromUTF8? ⟨body.toArray⟩

theorem fromUtf8_utf8 (s : String) : fromUtf8 (utf8 s) = some s := by
  simp only [fromUtf8, utf8, String.fromUTF8?, Array.toArray_toList, String.toUTF8]
  exact dif_pos s.isValidUTF8

def string : Field where
  Value := String
  default := ""
  emit v := if v = "" then [] else [.delimited (utf8 v)]
  merge
    | _, .delimited body => fromUtf8 body
    | _, _ => none
  emit_fits v p hp hlen := by
    split_ifs at hp with hv
    · simp at hp
    · rw [List.mem_singleton.mp hp] at hlen ⊢
      exact hlen
  merge_emit v _ := by
    split_ifs with hv
    · simp [hv]
    · simp [fromUtf8_utf8]

/-- Elements are appended in the order they arrive; none is ever omitted. -/
def repeated {α : Type} (write : α → Bytes) (read : Bytes → Option α)
    (h : ∀ v, (write v).length < 2 ^ 64 → read (write v) = some v) : Field where
  Value := List α
  default := []
  emit vs := vs.map fun v => .delimited (write v)
  merge
    | vs, .delimited body => (read body).map fun v => vs ++ [v]
    | _, _ => none
  emit_fits vs p hp hlen := by
    obtain ⟨v, _, rfl⟩ := List.mem_map.mp hp
    exact hlen
  merge_emit vs hfit := by
    suffices hgen : ∀ pre : List α, (∀ v ∈ vs, (write v).length < 2 ^ 64) →
        (vs.map fun v => Payload.delimited (write v)).foldlM (fun acc p =>
          match acc, p with
          | vs, .delimited body => (read body).map fun v => vs ++ [v]
          | _, _ => none) pre = some (pre ++ vs) by
      exact hgen [] fun v hv => hfit (.delimited (write v)) (List.mem_map.mpr ⟨v, hv, rfl⟩)
    clear hfit
    induction vs with
    | nil => simp
    | cons v vs ih =>
      intro pre hlen
      have hv := h v (hlen v (by simp))
      have hrest := ih (pre ++ [v]) fun w hw => hlen w (by simp [hw])
      simpa [hv] using hrest

def repeatedString : Field := repeated utf8 fromUtf8 fun v _ => fromUtf8_utf8 v

/-- A bound on the bytes a value takes: its payloads, and a key and a length for each. -/
def size (f : Field) (v : f.Value) : ℕ := ((f.emit v).map fun p => p.bodyLength + 20).sum

theorem size_string_le (v : String) : string.size v ≤ v.utf8ByteSize + 20 := by
  unfold size string
  by_cases h : v = ""
  · simp [h]
  · simp [h, Payload.bodyLength, length_utf8]

theorem size_int64_le (v : Int64) : int64.size v ≤ 20 := by
  unfold size int64 scalar
  by_cases h : v = 0
  · simp [h]
  · simp [h, Payload.bodyLength]

theorem size_repeatedString (vs : List String) :
    repeatedString.size vs = (vs.map fun v => v.utf8ByteSize + 20).sum := by
  simp [size, repeatedString, repeated, Payload.bodyLength, Function.comp_def, length_utf8]

end Field

/-- Codecs with their field numbers, in the order they are written. -/
abbrev Schema := List (ℕ × Field)

/-- Field numbers are legal and no two codecs share one. -/
def Schema.WellFormed (s : Schema) : Prop :=
  (s.map Prod.fst).Nodup ∧ ∀ tag ∈ s.map Prod.fst, 0 < tag ∧ tag < 2 ^ 29

instance (s : Schema) : Decidable s.WellFormed :=
  inferInstanceAs (Decidable (_ ∧ ∀ tag ∈ s.map Prod.fst, 0 < tag ∧ tag < 2 ^ 29))

def Row : Schema → Type
  | [] => Unit
  | (_, f) :: s => f.Value × Row s

def Row.cons {tag : ℕ} {f : Field} {s : Schema} (v : f.Value) (r : Row s) : Row ((tag, f) :: s) :=
  (v, r)

def Row.zero : (s : Schema) → Row s
  | [] => ()
  | (_, f) :: s => Row.cons f.default (zero s)

def Row.emit : (s : Schema) → Row s → List Occurrence
  | [], _ => []
  | (tag, f) :: s, (v, r) => (f.emit v).map (tag, ·) ++ emit s r

def Row.merge : (s : Schema) → Row s → Occurrence → Option (Row s)
  | [], _, _ => some ()
  | (tag, f) :: s, (v, r), occ =>
    if occ.1 = tag then (f.merge v occ.2).map fun v => Row.cons v r
    else (merge s r occ).map fun r => Row.cons v r

theorem Row.merge_head {tag : ℕ} {f : Field} {s : Schema} (v : f.Value) (r : Row s) (p : Payload) :
    Row.merge ((tag, f) :: s) (Row.cons v r) (tag, p) = (f.merge v p).map fun v => Row.cons v r :=
  if_pos rfl

theorem Row.merge_tail {tag : ℕ} {f : Field} {s : Schema} (v : f.Value) (r : Row s)
    {occ : Occurrence} (h : occ.1 ≠ tag) :
    Row.merge ((tag, f) :: s) (Row.cons v r) occ = (Row.merge s r occ).map fun r => Row.cons v r :=
  if_neg h

theorem Row.emit_tag : ∀ (s : Schema) (r : Row s), ∀ occ ∈ Row.emit s r, occ.1 ∈ s.map Prod.fst := by
  intro s
  induction s with
  | nil => simp [Row.emit]
  | cons c s ih =>
    intro r occ hocc
    rcases List.mem_append.mp hocc with h | h
    · obtain ⟨p, _, rfl⟩ := List.mem_map.mp h
      simp
    · simpa using Or.inr (by simpa using ih r.2 occ h)

theorem Row.emit_fits : ∀ (s : Schema) (r : Row s), ∀ occ ∈ Row.emit s r,
    occ.2.bodyLength < 2 ^ 64 → occ.2.Fits := by
  intro s
  induction s with
  | nil => simp [Row.emit]
  | cons c s ih =>
    intro r occ hocc hlen
    rcases List.mem_append.mp hocc with h | h
    · obtain ⟨p, hp, rfl⟩ := List.mem_map.mp h
      exact c.2.emit_fits r.1 p hp hlen
    · exact ih r.2 occ h hlen

theorem Row.foldlM_head (tag : ℕ) (f : Field) (s : Schema) (r : Row s) (ps : List Payload) :
    ∀ v w, ps.foldlM f.merge v = some w →
      (ps.map (tag, ·)).foldlM (Row.merge ((tag, f) :: s)) (Row.cons v r) = some (Row.cons w r) := by
  induction ps with
  | nil =>
    intro v w h
    rw [Option.some.inj h]
    rfl
  | cons p ps ih =>
    intro v w h
    simp only [List.foldlM_cons, Option.bind_eq_bind, Option.bind_eq_some_iff] at h
    obtain ⟨u, hu, h⟩ := h
    rw [List.map_cons, List.foldlM_cons, Row.merge_head, hu]
    exact ih u w h

theorem Row.foldlM_tail (tag : ℕ) (f : Field) (s : Schema) (v : f.Value)
    (occs : List Occurrence) (hne : ∀ occ ∈ occs, occ.1 ≠ tag) :
    ∀ r r', occs.foldlM (Row.merge s) r = some r' →
      occs.foldlM (Row.merge ((tag, f) :: s)) (Row.cons v r) = some (Row.cons v r') := by
  induction occs with
  | nil =>
    intro r r' h
    rw [Option.some.inj h]
    rfl
  | cons occ occs ih =>
    intro r r' h
    simp only [List.foldlM_cons, Option.bind_eq_bind, Option.bind_eq_some_iff] at h
    obtain ⟨u, hu, h⟩ := h
    rw [List.foldlM_cons, Row.merge_tail v r (hne occ (by simp)), hu]
    exact ih (fun o ho => hne o (by simp [ho])) u r' h

theorem Row.merge_emit : ∀ (s : Schema), (s.map Prod.fst).Nodup → ∀ r : Row s,
    (∀ occ ∈ Row.emit s r, occ.2.Fits) →
      (Row.emit s r).foldlM (Row.merge s) (Row.zero s) = some r := by
  intro s
  induction s with
  | nil => intro _ r _; rfl
  | cons c s ih =>
    intro hnodup r hfit
    obtain ⟨tag, f⟩ := c
    obtain ⟨v, r⟩ := r
    simp only [List.map_cons, List.nodup_cons] at hnodup
    have hhead := Row.foldlM_head tag f s (Row.zero s) (f.emit v) f.default v
      (f.merge_emit v fun p hp => hfit (tag, p)
        (List.mem_append_left _ (List.mem_map.mpr ⟨p, hp, rfl⟩)))
    have htail := Row.foldlM_tail tag f s v (Row.emit s r)
      (fun occ hocc htag => hnodup.1 (htag ▸ Row.emit_tag s r occ hocc))
      (Row.zero s) r (ih hnodup.2 r fun occ hocc => hfit occ (List.mem_append_right _ hocc))
    calc
      _ = ((f.emit v).map (tag, ·)).foldlM (Row.merge ((tag, f) :: s)) (Row.zero _) >>=
          fun acc => (Row.emit s r).foldlM (Row.merge ((tag, f) :: s)) acc := List.foldlM_append ..
      _ = _ := by rw [Row.zero, hhead]; exact htail

/-- A record type with the schema it is written by and its rows. -/
class Message (M : Type) where
  schema : Schema
  wellFormed : schema.WellFormed
  toRow : M → Row schema
  ofRow : Row schema → M
  ofRow_toRow : ∀ m, ofRow (toRow m) = m

variable {M : Type} [Message M]

def encode (m : M) : Bytes := encodeFields (Row.emit (Message.schema M) (Message.toRow m))

def decode (input : Bytes) : Option M :=
  (decodeFields input).bind fun occs =>
    (occs.foldlM (Row.merge (Message.schema M)) (Row.zero (Message.schema M))).map Message.ofRow

theorem decode_encode (m : M) (hlen : (encode m).length < 2 ^ 64) : decode (encode m) = some m := by
  have hfit : ∀ occ ∈ Row.emit (Message.schema M) (Message.toRow m), occ.2.Fits := by
    intro occ hocc
    have := bodyLength_le_encodeFields hocc
    exact Row.emit_fits _ _ occ hocc (lt_of_le_of_lt this hlen)
  have hwrite : ∀ occ ∈ Row.emit (Message.schema M) (Message.toRow m), Writable occ := by
    intro occ hocc
    have htag := Message.wellFormed.2 occ.1 (Row.emit_tag _ _ occ hocc)
    exact ⟨htag.1, htag.2, hfit occ hocc⟩
  unfold decode encode
  rw [decodeFields_encodeFields _ hwrite, Option.bind_some,
    Row.merge_emit _ Message.wellFormed.1 _ hfit, Option.map_some, Message.ofRow_toRow]

/-- The sizes of a row's columns together. -/
def Row.size : (s : Schema) → Row s → ℕ
  | [], _ => 0
  | (_, f) :: s, (v, r) => f.size v + size s r

theorem Row.encodeFields_emit_length_le : ∀ (s : Schema) (r : Row s),
    (encodeFields (Row.emit s r)).length ≤ Row.size s r := by
  intro s
  induction s with
  | nil => simp [Row.emit, encodeFields]
  | cons c s ih =>
    intro row
    obtain ⟨tag, f⟩ := c
    obtain ⟨v, r⟩ := row
    have hhead := encodeFields_length_le ((f.emit v).map (tag, ·))
    have htail := ih r
    rw [List.map_map] at hhead
    rw [Row.emit, encodeFields, List.flatMap_append, List.length_append]
    exact Nat.add_le_add hhead htail

theorem encode_length_le (m : M) :
    (encode m).length ≤ Row.size (Message.schema M) (Message.toRow m) :=
  Row.encodeFields_emit_length_le _ _

theorem encode_injective {m m' : M} (hlen : (encode m).length < 2 ^ 64)
    (h : encode m = encode m') : m = m' := by
  have hm := decode_encode m hlen
  rw [h, decode_encode m' (h ▸ hlen)] at hm
  exact (Option.some.inj hm).symm

/-- A field holding any number of messages of one type. -/
def Field.repeatedMessage (M : Type) [Message M] : Field :=
  Field.repeated (encode (M := M)) decode decode_encode

end ProtoWire
