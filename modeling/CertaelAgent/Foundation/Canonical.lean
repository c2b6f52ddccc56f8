import CertaelAgent.Foundation.Schema

/-!
# Deviations from the written form

Readers accept more than writers emit: fields in another order, a single field twice, unknown
fields, defaults that are spelled out, integers that do not fit their field, varints that are
longer than they have to be. Each of these is visible in the occurrences that a reader finds, at
the top or inside a message that is nested, and none of them is in what a writer emits.
-/

namespace ProtoWire

namespace Field

/-- A field of which a writer emits at most one occurrence. -/
def Singular (f : Field) : Prop := ∀ v, (f.emit v).length ≤ 1

/-- A writer emits no payload that stands for the default. -/
def OmitsDefault (f : Field) : Prop := ∀ v, ∀ p ∈ f.emit v, f.merge f.default p ≠ some f.default

/-- No value is written with the payload. -/
def Unwritten (f : Field) (p : Payload) : Prop := ∀ v, p ∉ f.emit v

section

variable {α : Type} [DecidableEq α] {zero : α} {toWord : α → UInt64} {ofWord : UInt64 → α}
  {h : ∀ v, ofWord (toWord v) = v}

theorem mem_scalar {v : α} {p : Payload} :
    p ∈ (scalar zero toWord ofWord h).emit v ↔ v ≠ zero ∧ p = .varint (toWord v).toNat := by
  simp only [scalar]
  split_ifs with hv <;> simp [hv]

theorem singular_scalar : (scalar zero toWord ofWord h).Singular := by
  intro v
  simp only [scalar]
  split_ifs <;> simp

theorem omitsDefault_scalar : (scalar zero toWord ofWord h).OmitsDefault := by
  intro v p hp hmerge
  obtain ⟨hv, rfl⟩ := mem_scalar.mp hp
  have hback : ofWord (UInt64.ofNat (toWord v).toNat) = v := by
    rw [UInt64.ofNat_toNat]
    exact h v
  exact hv (hback.symm.trans (Option.some.inj hmerge))

/-- An integer that does not survive the width of the field is not written. -/
theorem unwritten_scalar {n : ℕ} (hn : (toWord (ofWord (UInt64.ofNat n))).toNat ≠ n) :
    (scalar zero toWord ofWord h).Unwritten (.varint n) := by
  intro v hp
  obtain ⟨-, hword⟩ := mem_scalar.mp hp
  obtain rfl := Payload.varint.inj hword
  have hback : ofWord (UInt64.ofNat (toWord v).toNat) = v := by
    rw [UInt64.ofNat_toNat]
    exact h v
  exact hn (congrArg (fun w => (toWord w).toNat) hback)

end

theorem unwritten_uint32 {n : ℕ} (hn : 2 ^ 32 ≤ n) : uint32.Unwritten (.varint n) := by
  apply unwritten_scalar
  have hlt := (UInt64.toUInt32 (UInt64.ofNat n)).toNat_lt
  rw [UInt32.toNat_toUInt64]
  omega

theorem unwritten_bool {n : ℕ} (hn : 2 ≤ n) : bool.Unwritten (.varint n) := by
  apply unwritten_scalar
  split_ifs
  · exact fun h => absurd (h ▸ hn : 2 ≤ (1 : UInt64).toNat) (by decide)
  · exact fun h => absurd (h ▸ hn : 2 ≤ (0 : UInt64).toNat) (by decide)

/-- The words of an enumeration are the sign extensions of 32-bit numbers. -/
theorem unwritten_enumeration {n : ℕ} (hn : 2 ^ 31 ≤ n) (hn' : n < 2 ^ 64 - 2 ^ 31) :
    enumeration.Unwritten (.varint n) := by
  apply unwritten_scalar
  intro heq
  have hint := (UInt64.ofNat n).toInt64.toInt32.toInt_toInt64
  have hlow := (UInt64.ofNat n).toInt64.toInt32.le_toInt
  have hhigh := (UInt64.ofNat n).toInt64.toInt32.toInt_lt
  generalize (UInt64.ofNat n).toInt64.toInt32 = w at *
  have hword : w.toInt64.toInt = if 2 * n < 2 ^ 64 then (n : ℤ) else (n : ℤ) - (2 ^ 64 : ℕ) := by
    rw [← heq]
    exact BitVec.toInt_eq_toNat_cond w.toInt64.toBitVec
  rw [hint] at hword
  split_ifs at hword <;> omega

theorem mem_bytes {v : Bytes} {p : Payload} : p ∈ bytes.emit v ↔ v ≠ [] ∧ p = .delimited v := by
  simp only [bytes]
  split_ifs with hv <;> simp [hv]

theorem singular_bytes : bytes.Singular := by
  intro v
  simp only [bytes]
  split_ifs <;> simp

theorem omitsDefault_bytes : bytes.OmitsDefault := by
  intro v p hp hmerge
  obtain ⟨hv, rfl⟩ := mem_bytes.mp hp
  exact hv (Option.some.inj hmerge)

theorem mem_string {v : String} {p : Payload} :
    p ∈ string.emit v ↔ v ≠ "" ∧ p = .delimited (utf8 v) := by
  simp only [string]
  split_ifs with hv <;> simp [hv]

theorem singular_string : string.Singular := by
  intro v
  simp only [string]
  split_ifs <;> simp

theorem omitsDefault_string : string.OmitsDefault := by
  intro v p hp hmerge
  obtain ⟨hv, rfl⟩ := mem_string.mp hp
  exact hv (Option.some.inj ((fromUtf8_utf8 v).symm.trans hmerge))

/-- The fields that hold one value. -/
inductive Plain : Field → Prop
  | uint32 : Plain uint32
  | uint64 : Plain uint64
  | int64 : Plain int64
  | enumeration : Plain enumeration
  | bool : Plain bool
  | bytes : Plain bytes
  | string : Plain string

theorem Plain.singular {f : Field} (h : f.Plain) : f.Singular := by
  cases h with
  | bytes => exact singular_bytes
  | string => exact singular_string
  | _ => exact singular_scalar

theorem Plain.omitsDefault {f : Field} (h : f.Plain) : f.OmitsDefault := by
  cases h with
  | bytes => exact omitsDefault_bytes
  | string => exact omitsDefault_string
  | _ => exact omitsDefault_scalar

/-- The 64-bit integers that readers truncate. -/
inductive OutOfRange : Field → ℕ → Prop
  | uint32 {n : ℕ} (h : 2 ^ 32 ≤ n) : OutOfRange uint32 n
  | enumeration {n : ℕ} (h : 2 ^ 31 ≤ n) (h' : n < 2 ^ 64 - 2 ^ 31) : OutOfRange enumeration n
  | bool {n : ℕ} (h : 2 ≤ n) : OutOfRange bool n

theorem OutOfRange.unwritten {f : Field} {n : ℕ} (h : f.OutOfRange n) : f.Unwritten (.varint n) := by
  cases h with
  | uint32 h => exact unwritten_uint32 h
  | enumeration h h' => exact unwritten_enumeration h h'
  | bool h => exact unwritten_bool h

theorem mem_repeatedMessage {N : Type} [Message N] {vs : List N} {body : Bytes}
    (h : .delimited body ∈ (repeatedMessage N).emit vs) : ∃ v : N, encode v = body := by
  obtain ⟨v, -, hv⟩ := List.mem_map.mp h
  exact ⟨v, Payload.delimited.inj hv⟩

end Field

/-! ## What a row is written as -/

namespace Row

variable {s : Schema}

theorem mem_emit_field (hnodup : (s.map Prod.fst).Nodup) {r : Row s} {x : Occurrence}
    (hx : x ∈ emit s r) {f : Field} (hf : (x.1, f) ∈ s) : ∃ v, x.2 ∈ f.emit v := by
  induction s with
  | nil => cases hf
  | cons c s ih =>
    obtain ⟨tag, g⟩ := c
    rw [List.map_cons, List.nodup_cons] at hnodup
    rcases List.mem_append.mp hx with hhead | htail
    · obtain ⟨p, hp, rfl⟩ := List.mem_map.mp hhead
      rcases List.mem_cons.mp hf with heq | hmem
      · obtain ⟨-, rfl⟩ := Prod.mk.inj heq
        exact ⟨r.1, hp⟩
      · exact absurd (List.mem_map_of_mem (f := Prod.fst) hmem) hnodup.1
    · have htag := emit_tag s r.2 x htail
      rcases List.mem_cons.mp hf with heq | hmem
      · rw [(Prod.mk.inj heq).1] at htag
        exact absurd htag hnodup.1
      · exact ih hnodup.2 htail hmem

theorem pairwise_emit_order (hnodup : (s.map Prod.fst).Nodup) (r : Row s) :
    (emit s r).Pairwise fun x y => ¬ [y.1, x.1].Sublist (s.map Prod.fst) := by
  induction s with
  | nil => exact List.Pairwise.nil
  | cons c s ih =>
    obtain ⟨tag, f⟩ := c
    rw [List.map_cons] at hnodup ⊢
    have hcons := List.nodup_cons.mp hnodup
    -- An earlier field is not among the later ones.
    have hlater : ∀ {x y : Occurrence}, y.1 ∈ s.map Prod.fst →
        [y.1, x.1].Sublist (tag :: s.map Prod.fst) → [y.1, x.1].Sublist (s.map Prod.fst) := by
      intro x y hy hsub
      cases hsub with
      | cons _ hsub => exact hsub
      | cons_cons _ hsub => exact absurd hy hcons.1
    apply List.pairwise_append.mpr
    refine ⟨?_, ?_, ?_⟩
    · apply List.pairwise_map.mpr
      apply List.pairwise_of_forall
      intro p q hsub
      exact absurd (hnodup.sublist hsub) (by simp)
    · apply (ih hcons.2 r.2).imp_of_mem
      intro x y _ hy hnot hsub
      exact hnot (hlater (emit_tag s r.2 y hy) hsub)
    · intro x hx y hy hsub
      obtain ⟨p, -, rfl⟩ := List.mem_map.mp hx
      have hmem := (hlater (emit_tag s r.2 y hy) hsub).subset (by simp : tag ∈ [y.1, tag])
      exact hcons.1 hmem

theorem pairwise_emit_singular (hnodup : (s.map Prod.fst).Nodup) (r : Row s) :
    (emit s r).Pairwise fun x y => x.1 = y.1 → ∀ f, (x.1, f) ∈ s → ¬ f.Singular := by
  induction s with
  | nil => exact List.Pairwise.nil
  | cons c s ih =>
    obtain ⟨tag, g⟩ := c
    rw [List.map_cons, List.nodup_cons] at hnodup
    -- The field with a number is the one at its place.
    have hother : ∀ {x : Occurrence} {f : Field}, x.1 ∈ s.map Prod.fst → (x.1, f) ∈ (tag, g) :: s →
        (x.1, f) ∈ s := by
      intro x f hx hf
      rcases List.mem_cons.mp hf with heq | hmem
      · rw [(Prod.mk.inj heq).1] at hx
        exact absurd hx hnodup.1
      · exact hmem
    apply List.pairwise_append.mpr
    refine ⟨?_, ?_, ?_⟩
    · apply List.pairwise_map.mpr
      by_cases hg : g.Singular
      · have hlen := hg r.1
        match hemit : g.emit r.1 with
        | [] => exact List.Pairwise.nil
        | [p] => exact List.pairwise_singleton _ _
        | p :: q :: ps =>
          rw [hemit, List.length_cons, List.length_cons] at hlen
          omega
      · apply List.pairwise_of_forall
        intro p q _ f hf
        rcases List.mem_cons.mp hf with heq | hmem
        · obtain ⟨-, rfl⟩ := Prod.mk.inj heq
          exact hg
        · exact absurd (List.mem_map_of_mem (f := Prod.fst) hmem) hnodup.1
    · apply (ih hnodup.2 r.2).imp_of_mem
      intro x y hx _ hnot hsame f hf
      exact hnot hsame f (hother (emit_tag s r.2 x hx) hf)
    · intro x hx y hy hsame
      obtain ⟨p, -, rfl⟩ := List.mem_map.mp hx
      have htag := emit_tag s r.2 y hy
      rw [← hsame] at htag
      exact absurd htag hnodup.1

end Row

/-! ## Deviations -/

/-- The input, with the occurrences that a reader finds in it, is not what a writer emits. -/
inductive Deviation : (M : Type) → [Message M] → Bytes → List Occurrence → Prop
  /-- The field of `y` comes before the field of `x`. -/
  | reordered {M : Type} [Message M] {input : Bytes} {before mid after : List Occurrence}
      {x y : Occurrence} (h : [y.1, x.1].Sublist ((Message.schema M).map Prod.fst)) :
      Deviation M input (before ++ x :: (mid ++ y :: after))
  | duplicated {M : Type} [Message M] {input : Bytes} {before mid after : List Occurrence}
      {x y : Occurrence} {f : Field} (hsame : x.1 = y.1) (hf : (x.1, f) ∈ Message.schema M)
      (h : f.Plain) : Deviation M input (before ++ x :: (mid ++ y :: after))
  | unknown {M : Type} [Message M] {input : Bytes} {occs : List Occurrence} {x : Occurrence}
      (hx : x ∈ occs) (h : x.1 ∉ (Message.schema M).map Prod.fst) : Deviation M input occs
  | explicitDefault {M : Type} [Message M] {input : Bytes} {occs : List Occurrence}
      {x : Occurrence} {f : Field} (hx : x ∈ occs) (hf : (x.1, f) ∈ Message.schema M)
      (hplain : f.Plain) (h : f.merge f.default x.2 = some f.default) :
      Deviation M input occs
  | outOfRange {M : Type} [Message M] {input : Bytes} {occs : List Occurrence} {tag n : ℕ}
      {f : Field} (hx : (tag, .varint n) ∈ occs) (hf : (tag, f) ∈ Message.schema M)
      (h : f.OutOfRange n) : Deviation M input occs
  | nonMinimal {M : Type} [Message M] {input : Bytes} {occs : List Occurrence}
      (h : encodeFields occs ≠ input) : Deviation M input occs
  | nested {M N : Type} [Message M] [Message N] {input : Bytes} {occs inner : List Occurrence}
      {tag : ℕ} {body : Bytes} (hx : (tag, .delimited body) ∈ occs)
      (hf : (tag, Field.repeatedMessage N) ∈ Message.schema M) (hbody : decodeFields body = some inner)
      (h : Deviation N body inner) : Deviation M input occs

variable {M : Type} [Message M]

theorem decodeFields_encode (m : M) (hlen : (encode m).length < 2 ^ 64) :
    decodeFields (encode m) = some (Row.emit (Message.schema M) (Message.toRow m)) := by
  apply decodeFields_encodeFields
  intro occ hocc
  have htag := Message.wellFormed.2 occ.1 (Row.emit_tag _ _ occ hocc)
  have hbody := bodyLength_le_encodeFields hocc
  exact ⟨htag.1, htag.2, Row.emit_fits _ _ occ hocc (lt_of_le_of_lt hbody hlen)⟩

/-- A writer emits nothing that deviates. -/
theorem Deviation.ne_encode {input : Bytes} {occs : List Occurrence} (h : Deviation M input occs)
    (hread : decodeFields input = some occs) (m : M) (hlen : (encode m).length < 2 ^ 64) :
    encode m ≠ input := by
  induction h with
  | @reordered M _ input before mid after x y hsub =>
    rintro rfl
    obtain heq := Option.some.inj ((decodeFields_encode m hlen).symm.trans hread)
    have hpair := Row.pairwise_emit_order Message.wellFormed.1 (Message.toRow m)
    rw [heq, List.pairwise_append] at hpair
    exact (List.pairwise_cons.mp hpair.2.1).1 y (by simp) hsub
  | @duplicated M _ input before mid after x y f hsame hf hplain =>
    rintro rfl
    obtain heq := Option.some.inj ((decodeFields_encode m hlen).symm.trans hread)
    have hpair := Row.pairwise_emit_singular Message.wellFormed.1 (Message.toRow m)
    rw [heq, List.pairwise_append] at hpair
    exact (List.pairwise_cons.mp hpair.2.1).1 y (by simp) hsame f hf hplain.singular
  | unknown hx hunknown =>
    rintro rfl
    obtain rfl := Option.some.inj ((decodeFields_encode m hlen).symm.trans hread)
    exact hunknown (Row.emit_tag _ _ _ hx)
  | explicitDefault hx hf hplain hdefault =>
    rintro rfl
    obtain rfl := Option.some.inj ((decodeFields_encode m hlen).symm.trans hread)
    obtain ⟨v, hv⟩ := Row.mem_emit_field Message.wellFormed.1 hx hf
    exact hplain.omitsDefault v _ hv hdefault
  | outOfRange hx hf hrange =>
    rintro rfl
    obtain rfl := Option.some.inj ((decodeFields_encode m hlen).symm.trans hread)
    obtain ⟨v, hv⟩ := Row.mem_emit_field Message.wellFormed.1 hx hf
    exact hrange.unwritten v hv
  | nonMinimal hne =>
    rintro rfl
    obtain rfl := Option.some.inj ((decodeFields_encode m hlen).symm.trans hread)
    exact hne rfl
  | @nested M N _ _ input occs inner tag body hx hf hbody hinner ih =>
    rintro rfl
    obtain rfl := Option.some.inj ((decodeFields_encode m hlen).symm.trans hread)
    obtain ⟨vs, hvs⟩ := Row.mem_emit_field Message.wellFormed.1 hx hf
    obtain ⟨v, rfl⟩ := Field.mem_repeatedMessage hvs
    have hbound := bodyLength_le_encodeFields hx
    exact ih hbody v (lt_of_le_of_lt hbound hlen) rfl

end ProtoWire
