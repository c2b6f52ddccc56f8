import CertaelAgent.Foundation.Schema

/-!
# ASCII around a text

Bytes below 128 are characters of their own in UTF-8, wherever they stand. So a text with ASCII in
front of it and behind it can be read just when what is in between can be read.
-/

namespace Utf8

open ProtoWire String

def Ascii (bytes : Bytes) : Prop := ∀ b ∈ bytes, b.toNat < 128

instance (bytes : Bytes) : Decidable (Ascii bytes) := inferInstanceAs (Decidable (∀ b ∈ bytes, _))

/-- The characters of ASCII bytes. -/
def chars (bytes : Bytes) : List Char := bytes.map fun b => Char.ofNat b.toNat

theorem fromUtf8_eq_some_iff {bytes : Bytes} {text : String} :
    Field.fromUtf8 bytes = some text ↔ Field.utf8 text = bytes := by
  constructor
  · intro h
    unfold Field.fromUtf8 String.fromUTF8? at h
    split_ifs at h with hvalid
    rw [← Option.some.inj h]
    rfl
  · rintro rfl
    exact Field.fromUtf8_utf8 text

theorem isSome_fromUtf8_iff {bytes : Bytes} : (Field.fromUtf8 bytes).isSome ↔
    ∃ text : List Char, text.flatMap utf8EncodeChar = bytes := by
  rw [Option.isSome_iff_exists]
  constructor
  · rintro ⟨text, h⟩
    exact ⟨text.toList, by rw [← Field.utf8_eq, fromUtf8_eq_some_iff.mp h]⟩
  · rintro ⟨text, rfl⟩
    refine ⟨String.ofList text, fromUtf8_eq_some_iff.mpr ?_⟩
    rw [Field.utf8_eq, String.toList_ofList]

/-! ## Single characters -/

theorem encodeChar_cases (c : Char) :
    (c.toNat < 128 ∧ utf8EncodeChar c = [UInt8.ofNat c.toNat]) ∨
      ∀ b ∈ utf8EncodeChar c, 128 ≤ b.toNat := by
  have hvalid : c.val.toNat < 0x110000 := by
    rcases c.valid with h | h
    · exact lt_trans h (by decide)
    · exact h.2
  have hvalue : c.toNat = c.val.toNat := rfl
  unfold utf8EncodeChar
  dsimp only
  rw [hvalue]
  generalize c.val.toNat = v at hvalid
  split_ifs with h₁ h₂ h₃
  · exact .inl ⟨by omega, rfl⟩
  all_goals
    apply Or.inr
    simp only [List.forall_mem_cons, List.not_mem_nil, false_implies, implies_true, and_true,
      UInt8.toNat_ofNat']
    omega

theorem toNat_char {b : UInt8} (h : b.toNat < 128) : (Char.ofNat b.toNat).toNat = b.toNat := by
  have hvalid : b.toNat.isValidChar := .inl (by omega)
  unfold Char.ofNat
  rw [dif_pos hvalid]
  rfl

theorem not_mem_chars {bytes : Bytes} (h : Ascii bytes) {b : UInt8} (hb : b.toNat < 128)
    (hmem : b ∉ bytes) : Char.ofNat b.toNat ∉ chars bytes := by
  intro hchar
  obtain ⟨other, hother, hsame⟩ := List.mem_map.mp hchar
  have hcode := congrArg Char.toNat hsame
  rw [toNat_char (h other hother), toNat_char hb, UInt8.toNat_inj] at hcode
  exact hmem (hcode ▸ hother)

theorem flatMap_chars {bytes : Bytes} (h : Ascii bytes) :
    (chars bytes).flatMap utf8EncodeChar = bytes := by
  induction bytes with
  | nil => rfl
  | cons b bytes ih =>
    obtain ⟨hb, hrest⟩ := List.forall_mem_cons.mp h
    have hcode := toNat_char hb
    have hbyte : utf8EncodeChar (Char.ofNat b.toNat) = [b] := by
      unfold utf8EncodeChar
      change (Char.ofNat b.toNat).val.toNat = b.toNat at hcode
      simp only [hcode]
      rw [if_pos (by omega), UInt8.ofNat_toNat]
    change utf8EncodeChar (Char.ofNat b.toNat) ++ (chars bytes).flatMap utf8EncodeChar = b :: bytes
    rw [hbyte, ih hrest, List.singleton_append]

/-! ## ASCII at the ends -/

theorem exists_of_flatMap_cons {text : List Char} {b : UInt8} {rest : Bytes} (hb : b.toNat < 128)
    (h : text.flatMap utf8EncodeChar = b :: rest) :
    ∃ text' : List Char, text'.flatMap utf8EncodeChar = rest := by
  cases text with
  | nil => cases h
  | cons c text =>
    rw [List.flatMap_cons] at h
    rcases encodeChar_cases c with ⟨-, hc⟩ | hc
    · rw [hc, List.singleton_append] at h
      exact ⟨text, (List.cons.inj h).2⟩
    · obtain ⟨first, others, hfirst⟩ := List.exists_cons_of_ne_nil
        (show utf8EncodeChar c ≠ [] from List.ne_nil_of_length_pos (by
          rw [length_utf8EncodeChar]
          exact c.utf8Size_pos))
      rw [hfirst, List.cons_append] at h
      have hlarge := hc first (by rw [hfirst]; exact List.mem_cons_self)
      rw [(List.cons.inj h).1] at hlarge
      omega

theorem exists_of_flatMap_concat {text : List Char} {b : UInt8} {front : Bytes} (hb : b.toNat < 128)
    (h : text.flatMap utf8EncodeChar = front ++ [b]) :
    ∃ text' : List Char, text'.flatMap utf8EncodeChar = front := by
  rcases List.eq_nil_or_concat text with rfl | ⟨text, c, rfl⟩
  · simp at h
  · rw [List.concat_eq_append, List.flatMap_append, List.flatMap_singleton] at h
    rcases encodeChar_cases c with ⟨-, hc⟩ | hc
    · rw [hc] at h
      exact ⟨text, (List.append_inj' h rfl).1⟩
    · have hne : utf8EncodeChar c ≠ [] := List.ne_nil_of_length_pos (by
        rw [length_utf8EncodeChar]
        exact c.utf8Size_pos)
      have hlast := congrArg List.getLast? h
      rw [List.getLast?_append_of_ne_nil _ hne, List.getLast?_concat] at hlast
      have hlarge := hc b (List.mem_of_getLast? hlast)
      omega

variable {front body back : Bytes}

theorem exists_of_append_left (hfront : Ascii front)
    (h : ∃ text : List Char, text.flatMap utf8EncodeChar = front ++ body) :
    ∃ text : List Char, text.flatMap utf8EncodeChar = body := by
  induction front with
  | nil => exact h
  | cons b front ih =>
    obtain ⟨hb, hrest⟩ := List.forall_mem_cons.mp hfront
    obtain ⟨text, htext⟩ := h
    exact ih hrest (exists_of_flatMap_cons hb htext)

theorem exists_of_append_right (hback : Ascii back)
    (h : ∃ text : List Char, text.flatMap utf8EncodeChar = body ++ back) :
    ∃ text : List Char, text.flatMap utf8EncodeChar = body := by
  induction back using List.reverseRecOn with
  | nil => rwa [List.append_nil] at h
  | append_singleton back b ih =>
    obtain ⟨text, htext⟩ := h
    rw [← List.append_assoc] at htext
    apply ih fun x hx => hback x (List.mem_append_left _ hx)
    exact exists_of_flatMap_concat (hback b (by simp)) htext

theorem fromUtf8_append (hfront : Ascii front) (hback : Ascii back) :
    Field.fromUtf8 (front ++ body ++ back) = (Field.fromUtf8 body).map fun text =>
      String.ofList (chars front ++ text.toList ++ chars back) := by
  cases hbody : Field.fromUtf8 body with
  | some text =>
    rw [Option.map_some, fromUtf8_eq_some_iff, Field.utf8_eq, String.toList_ofList,
      List.flatMap_append, List.flatMap_append, flatMap_chars hfront, flatMap_chars hback,
      ← Field.utf8_eq, fromUtf8_eq_some_iff.mp hbody]
  | none =>
    rw [Option.map_none, Option.eq_none_iff_forall_not_mem]
    intro text htext
    have hwhole : (Field.fromUtf8 (front ++ body ++ back)).isSome :=
      Option.isSome_iff_exists.mpr ⟨text, htext⟩
    rw [isSome_fromUtf8_iff] at hwhole
    have hinner := exists_of_append_left hfront (exists_of_append_right hback hwhole)
    rw [← isSome_fromUtf8_iff, hbody] at hinner
    cases hinner

end Utf8
