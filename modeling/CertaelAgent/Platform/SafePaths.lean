import CertaelAgent.Platform.BuildManifest

/-!
# Paths that are safe everywhere

The protocol crate splits a path at slashes and at backslashes, a platform at slashes and maybe at
backslashes. What the protocol crate accepts is safe on every platform.
-/

namespace CertaelAgent.Platform

open ProtoWire Protocol Files

/-- A finer splitting keeps the pieces that it does not split: the first piece stays the first,
and a later one is still a later one. -/
theorem splitOnP_finer {α : Type} {coarse fine : α → Bool} (hfiner : ∀ a, coarse a → fine a) :
    ∀ xs : List α, ∃ c cs f fs, xs.splitOnP coarse = c :: cs ∧ xs.splitOnP fine = f :: fs ∧
      ((∀ a ∈ c, fine a = false) → f = c) ∧
      ∀ piece ∈ cs, (∀ a ∈ piece, fine a = false) → piece ∈ fs := by
  intro xs
  induction xs with
  | nil => exact ⟨[], [], [], [], List.splitOnP_nil, List.splitOnP_nil, fun _ => rfl, by simp⟩
  | cons a xs ih =>
    obtain ⟨c, cs, f, fs, hc, hf, hhead, htail⟩ := ih
    rw [List.splitOnP_cons_eq_if_modifyHead, List.splitOnP_cons_eq_if_modifyHead, hc, hf]
    by_cases hcoarse : coarse a
    · rw [if_pos hcoarse, if_pos (hfiner a hcoarse)]
      refine ⟨[], c :: cs, [], f :: fs, rfl, rfl, fun _ => rfl, ?_⟩
      intro piece hpiece hwhole
      rcases List.mem_cons.mp hpiece with rfl | hmem
      · rw [hhead hwhole]
        exact List.mem_cons_self ..
      · exact List.mem_cons_of_mem _ (htail piece hmem hwhole)
    · rw [if_neg hcoarse]
      by_cases hfine : fine a
      · rw [if_pos hfine]
        refine ⟨a :: c, cs, [], f :: fs, rfl, rfl, ?_, ?_⟩
        · intro hwhole
          have := hwhole a (List.mem_cons_self ..)
          simp [hfine] at this
        · intro piece hpiece hwhole
          exact List.mem_cons_of_mem _ (htail piece hpiece hwhole)
      · rw [if_neg hfine]
        refine ⟨a :: c, cs, a :: f, fs, rfl, rfl, ?_, htail⟩
        intro hwhole
        rw [hhead fun b hb => hwhole b (List.mem_cons_of_mem _ hb)]

theorem mem_splitOnP_of_finer {α : Type} {coarse fine : α → Bool}
    (hfiner : ∀ a, coarse a → fine a) {xs piece : List α} (hpiece : piece ∈ xs.splitOnP coarse)
    (hwhole : ∀ a ∈ piece, fine a = false) : piece ∈ xs.splitOnP fine := by
  obtain ⟨c, cs, f, fs, hc, hf, hhead, htail⟩ := splitOnP_finer hfiner xs
  rw [hc] at hpiece
  rw [hf]
  rcases List.mem_cons.mp hpiece with rfl | hmem
  · rw [hhead hwhole]
    exact List.mem_cons_self ..
  · exact List.mem_cons_of_mem _ (htail piece hmem hwhole)

namespace PathRules

variable {rules : PathRules} {value : String}

theorem mem_pathParts_of_mem_pieces {name : String} (hname : name ∈ rules.pieces value)
    (hwhole : ∀ c ∈ name.toList, c ≠ '/' ∧ c ≠ '\\') : name ∈ pathParts value := by
  obtain ⟨piece, hpiece, rfl⟩ := List.mem_map.mp hname
  refine List.mem_map.mpr ⟨piece, mem_splitOnP_of_finer ?_ hpiece ?_, rfl⟩
  · intro c hc
    simp only [isSeparator, Bool.or_eq_true, Bool.and_eq_true] at hc ⊢
    tauto
  · intro c hc
    simpa using hwhole c (by simpa using hc)

theorem parts_of_safeRelativePath (h : Protocol.safeRelativePath value) :
    value ≠ "" ∧ len value ≤ 512 ∧ value.toList.head? ≠ some '/' ∧
      value.toList.head? ≠ some '\\' ∧ (Field.utf8 value)[1]? ≠ some 58 ∧
      ∀ part ∈ pathParts value, Ordinary part := by
  simp only [Protocol.safeRelativePath, Bool.and_eq_true, bne_iff_ne, decide_eq_true_eq,
    List.all_eq_true] at h
  obtain ⟨⟨⟨⟨⟨hne, hlen⟩, hslash⟩, hbackslash⟩, hcolon⟩, hparts⟩ := h
  refine ⟨hne, hlen, hslash, hbackslash, hcolon, fun part hpart => ?_⟩
  obtain ⟨⟨hempty, hdot⟩, hdots⟩ := hparts part hpart
  exact ⟨hempty, hdot, hdots⟩

theorem ordinary_of_mem_pieces (h : Protocol.safeRelativePath value) :
    ∀ name ∈ rules.pieces value, Ordinary name := by
  intro name hname
  have hparts := (parts_of_safeRelativePath h).2.2.2.2.2
  refine ⟨?_, ?_, ?_⟩
  · rintro rfl
    exact (hparts "" (mem_pathParts_of_mem_pieces hname (by simp))).1 rfl
  · rintro rfl
    exact (hparts "." (mem_pathParts_of_mem_pieces hname (by simp))).2.1 rfl
  · rintro rfl
    exact (hparts ".." (mem_pathParts_of_mem_pieces hname (by simp))).2.2 rfl

theorem ordinary_of_mem_names (h : Protocol.safeRelativePath value) :
    ∀ name ∈ rules.names value, Ordinary name := by
  intro name hname
  obtain ⟨piece, hpiece, rfl⟩ := List.mem_map.mp hname
  have hordinary := ordinary_of_mem_pieces h piece hpiece
  rw [if_pos hordinary]
  exact rules.fold_ordinary piece hordinary

theorem hasRoot_of_safe (h : Protocol.safeRelativePath value) : rules.hasRoot value = false := by
  obtain ⟨-, -, hslash, hbackslash, -⟩ := parts_of_safeRelativePath h
  unfold hasRoot
  cases hhead : value.toList.head? with
  | none => rfl
  | some c =>
    rw [hhead] at hslash hbackslash
    simp only [ne_eq, Option.some.injEq] at hslash hbackslash
    simp [isSeparator, hslash, hbackslash]

/-- A letter is one byte, so behind it a colon would be the second byte of the path. -/
theorem hasDrive_of_safe (h : Protocol.safeRelativePath value) : rules.hasDrive value = false := by
  obtain ⟨-, -, -, -, hcolon, -⟩ := parts_of_safeRelativePath h
  rw [Field.utf8_eq] at hcolon
  unfold hasDrive
  split
  · next letter rest hlist =>
    have hletter : letter.isAlpha = false := by
      by_contra halpha
      rw [Bool.not_eq_false] at halpha
      have hsmall : letter.val.toNat ≤ 127 := by
        change (decide (letter.val ≥ 'A'.val ∧ letter.val ≤ 'Z'.val) ||
          decide (letter.val ≥ 'a'.val) && decide (letter.val ≤ 'z'.val)) = true at halpha
        simp only [Bool.or_eq_true, Bool.and_eq_true, decide_eq_true_eq, ge_iff_le,
          UInt32.le_iff_toNat_le] at halpha
        have hbounds : ('Z'.val.toNat = 90) ∧ ('z'.val.toNat = 122) := by decide
        omega
      have hsize : letter.utf8Size = 1 := by
        rw [Char.utf8Size_eq_one_iff, UInt32.le_iff_toNat_le]
        exact hsmall
      rw [hlist, List.flatMap_cons, String.utf8EncodeChar_eq_singleton hsize] at hcolon
      exact hcolon rfl
    rw [hletter, Bool.and_false]
  · rw [Bool.and_false]

theorem isAbsolute_of_safe (h : Protocol.safeRelativePath value) :
    rules.isAbsolute value = false := by
  unfold isAbsolute
  rw [hasDrive_of_safe h, hasRoot_of_safe h]
  simp

theorem safeRelativePath_of_safe (h : Protocol.safeRelativePath value) :
    rules.safeRelativePath value := by
  obtain ⟨hne, hlen, -⟩ := parts_of_safeRelativePath h
  have hpieces : ∀ name ∈ rules.pieces value, Ordinary name := ordinary_of_mem_pieces h
  have hcomponents : (rules.components value).all Component.isPlain = true := by
    rw [List.all_eq_true]
    intro component hmem
    unfold components at hmem
    rw [hasDrive_of_safe h, hasRoot_of_safe h] at hmem
    simp only [Bool.false_eq_true, if_false, List.nil_append, List.mem_append,
      List.mem_filterMap] at hmem
    rcases hmem with hdot | ⟨name, hname, hcomponent⟩
    · split_ifs at hdot
      · rw [List.mem_singleton.mp hdot]
        rfl
      · simp at hdot
    · obtain ⟨hempty, hdot, hdots⟩ := hpieces name hname
      rw [if_neg (by simp [hempty, hdot]), if_neg hdots] at hcomponent
      rw [← Option.some.inj hcomponent]
      rfl
  unfold safeRelativePath
  rw [isAbsolute_of_safe h, hcomponents]
  simp [hne, hlen]

end PathRules

end CertaelAgent.Platform
