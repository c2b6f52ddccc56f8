import Mathlib.Data.List.DropRight
import Mathlib.Data.List.TakeWhile
import Mathlib.Tactic

/-!
# Words between separators

The words of a list are what stands between its separators, where empty pieces do not count. The
last word stands behind the last separator, unless the list ends in one.
-/

namespace Words

variable {α : Type} {separates : α → Bool}

def words (separates : α → Bool) (xs : List α) : List (List α) :=
  (xs.splitOnP separates).filter fun word => !word.isEmpty

/-- What stands behind the last separator. -/
def lastPiece (separates : α → Bool) (xs : List α) : List α := xs.rtakeWhile fun x => !separates x

@[simp] theorem words_nil : words separates [] = [] := by
  simp [words]

theorem words_append_cons {x : α} (h : separates x) (front back : List α) :
    words separates (front ++ x :: back) = words separates front ++ words separates back := by
  unfold words
  rw [List.splitOnP_append_cons _ _ h, List.filter_append]

theorem words_cons {x : α} (h : separates x) (xs : List α) :
    words separates (x :: xs) = words separates xs := by
  have hsplit := words_append_cons h [] xs
  rwa [words_nil, List.nil_append, List.nil_append] at hsplit

theorem words_of_forall {xs : List α} (hne : xs ≠ []) (h : ∀ x ∈ xs, separates x = false) :
    words separates xs = [xs] := by
  unfold words
  rw [List.splitOnP_eq_singleton h]
  simp [hne]

theorem words_append_of_forall {front : List α} (h : ∀ x ∈ front, separates x = true)
    (back : List α) : words separates (front ++ back) = words separates back := by
  induction front with
  | nil => rfl
  | cons x front ih =>
    rw [List.forall_mem_cons] at h
    rw [List.cons_append, words_cons h.1, ih h.2]

theorem words_dropWhile (xs : List α) :
    words separates (xs.dropWhile separates) = words separates xs := by
  conv_rhs => rw [← List.takeWhile_append_dropWhile (p := separates) (l := xs)]
  rw [words_append_of_forall]
  exact fun x hx => List.mem_takeWhile_imp hx

theorem words_append {word back : List α} (hne : word ≠ []) (h : ∀ x ∈ word, separates x = false)
    (hback : ∀ x ∈ back.head?, separates x = true) :
    words separates (word ++ back) = word :: words separates back := by
  cases back with
  | nil => rw [List.append_nil, words_nil, words_of_forall hne h]
  | cons x back =>
    have hx : separates x = true := hback x rfl
    rw [words_append_cons hx, words_of_forall hne h, words_cons hx, List.singleton_append]

theorem forall_mem_words {xs word : List α} (h : word ∈ words separates xs) :
    word ≠ [] ∧ ∀ x ∈ word, separates x = false ∧ x ∈ xs := by
  induction hn : xs.length using Nat.strong_induction_on generalizing xs with
  | _ n ih =>
    by_cases hall : ∀ x ∈ xs, separates x = false
    · by_cases hne : xs = []
      · rw [hne, words_nil] at h
        cases h
      · rw [words_of_forall hne hall, List.mem_singleton] at h
        rw [h]
        exact ⟨hne, fun x hx => ⟨hall x hx, hx⟩⟩
    · simp only [not_forall, Bool.not_eq_false] at hall
      obtain ⟨x, hx, hseparates⟩ := hall
      obtain ⟨front, back, rfl⟩ := List.append_of_mem hx
      rw [List.length_append, List.length_cons] at hn
      rw [words_append_cons hseparates, List.mem_append] at h
      rcases h with h | h
      · obtain ⟨hne, hword⟩ := ih front.length (by omega) h rfl
        exact ⟨hne, fun y hy => ⟨(hword y hy).1, List.mem_append_left _ (hword y hy).2⟩⟩
      · obtain ⟨hne, hword⟩ := ih back.length (by omega) h rfl
        refine ⟨hne, fun y hy => ⟨(hword y hy).1, ?_⟩⟩
        exact List.mem_append_right _ (List.mem_cons_of_mem _ (hword y hy).2)

/-! ## The last word -/

theorem forall_mem_lastPiece (separates : α → Bool) (xs : List α) :
    ∀ x ∈ lastPiece separates xs, separates x = false := by
  intro x hx
  simpa using List.mem_rtakeWhile_imp hx

theorem append_lastPiece (separates : α → Bool) (xs : List α) :
    ∃ front, xs = front ++ lastPiece separates xs ∧ ∀ x ∈ front.getLast?, separates x = true := by
  refine ⟨xs.rdropWhile fun x => !separates x, ?_, ?_⟩
  · exact List.rdropWhile_append_rtakeWhile.symm
  · intro x hx
    have hne : xs.rdropWhile (fun x => !separates x) ≠ [] := by
      intro hnil
      rw [hnil] at hx
      cases hx
    have hlast := List.rdropWhile_last_not (fun x => !separates x) xs hne
    rw [List.getLast?_eq_some_getLast hne] at hx
    obtain rfl := Option.some.inj hx
    simpa using hlast

theorem getLast_words (xs : List α) (hne : lastPiece separates xs ≠ []) :
    (words separates xs).getLast? = some (lastPiece separates xs) := by
  obtain ⟨front, hxs, hlast⟩ := append_lastPiece separates xs
  have hpiece := words_of_forall hne (forall_mem_lastPiece separates xs)
  rcases List.eq_nil_or_concat front with rfl | ⟨front, x, rfl⟩
  · rw [List.nil_append] at hxs
    conv_lhs => rw [hxs]
    rw [hpiece]
    rfl
  · rw [List.concat_eq_append] at hxs hlast
    have hx : separates x = true := hlast x (by simp)
    conv_lhs => rw [hxs]
    rw [List.append_assoc, List.singleton_append, words_append_cons hx, hpiece,
      List.getLast?_concat]

theorem getLast_splitOnP (separates : α → Bool) (xs : List α) :
    (xs.splitOnP separates).getLast? = some (lastPiece separates xs) := by
  obtain ⟨front, hxs, hlast⟩ := append_lastPiece separates xs
  have hpiece := List.splitOnP_eq_singleton (forall_mem_lastPiece separates xs)
  rcases List.eq_nil_or_concat front with rfl | ⟨front, x, rfl⟩
  · rw [List.nil_append] at hxs
    conv_lhs => rw [hxs]
    rw [hpiece]
    rfl
  · rw [List.concat_eq_append] at hxs hlast
    have hx : separates x = true := hlast x (by simp)
    conv_lhs => rw [hxs]
    rw [List.append_assoc, List.singleton_append, List.splitOnP_append_cons _ _ hx, hpiece,
      List.getLast?_concat]

end Words
