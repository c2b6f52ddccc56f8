import Mathlib.Data.List.Basic
import Mathlib.Tactic

/-!
# Blocks of terminated entries

A block is a list of entries, each with a terminator behind it, and one more terminator at the end.
An empty entry would be taken for the end, and a terminator inside an entry for its end; without
these, reading undoes writing. An entry has a name and a value with a separator in between, which
may also be the first element of the name.
-/

namespace EntryBlock

variable {α : Type} [DecidableEq α]

def write (stop : α) (entries : List (List α)) : List α :=
  (entries.flatMap fun entry => entry ++ [stop]) ++ [stop]

/-- The entries in front of the first empty one; of the first, this much was read already. -/
def entriesFrom (stop : α) (begun : List α) : List α → List (List α)
  | [] => []
  | a :: block =>
    if a = stop then if begun = [] then [] else begun :: entriesFrom stop [] block
    else entriesFrom stop (begun ++ [a]) block

def entries (stop : α) (block : List α) : List (List α) := entriesFrom stop [] block

/-- Splits an entry at the first separator behind its first element. -/
def splitEntry (separator : α) : List α → List α × List α
  | [] => ([], [])
  | first :: entry =>
    (first :: entry.takeWhile (· ≠ separator), (entry.dropWhile (· ≠ separator)).drop 1)

theorem entriesFrom_entry {stop : α} {entry : List α} (hstop : stop ∉ entry) (block : List α) :
    ∀ begun, entriesFrom stop begun (entry ++ block) = entriesFrom stop (begun ++ entry) block := by
  induction entry with
  | nil =>
    intro begun
    rw [List.nil_append, List.append_nil]
  | cons a entry ih =>
    intro begun
    obtain ⟨hfirst, htail⟩ := not_or.mp (mt List.mem_cons.mpr hstop)
    rw [List.cons_append, entriesFrom, if_neg (Ne.symm hfirst), ih htail, List.append_assoc,
      List.singleton_append]

theorem entries_write {stop : α} {written : List (List α)}
    (h : ∀ entry ∈ written, entry ≠ [] ∧ stop ∉ entry) :
    entries stop (write stop written) = written := by
  unfold entries write
  induction written with
  | nil => simp [entriesFrom]
  | cons entry written ih =>
    obtain ⟨⟨hne, hstop⟩, hrest⟩ := List.forall_mem_cons.mp h
    rw [List.flatMap_cons, List.append_assoc, List.append_assoc, entriesFrom_entry hstop,
      List.nil_append, List.singleton_append, entriesFrom, if_pos rfl, if_neg hne, ih hrest]

theorem splitEntry_join {separator first : α} {name : List α} (h : separator ∉ name)
    (value : List α) :
    splitEntry separator (first :: (name ++ separator :: value)) = (first :: name, value) := by
  have hname : ∀ a ∈ name, decide (a ≠ separator) = true := by
    intro a ha
    rw [decide_eq_true_eq]
    rintro rfl
    exact h ha
  rw [splitEntry, List.takeWhile_append_of_pos hname, List.dropWhile_append_of_pos hname]
  simp

end EntryBlock
