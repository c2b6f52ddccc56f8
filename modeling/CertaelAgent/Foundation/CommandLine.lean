import Mathlib.Data.List.Basic
import Mathlib.Tactic

/-!
# Command lines of the Microsoft C runtime

A command line is one text, and a program splits it into its arguments by itself. Spaces and tabs
outside quotes separate them. Backslashes are literal unless a quote follows: `2n` of them are `n`
backslashes and the quote opens or closes, `2n + 1` are `n` backslashes and a literal quote. In the
first word, the program's name, backslashes are always literal.
-/

namespace CommandLine

def separates (c : Char) : Bool := c = ' ' || c = '\t'

/-- Puts characters in front of the first word. -/
def prepend (chars : List Char) : List (List Char) → List (List Char)
  | [] => [chars]
  | word :: words => (chars ++ word) :: words

def slashRun (n : ℕ) : List Char := List.replicate n '\\'

/-- The arguments. A word may have begun, there may be an open quote, and so many backslashes were
read just before. -/
def scan (begun quoted : Bool) (slashes : ℕ) : List Char → List (List Char)
  | [] => if begun then [slashRun slashes] else []
  | c :: chars =>
    if c = '\\' then scan true quoted (slashes + 1) chars
    else if c = '"' then
      if slashes % 2 = 0 then prepend (slashRun (slashes / 2)) (scan true (!quoted) 0 chars)
      else prepend (slashRun (slashes / 2) ++ [c]) (scan true quoted 0 chars)
    else if separates c ∧ quoted = false then
      if begun then slashRun slashes :: scan false false 0 chars else scan false false 0 chars
    else prepend (slashRun slashes ++ [c]) (scan true quoted 0 chars)

/-- The program's name and the arguments behind it. -/
def scanProgram (quoted : Bool) : List Char → List (List Char)
  | [] => [[]]
  | c :: chars =>
    if c = '"' then scanProgram (!quoted) chars
    else if separates c ∧ quoted = false then [] :: scan false false 0 chars
    else prepend [c] (scanProgram quoted chars)

def parse (line : String) : List String := (scanProgram false line.toList).map String.ofList

/-- No quotes are needed to make one word of these. -/
def Bare (chars : List Char) : Prop := ∀ c ∈ chars, c ≠ '"' ∧ separates c = false

/-- The command line ends here, or a space follows. -/
def AtEnd (rest : List Char) : Prop := rest = [] ∨ ∃ tail, rest = ' ' :: tail

theorem slashRun_succ (n : ℕ) : slashRun (n + 1) = '\\' :: slashRun n := rfl

theorem slashRun_add (m n : ℕ) : slashRun (m + n) = slashRun m ++ slashRun n :=
  List.replicate_add ..

theorem scan_backslashes (quoted : Bool) (n : ℕ) (chars : List Char) : ∀ slashes,
    scan true quoted slashes (slashRun n ++ chars) = scan true quoted (slashes + n) chars := by
  induction n with
  | zero => exact fun _ => rfl
  | succ n ih =>
    intro slashes
    rw [slashRun_succ, List.cons_append, scan, if_pos rfl, ih]
    congr 1
    omega

theorem scan_atEnd {rest : List Char} (h : AtEnd rest) (slashes : ℕ) :
    scan true false slashes rest = slashRun slashes :: scan false false 0 rest := by
  rcases h with rfl | ⟨tail, rfl⟩
  · rfl
  · simp [scan, separates]

theorem scanProgram_atEnd {rest : List Char} (h : AtEnd rest) :
    scanProgram false rest = [] :: scan false false 0 rest := by
  rcases h with rfl | ⟨tail, rfl⟩
  · rfl
  · simp [scan, scanProgram, separates]

theorem scan_quote_even (quoted : Bool) (n : ℕ) (chars : List Char) :
    scan true quoted (2 * n) ('"' :: chars) =
      prepend (slashRun n) (scan true (!quoted) 0 chars) := by
  have hquote : '"' ≠ '\\' := by decide
  rw [scan, if_neg hquote, if_pos rfl, if_pos (by omega), Nat.mul_div_cancel_left n (by omega)]

theorem scan_quote_odd (quoted : Bool) (n : ℕ) (chars : List Char) :
    scan true quoted (2 * n + 1) ('"' :: chars) =
      prepend (slashRun n ++ ['"']) (scan true quoted 0 chars) := by
  have hquote : '"' ≠ '\\' := by decide
  have hhalf : (2 * n + 1) / 2 = n := by omega
  rw [scan, if_neg hquote, if_pos rfl, if_neg (by omega), hhalf]

/-- Any other character takes the backslashes in front of it as they are. -/
theorem scan_literal {begun quoted : Bool} {c : Char} (hslash : c ≠ '\\') (hquote : c ≠ '"')
    (hplain : ¬ (separates c ∧ quoted = false)) (slashes : ℕ) (chars : List Char) :
    scan begun quoted slashes (c :: chars) =
      prepend (slashRun slashes ++ [c]) (scan true quoted 0 chars) := by
  rw [scan, if_neg hslash, if_neg hquote, if_neg hplain]

theorem scan_bare {chars rest : List Char} (hbare : Bare chars) (hrest : AtEnd rest) :
    ∀ slashes, scan true false slashes (chars ++ rest) =
      (slashRun slashes ++ chars) :: scan false false 0 rest := by
  induction chars with
  | nil =>
    intro slashes
    rw [List.nil_append, scan_atEnd hrest, List.append_nil]
  | cons c chars ih =>
    intro slashes
    obtain ⟨⟨hquote, hsep⟩, htail⟩ := List.forall_mem_cons.mp hbare
    by_cases hslash : c = '\\'
    · rw [List.cons_append, scan, if_pos hslash, ih htail, hslash, slashRun_add]
      simp [slashRun]
    · have hplain : ¬ (separates c ∧ false = false) := by simp [hsep]
      rw [List.cons_append, scan_literal hslash hquote hplain, ih htail]
      simp [prepend, slashRun]

theorem scan_word {chars rest : List Char} (hne : chars ≠ []) (hbare : Bare chars)
    (hrest : AtEnd rest) :
    scan false false 0 (chars ++ rest) = chars :: scan false false 0 rest := by
  -- a word that is not empty begins with its first character
  have hbegin : scan false false 0 (chars ++ rest) = scan true false 0 (chars ++ rest) := by
    cases chars with
    | nil => exact absurd rfl hne
    | cons c chars =>
      obtain ⟨⟨hquote, hsep⟩, htail⟩ := List.forall_mem_cons.mp hbare
      by_cases hslash : c = '\\'
      · rw [List.cons_append, scan, if_pos hslash, scan, if_pos hslash]
      · have hplain : ¬ (separates c ∧ false = false) := by simp [hsep]
        rw [List.cons_append, scan_literal hslash hquote hplain, scan_literal hslash hquote hplain]
  rw [hbegin, scan_bare hbare hrest]
  rfl

theorem scan_open (chars : List Char) :
    scan false false 0 ('"' :: chars) = prepend [] (scan true true 0 chars) := by
  have hquote : '"' ≠ '\\' := by decide
  rw [scan, if_neg hquote, if_pos rfl, if_pos rfl]
  rfl

theorem scanProgram_bare {chars rest : List Char} (hbare : Bare chars) (hrest : AtEnd rest) :
    scanProgram false (chars ++ rest) = chars :: scan false false 0 rest := by
  induction chars with
  | nil => exact scanProgram_atEnd hrest
  | cons c chars ih =>
    obtain ⟨⟨hquote, hsep⟩, htail⟩ := List.forall_mem_cons.mp hbare
    have hplain : ¬ (separates c ∧ false = false) := by simp [hsep]
    rw [List.cons_append, scanProgram, if_neg hquote, if_neg hplain, ih htail]
    rfl

theorem scanProgram_quoted {chars rest : List Char} (hquotes : '"' ∉ chars) (hrest : AtEnd rest) :
    scanProgram false ('"' :: (chars ++ '"' :: rest)) = chars :: scan false false 0 rest := by
  rw [scanProgram, if_pos rfl]
  induction chars with
  | nil =>
    rw [List.nil_append, scanProgram, if_pos rfl]
    exact scanProgram_atEnd hrest
  | cons c chars ih =>
    obtain ⟨hquote, htail⟩ := not_or.mp (mt List.mem_cons.mpr hquotes)
    have hplain : ¬ (separates c ∧ (!false) = false) := by simp
    rw [List.cons_append, scanProgram, if_neg (Ne.symm hquote), if_neg hplain, ih htail]
    rfl

end CommandLine
