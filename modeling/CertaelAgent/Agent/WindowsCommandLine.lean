import CertaelAgent.Foundation.CommandLine
import CertaelAgent.Foundation.Utf16

/-!
# The command line of the game on Windows

The game's path and its arguments become one text, which the game splits again. A path is UTF-16
that need not be well-formed; what is not becomes a replacement character on the way.
-/

namespace CertaelAgent.Agent

open CommandLine

/-- What comes between the quotes, and so many backslashes were read just before. -/
def quoteLoop (slashes : ℕ) : List Char → List Char
  | [] => slashRun (slashes * 2)
  | character :: characters =>
    if character = '\\' then quoteLoop (slashes + 1) characters
    else if character = '"' then
      slashRun (slashes * 2 + 1) ++ character :: quoteLoop 0 characters
    else slashRun slashes ++ character :: quoteLoop 0 characters

def quote (value : String) : String :=
  if value ≠ "" ∧ ¬ value.toList.any (fun c => c = ' ' || c = '\t' || c = '"') then value
  else String.ofList ('"' :: (quoteLoop 0 value.toList ++ ['"']))

/-- `Path::to_string_lossy`. -/
def toStringLossy (path : List UInt16) : String := Utf16.decodeLossy path

def windowsCommandLine (game : List UInt16) (args : List String) : String :=
  " ".intercalate ((toStringLossy game :: args).map quote)

/-- The loop's backslashes mean what was read, and its quotes are literal. -/
theorem scan_quoteLoop {rest : List Char} (hrest : AtEnd rest) (chars : List Char) : ∀ slashes,
    scan true true 0 (quoteLoop slashes chars ++ '"' :: rest) =
      (slashRun slashes ++ chars) :: scan false false 0 rest := by
  induction chars with
  | nil =>
    intro slashes
    rw [quoteLoop, scan_backslashes, Nat.zero_add, Nat.mul_comm, scan_quote_even]
    rw [Bool.not_true, scan_atEnd hrest]
    simp [prepend, slashRun]
  | cons c chars ih =>
    intro slashes
    rw [quoteLoop]
    split_ifs with hslash hquote
    · rw [ih, hslash, slashRun_add]
      simp [slashRun]
    · rw [List.append_assoc, scan_backslashes, Nat.zero_add, Nat.mul_comm, hquote, List.cons_append,
        scan_quote_odd, ih]
      simp [prepend, slashRun]
    · have hplain : ¬ (separates c ∧ true = false) := by simp
      rw [List.append_assoc, scan_backslashes, Nat.zero_add, List.cons_append,
        scan_literal hslash hquote hplain, ih]
      simp [prepend, slashRun]

theorem quoteLoop_plain {chars : List Char} (hquotes : '"' ∉ chars) : ∀ slashes,
    (chars = [] → slashes = 0) → chars.getLast? ≠ some '\\' →
      quoteLoop slashes chars = slashRun slashes ++ chars := by
  induction chars with
  | nil =>
    intro slashes hzero _
    rw [hzero rfl]
    rfl
  | cons c chars ih =>
    intro slashes _ hend
    obtain ⟨hquote, htail⟩ := not_or.mp (mt List.mem_cons.mpr hquotes)
    have hend' : chars ≠ [] → chars.getLast? ≠ some '\\' := by
      intro hne
      rwa [List.getLast?_cons_of_ne_nil hne] at hend
    have hend'' : chars.getLast? ≠ some '\\' := by
      by_cases hne : chars = []
      · rw [hne]
        exact Option.some_ne_none _ ∘ Eq.symm
      · exact hend' hne
    rw [quoteLoop]
    split_ifs with hslash hquote'
    · have hmore : chars = [] → slashes + 1 = 0 := by
        rintro rfl
        rw [hslash] at hend
        exact absurd rfl hend
      rw [ih htail _ hmore hend'', hslash, slashRun_add]
      simp [slashRun]
    · exact absurd hquote'.symm hquote
    · rw [ih htail 0 (fun _ => rfl) hend'']
      rfl

theorem bare_of_not_any {chars : List Char}
    (h : ¬ chars.any (fun c => c = ' ' || c = '\t' || c = '"')) : Bare chars := by
  intro c hc
  have hnone : ¬ (c = ' ' ∨ c = '\t' ∨ c = '"') := by
    simp only [List.any_eq_true, not_exists, not_and] at h
    simpa [or_assoc] using h c hc
  simp only [not_or] at hnone
  exact ⟨hnone.2.2, by simp [separates, hnone.1, hnone.2.1]⟩

theorem scan_quote (value : String) {rest : List Char} (hrest : AtEnd rest) :
    scan false false 0 ((quote value).toList ++ rest) =
      value.toList :: scan false false 0 rest := by
  unfold quote
  split_ifs with hplain
  · have hne : value.toList ≠ [] := by
      intro hnil
      exact hplain.1 (String.toList_inj.mp hnil)
    exact scan_word hne (bare_of_not_any hplain.2) hrest
  · rw [String.toList_ofList, List.cons_append, List.append_assoc, scan_open, List.singleton_append,
      scan_quoteLoop hrest]
    rfl

theorem scanProgram_quote {value : String} (hquotes : '"' ∉ value.toList)
    (hend : value.toList.getLast? ≠ some '\\') {rest : List Char} (hrest : AtEnd rest) :
    scanProgram false ((quote value).toList ++ rest) =
      value.toList :: scan false false 0 rest := by
  unfold quote
  split_ifs with hplain
  · exact scanProgram_bare (bare_of_not_any hplain.2) hrest
  · rw [quoteLoop_plain hquotes 0 (fun _ => rfl) hend, String.toList_ofList, List.cons_append,
      List.append_assoc, List.singleton_append]
    exact scanProgram_quoted hquotes hrest

/-- What follows the first word. -/
def following (args : List String) : List Char := args.flatMap fun arg => ' ' :: (quote arg).toList

theorem atEnd_following (args : List String) : AtEnd (following args) := by
  cases args with
  | nil => exact .inl rfl
  | cons arg args => exact .inr ⟨_, rfl⟩

theorem scan_following (args : List String) :
    scan false false 0 (following args) = args.map String.toList := by
  induction args with
  | nil => rfl
  | cons arg args ih =>
    have hspace : ∀ chars, scan false false 0 (' ' :: chars) = scan false false 0 chars := by
      intro chars
      simp [scan, separates]
    change scan false false 0 (' ' :: ((quote arg).toList ++ following args)) = _
    rw [hspace, scan_quote arg (atEnd_following args), ih]
    rfl

theorem toList_intercalate_quote (args : List String) : ∀ first : String,
    (" ".intercalate ((first :: args).map quote)).toList =
      (quote first).toList ++ following args := by
  induction args with
  | nil =>
    intro first
    simp [following]
  | cons arg args ih =>
    intro first
    have htail := ih arg
    rw [String.toList_intercalate, List.map_cons, List.map_cons] at htail ⊢
    rw [List.map_cons, List.map_cons, List.intercalate_cons_cons, htail]
    simp [following]

/-- Every command line is read as the path's text and the arguments, if the text has no quote and
no backslash at its end. -/
theorem parse_toStringLossy {game : List UInt16} (hquotes : '"' ∉ (toStringLossy game).toList)
    (hend : (toStringLossy game).toList.getLast? ≠ some '\\') (args : List String) :
    parse (windowsCommandLine game args) = toStringLossy game :: args := by
  unfold parse windowsCommandLine
  rw [toList_intercalate_quote, scanProgram_quote hquotes hend (atEnd_following args),
    scan_following, List.map_cons, List.map_map, String.ofList_toList]
  simp

/-- A path that is well-formed UTF-16 comes back as it was, and so do the arguments. -/
theorem parse_windowsCommandLine {game : String} (hquotes : '"' ∉ game.toList)
    (hend : game.toList.getLast? ≠ some '\\') (args : List String) :
    (parse (windowsCommandLine (Utf16.encode game) args)).map Utf16.encode =
      Utf16.encode game :: args.map Utf16.encode := by
  have hlossy : toStringLossy (Utf16.encode game) = game := Utf16.decodeLossy_encode game
  have hparse := @parse_toStringLossy (Utf16.encode game)
  rw [hlossy] at hparse
  rw [hparse hquotes hend args, List.map_cons]

theorem parse_windowsCommandLine_sample :
    (parse (windowsCommandLine (Utf16.encode "C:\\My Games\\chess.exe")
      ["--name", "a\\\"b", "", "two words\\"])).map Utf16.encode =
      Utf16.encode "C:\\My Games\\chess.exe" ::
        ["--name", "a\\\"b", "", "two words\\"].map Utf16.encode :=
  parse_windowsCommandLine (by decide +kernel) (by decide +kernel) _

/-- `C:\` and a name that is half a surrogate pair. -/
def unpaired : List UInt16 := [67, 58, 92, 0xD800]

/-- A path that is not well-formed UTF-16 comes back with a replacement character. -/
theorem not_parse_windowsCommandLine : ¬ ∀ (game : List UInt16) (args : List String),
    0x22 ∉ game → game.getLast? ≠ some 0x5C → (∀ arg ∈ args, '\x00' ∉ arg.toList) →
      (parse (windowsCommandLine game args)).map Utf16.encode =
        game :: args.map Utf16.encode := by
  intro h
  have hunpaired := h unpaired [] (by decide) (by decide) (List.forall_mem_nil _)
  exact absurd hunpaired (by decide +kernel)

end CertaelAgent.Agent
