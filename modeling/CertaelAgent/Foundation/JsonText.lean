import CertaelAgent.Foundation.Hex

/-!
# String literals of JSON texts

A literal is written between quotes with quotes, backslashes and control characters escaped. The
reader below takes back what the writer produces, and leaves the rest of the text.
-/

namespace JsonText

def quote : Char := Char.ofNat 34

def backslash : Char := Char.ofNat 92

/-- The letter that stands for a character behind a backslash. -/
def shortEscape (c : Char) : Option Char :=
  if c = quote then some quote
  else if c = backslash then some backslash
  else if c = Char.ofNat 8 then some 'b'
  else if c = Char.ofNat 9 then some 't'
  else if c = Char.ofNat 10 then some 'n'
  else if c = Char.ofNat 12 then some 'f'
  else if c = Char.ofNat 13 then some 'r'
  else none

def ofShortEscape (c : Char) : Option Char :=
  if c = quote then some quote
  else if c = backslash then some backslash
  else if c = 'b' then some (Char.ofNat 8)
  else if c = 't' then some (Char.ofNat 9)
  else if c = 'n' then some (Char.ofNat 10)
  else if c = 'f' then some (Char.ofNat 12)
  else if c = 'r' then some (Char.ofNat 13)
  else none

/-- The first 32 characters that have no letter are written by their number. -/
def escape (c : Char) : List Char :=
  match shortEscape c with
  | some letter => [backslash, letter]
  | none =>
    if c.toNat < 32 then
      [backslash, 'u', '0', '0', Hex.lastDigit (c.toNat / 16), Hex.lastDigit (c.toNat % 16)]
    else [c]

def readChar : List Char → Option (Char × List Char)
  | [] => none
  | c :: rest =>
    if c ≠ backslash then some (c, rest)
    else match rest with
      | [] => none
      | letter :: rest =>
        if letter ≠ 'u' then (ofShortEscape letter).map fun c => (c, rest)
        else match rest with
          | '0' :: '0' :: h :: l :: rest => do
            let h ← Hex.value h
            let l ← Hex.value l
            some (Char.ofNat (16 * h + l), rest)
          | _ => none

theorem ofShortEscape_of_shortEscape {c letter : Char} (h : shortEscape c = some letter) :
    ofShortEscape letter = some c ∧ letter ≠ 'u' := by
  unfold shortEscape at h
  split_ifs at h with h₁ h₂ h₃ h₄ h₅ h₆ h₇
  all_goals
    rw [← Option.some.inj h]
    subst_vars
    decide

theorem readChar_escape (c : Char) (rest : List Char) :
    readChar (escape c ++ rest) = some (c, rest) := by
  unfold escape
  cases hshort : shortEscape c with
  | some letter =>
    obtain ⟨hletter, hne⟩ := ofShortEscape_of_shortEscape hshort
    simp [readChar, hne, hletter]
  | none =>
    have hback : c ≠ backslash := by
      rintro rfl
      exact absurd hshort (by decide)
    by_cases hsmall : c.toNat < 32
    · have hnumber : 16 * (c.toNat / 16 % 16) + c.toNat % 16 = c.toNat := by omega
      have hchar : Char.ofNat (16 * (c.toNat / 16 % 16) + c.toNat % 16) = c := by
        rw [hnumber, Char.ofNat_toNat]
      simpa [hsmall, readChar, Hex.lastDigit, Hex.value_digit] using hchar
    · simp [hsmall, readChar, hback]

/-- An escaped character never begins with a quote. -/
theorem escape_cons (c : Char) : ∃ first tail, escape c = first :: tail ∧ first ≠ quote := by
  unfold escape
  cases hshort : shortEscape c with
  | some letter => exact ⟨backslash, _, rfl, by decide⟩
  | none =>
    by_cases hsmall : c.toNat < 32
    · exact ⟨backslash, _, if_pos hsmall, by decide⟩
    · refine ⟨c, [], if_neg hsmall, ?_⟩
      rintro rfl
      exact absurd hshort (by decide)

def literal (value : String) : List Char :=
  quote :: (value.toList.flatMap escape ++ [quote])

/-- Reads characters up to the closing quote. -/
def readChars : ℕ → List Char → Option (List Char × List Char)
  | 0, _ => none
  | _ + 1, [] => none
  | fuel + 1, c :: rest =>
    if c = quote then some ([], rest)
    else do
      let (c, rest) ← readChar (c :: rest)
      let (chars, rest) ← readChars fuel rest
      some (c :: chars, rest)

def readLiteral : List Char → Option (String × List Char)
  | [] => none
  | c :: rest =>
    if c = quote then (readChars (rest.length + 1) rest).map fun r => (String.ofList r.1, r.2)
    else none

theorem readChars_escape (chars rest : List Char) : ∀ fuel, chars.length < fuel →
    readChars fuel (chars.flatMap escape ++ quote :: rest) = some (chars, rest) := by
  induction chars with
  | nil =>
    intro fuel hfuel
    obtain ⟨fuel, rfl⟩ := Nat.exists_eq_add_of_lt hfuel
    simp [readChars]
  | cons c chars ih =>
    intro fuel hfuel
    obtain ⟨fuel, rfl⟩ : ∃ n, fuel = n + 1 := ⟨fuel - 1, by simp at hfuel; omega⟩
    obtain ⟨first, tail, hescape, hquote⟩ := escape_cons c
    have hread := readChar_escape c (chars.flatMap escape ++ quote :: rest)
    have hrest := ih fuel (by simpa using hfuel)
    rw [hescape] at hread
    rw [List.flatMap_cons, hescape, List.append_assoc, List.cons_append, readChars, if_neg hquote]
    rw [List.cons_append] at hread
    simp only [hread, hrest, Option.bind_eq_bind, Option.bind_some]

theorem length_le_flatMap_escape (chars : List Char) :
    chars.length ≤ (chars.flatMap escape).length := by
  induction chars with
  | nil => simp
  | cons c chars ih =>
    obtain ⟨first, tail, hescape, _⟩ := escape_cons c
    simp only [List.length_cons, List.flatMap_cons, List.length_append, hescape]
    omega

theorem readLiteral_literal (value : String) (rest : List Char) :
    readLiteral (literal value ++ rest) = some (value, rest) := by
  have hlen := length_le_flatMap_escape value.toList
  have hread := readChars_escape value.toList rest
    ((value.toList.flatMap escape ++ quote :: rest).length + 1) (by
      rw [List.length_append]
      omega)
  simp only [literal, List.cons_append, List.append_assoc, List.nil_append, readLiteral, hread]
  simp

/-- The text behind a given beginning. -/
def expectText (text chars : List Char) : Option (List Char) :=
  if text <+: chars then some (chars.drop text.length) else none

theorem expectText_append (text rest : List Char) :
    expectText text (text ++ rest) = some rest := by
  simp [expectText]

section

variable {β : Type}

theorem expectText_bind (text rest : List Char) (f : List Char → Option β) :
    (expectText text (text ++ rest) >>= f) = f rest := by
  rw [expectText_append]
  rfl

theorem readLiteral_bind (value : String) (rest : List Char) (f : String × List Char → Option β) :
    (readLiteral (literal value ++ rest) >>= f) = f (value, rest) := by
  rw [readLiteral_literal]
  rfl

end

/-! ## Numbers and optional values -/

def number (value : ℤ) : List Char :=
  if value < 0 then '-' :: Nat.toDigits 10 value.natAbs else Nat.toDigits 10 value.natAbs

def readDigits (chars : List Char) : Option (ℕ × List Char) :=
  let digits := chars.takeWhile Char.isDigit
  if digits = [] then none
  else some (Nat.ofDigitChars 10 digits 0, chars.dropWhile Char.isDigit)

def readNumber (chars : List Char) : Option (ℤ × List Char) :=
  match expectText ['-'] chars with
  | some rest => (readDigits rest).map fun r => (-(r.1 : ℤ), r.2)
  | none => (readDigits chars).map fun r => ((r.1 : ℤ), r.2)

/-- The text ends, or goes on with something else than a digit. -/
def NumberEnds (rest : List Char) : Prop := ∀ c ∈ rest.head?, c.isDigit = false

theorem readDigits_toDigits (n : ℕ) {rest : List Char} (hrest : NumberEnds rest) :
    readDigits (Nat.toDigits 10 n ++ rest) = some (n, rest) := by
  have hdigits : ∀ c ∈ Nat.toDigits 10 n, c.isDigit = true := fun c hc =>
    Nat.isDigit_of_mem_toDigits (by decide) (by decide) hc
  have hnone : rest.takeWhile Char.isDigit = [] ∧ rest.dropWhile Char.isDigit = rest := by
    cases rest with
    | nil => exact ⟨rfl, rfl⟩
    | cons c rest =>
      have hc : c.isDigit = false := hrest c rfl
      simp [hc]
  unfold readDigits
  rw [List.takeWhile_append_of_pos hdigits, List.dropWhile_append_of_pos hdigits, hnone.1, hnone.2,
    List.append_nil]
  simp [Nat.toDigits_ne_nil]

theorem toDigits_cons (n : ℕ) : ∃ c tail, Nat.toDigits 10 n = c :: tail ∧ c.isDigit = true := by
  obtain ⟨c, tail, hcons⟩ := List.exists_cons_of_ne_nil (Nat.toDigits_ne_nil (b := 10) (n := n))
  refine ⟨c, tail, hcons, ?_⟩
  apply Nat.isDigit_of_mem_toDigits (b := 10) (n := n) (by decide) (by decide)
  rw [hcons]
  exact List.mem_cons_self ..

theorem readNumber_number (value : ℤ) {rest : List Char} (hrest : NumberEnds rest) :
    readNumber (number value ++ rest) = some (value, rest) := by
  unfold readNumber number
  split_ifs with hneg
  · rw [List.cons_append, show '-' :: (Nat.toDigits 10 value.natAbs ++ rest) =
      ['-'] ++ (Nat.toDigits 10 value.natAbs ++ rest) from rfl, expectText_append]
    simp only [readDigits_toDigits _ hrest, Option.map_some]
    congr 2
    omega
  · have hminus : expectText ['-'] (Nat.toDigits 10 value.natAbs ++ rest) = none := by
      obtain ⟨c, tail, hcons, hdigit⟩ := toDigits_cons value.natAbs
      unfold expectText
      rw [if_neg]
      intro hbegins
      rw [hcons, List.cons_append, List.cons_prefix_cons] at hbegins
      rw [← hbegins.1] at hdigit
      exact absurd hdigit (by decide)
    simp only [hminus, readDigits_toDigits _ hrest, Option.map_some]
    congr 2
    omega

section

variable {α β : Type}

def orNull (write : α → List Char) : Option α → List Char
  | none => "null".toList
  | some a => write a

def readOrNull (read : List Char → Option (α × List Char)) (chars : List Char) :
    Option (Option α × List Char) :=
  match expectText "null".toList chars with
  | some rest => some (none, rest)
  | none => (read chars).map fun r => (some r.1, r.2)

theorem readOrNull_orNull {write : α → List Char} {read : List Char → Option (α × List Char)}
    {rest : List Char} (hread : ∀ a, read (write a ++ rest) = some (a, rest))
    (hhead : ∀ a, ¬ "null".toList <+: write a ++ rest) (o : Option α) :
    readOrNull read (orNull write o ++ rest) = some (o, rest) := by
  cases o with
  | none =>
    unfold readOrNull orNull
    rw [expectText_append]
  | some a =>
    unfold readOrNull orNull
    rw [show expectText "null".toList (write a ++ rest) = none from if_neg (hhead a), hread]
    rfl

theorem readNumber_bind (value : ℤ) {rest : List Char} (hrest : NumberEnds rest)
    (f : ℤ × List Char → Option β) : (readNumber (number value ++ rest) >>= f) = f (value, rest) := by
  rw [readNumber_number value hrest]
  rfl

end

theorem not_null_literal (value : String) (rest : List Char) :
    ¬ "null".toList <+: literal value ++ rest := by
  intro hbegins
  obtain ⟨x, hx⟩ := hbegins
  have hhead := congrArg List.head? hx
  simp [literal, quote] at hhead

theorem not_null_number (value : ℤ) (rest : List Char) :
    ¬ "null".toList <+: number value ++ rest := by
  obtain ⟨c, tail, hcons, hdigit⟩ := toDigits_cons value.natAbs
  intro hbegins
  obtain ⟨x, hx⟩ := hbegins
  unfold number at hx
  rw [hcons] at hx
  split_ifs at hx
  · have hhead : 'n' = '-' := (List.cons.inj hx).1
    exact absurd hhead (by decide)
  · have hhead : 'n' = c := (List.cons.inj hx).1
    rw [← hhead] at hdigit
    exact absurd hdigit (by decide)

end JsonText
