import CertaelAgent.Foundation.EntryBlock
import CertaelAgent.Foundation.Utf16
import CertaelAgent.Platform.BuildManifest
import CertaelAgent.Protocol.Authenticity

/-!
# The environment of the game on Windows

The game gets the Agent's environment with the two handles of its channel in place of any of these
names that are there already. Windows keeps entries of its own among the variables, with names that
begin with an equals sign; of these the game gets the current directories of the drives.
-/

namespace CertaelAgent.Agent

open ProtoWire Protocol Platform

/-- The names that the handles have in the environment. -/
def readHandleKey : String := "CERTAEL_AGENT_READ_HANDLE"

def writeHandleKey : String := "CERTAEL_AGENT_WRITE_HANDLE"

/-- `u8::is_ascii_alphabetic`. -/
def isAsciiAlphabetic (b : UInt8) : Bool := (65 ≤ b && b ≤ 90) || (97 ≤ b && b ≤ 122)

def isDriveCurrentDirectoryKey (key : String) : Bool :=
  match Field.utf8 key with
  | [equals, drive, colon] => equals == 61 && isAsciiAlphabetic drive && colon == 58
  | _ => false

/-- The loop over the sorted entries. -/
def sanitizeLoop : List (String × String) → Except String (List (String × String))
  | [] => .ok []
  | (key, value) :: values =>
    if key = "" ∨ '\x00' ∈ key.toList ∨ '\x00' ∈ value.toList then
      .error "process environment contains an invalid entry"
    else
      let driveCurrentDirectory := isDriveCurrentDirectoryKey key
      if key.toList.head? = some '=' ∧ ¬ driveCurrentDirectory then sanitizeLoop values
      else if ¬ driveCurrentDirectory ∧ '=' ∈ key.toList then
        .error "process environment contains an invalid entry"
      else do
        let sanitized ← sanitizeLoop values
        return (key, value) :: sanitized

/-- The entries that `retain` leaves. -/
def retained (values : List (String × String)) : List (String × String) :=
  values.filter fun entry =>
    !eqIgnoreAsciiCase entry.1 readHandleKey && !eqIgnoreAsciiCase entry.1 writeHandleKey

/-- The handles are numbers, and `toUppercase` is that of the standard library. -/
def sanitizeEnvironmentEntries (toUppercase : String → String) (values : List (String × String))
    (read write : ℕ) : Except String (List (String × String)) :=
  let values :=
    retained values ++ [(readHandleKey, toString read), (writeHandleKey, toString write)]
  sanitizeLoop (values.mergeSort fun a b => decide (toUppercase a.1 ≤ toUppercase b.1))

/-- The units of one entry and the NUL behind it. -/
def wideEntry (entry : String × String) : List UInt16 :=
  Utf16.encode (entry.1 ++ "=" ++ entry.2) ++ [0]

def environmentBlockFrom (toUppercase : String → String) (values : List (String × String))
    (read write : ℕ) : Except String (List UInt16) := do
  let sanitized ← sanitizeEnvironmentEntries toUppercase values read write
  return sanitized.flatMap wideEntry ++ [0]

/-- What a process finds in its environment block. -/
def readEnvironmentBlock (block : List UInt16) : List (String × String) :=
  (EntryBlock.entries 0 block).map fun entry =>
    ((EntryBlock.splitEntry 61 entry).map Utf16.decodeLossy Utf16.decodeLossy)

/-- One of the two names that are replaced, in any case. -/
def IsHandleKey (key : String) : Prop :=
  eqIgnoreAsciiCase key readHandleKey ∨ eqIgnoreAsciiCase key writeHandleKey

/-- An entry of Windows' own, other than the current directory of a drive. -/
def IsPseudo (key : String) : Prop :=
  key.toList.head? = some '=' ∧ ¬ isDriveCurrentDirectoryKey key

/-- An entry that no environment can have. -/
def InvalidEntry (entry : String × String) : Prop :=
  entry.1 = "" ∨ '\x00' ∈ entry.1.toList ∨ '\x00' ∈ entry.2.toList ∨
    (entry.1.toList.head? ≠ some '=' ∧ '=' ∈ entry.1.toList)

instance (key : String) : Decidable (IsHandleKey key) := inferInstanceAs (Decidable (_ ∨ _))

instance (key : String) : Decidable (IsPseudo key) := inferInstanceAs (Decidable (_ ∧ _))

instance (entry : String × String) : Decidable (InvalidEntry entry) :=
  inferInstanceAs (Decidable (_ ∨ _))

theorem toList_of_isDriveCurrentDirectoryKey {key : String} (h : isDriveCurrentDirectoryKey key) :
    ∃ letter, letter ≠ '=' ∧ letter ≠ '\x00' ∧ key.toList = ['=', letter, ':'] := by
  unfold isDriveCurrentDirectoryKey at h
  split at h
  · next equals drive colon hbytes =>
    simp only [Bool.and_eq_true, beq_iff_eq] at h
    obtain ⟨⟨rfl, hletter⟩, rfl⟩ := h
    have hbounds : 65 ≤ drive.toNat ∧ drive.toNat ≤ 122 := by
      simp only [isAsciiAlphabetic, Bool.or_eq_true, Bool.and_eq_true, decide_eq_true_eq,
        UInt8.le_iff_toNat_le, UInt8.toNat_ofNat] at hletter
      omega
    obtain ⟨letter, hval⟩ : ∃ letter : Char, letter.val = drive.toUInt32 :=
      ⟨Char.ofUInt8 drive, rfl⟩
    have hnat : letter.toNat = drive.toNat := by
      rw [Char.toNat, hval, UInt8.toNat_toUInt32]
    have hsize : letter.utf8Size = 1 := by
      rw [Char.utf8Size_eq_one_iff, UInt32.le_iff_toNat_le]
      change letter.toNat ≤ 127
      omega
    have hchars : Field.utf8 key = Field.utf8 (String.ofList ['=', letter, ':']) := by
      rw [hbytes, Field.utf8_eq, String.toList_ofList, List.flatMap_cons, List.flatMap_cons,
        String.utf8EncodeChar_eq_singleton hsize, hval, UInt8.toUInt8_toUInt32]
      rfl
    rw [utf8_injective hchars, String.toList_ofList]
    have hne : ∀ c : Char, c.toNat < 65 → letter ≠ c := by
      rintro c hc rfl
      omega
    exact ⟨letter, hne '=' (by decide), hne '\x00' (by decide), rfl⟩
  · cases h

/-- An equals sign that is not in front stands in an ordinary name only. -/
theorem not_drive_of_ordinary {key : String} (h : key.toList.head? ≠ some '=') :
    ¬ isDriveCurrentDirectoryKey key := by
  intro hdrive
  obtain ⟨letter, -, -, hkey⟩ := toList_of_isDriveCurrentDirectoryKey hdrive
  rw [hkey] at h
  exact h rfl

/-- Without an invalid entry the loop drops the pseudo-entries and keeps the rest in order. -/
theorem sanitizeLoop_of_valid {values : List (String × String)}
    (h : ∀ entry ∈ values, ¬ InvalidEntry entry) :
    sanitizeLoop values = .ok (values.filter fun entry => ¬ IsPseudo entry.1) := by
  induction values with
  | nil => rfl
  | cons entry values ih =>
    obtain ⟨key, value⟩ := entry
    obtain ⟨hentry, hrest⟩ := List.forall_mem_cons.mp h
    simp only [InvalidEntry, not_or, not_and] at hentry
    obtain ⟨hempty, hkey, hvalue, hordinary⟩ := hentry
    have hclean : ¬ (key = "" ∨ '\x00' ∈ key.toList ∨ '\x00' ∈ value.toList) := by
      simp only [not_or]
      exact ⟨hempty, hkey, hvalue⟩
    rw [sanitizeLoop, if_neg hclean]
    dsimp only
    by_cases hpseudo : key.toList.head? = some '=' ∧ ¬ isDriveCurrentDirectoryKey key
    · have hdropped : IsPseudo key := hpseudo
      rw [if_pos hpseudo, ih hrest, List.filter_cons_of_neg (by simpa using hdropped)]
    · have hname : ¬ (¬ isDriveCurrentDirectoryKey key ∧ '=' ∈ key.toList) := by
        rintro ⟨hdrive, hequals⟩
        by_cases hhead : key.toList.head? = some '='
        · exact hpseudo ⟨hhead, hdrive⟩
        · exact hordinary hhead hequals
      have hkept : ¬ IsPseudo key := hpseudo
      rw [if_neg hpseudo, if_neg hname, ih hrest, List.filter_cons_of_pos (by simpa using hkept)]
      rfl

theorem sanitizeLoop_of_invalid {values : List (String × String)} {entry : String × String}
    (hmem : entry ∈ values) (hinvalid : InvalidEntry entry) :
    sanitizeLoop values = .error "process environment contains an invalid entry" := by
  induction values with
  | nil => cases hmem
  | cons first values ih =>
    obtain ⟨key, value⟩ := first
    rw [sanitizeLoop]
    dsimp only
    split_ifs with hunclean hpseudo hname
    · rfl
    · rcases List.mem_cons.mp hmem with rfl | hlater
      · -- an entry that is dropped has a clean name and value, and is no ordinary one
        simp only [not_or] at hunclean
        simp [InvalidEntry, hunclean, hpseudo.1] at hinvalid
      · exact ih hlater
    · rfl
    · rcases List.mem_cons.mp hmem with rfl | hlater
      · simp only [not_or] at hunclean
        simp only [InvalidEntry, hunclean, false_or] at hinvalid
        exact absurd ⟨not_drive_of_ordinary hinvalid.1, hinvalid.2⟩ hname
      · rw [ih hlater]
        rfl

theorem name_of_kept {entry : String × String} (hvalid : ¬ InvalidEntry entry)
    (hkept : ¬ IsPseudo entry.1) :
    ∃ first rest, entry.1.toList = first :: rest ∧ '=' ∉ rest := by
  simp only [InvalidEntry, not_or, not_and] at hvalid
  obtain ⟨hempty, -, -, hordinary⟩ := hvalid
  by_cases hhead : entry.1.toList.head? = some '='
  · have hdrive : isDriveCurrentDirectoryKey entry.1 = true :=
      not_not.mp fun hdrive => hkept ⟨hhead, hdrive⟩
    obtain ⟨letter, hletter, -, hkey⟩ := toList_of_isDriveCurrentDirectoryKey hdrive
    refine ⟨'=', [letter, ':'], hkey, ?_⟩
    simp [Ne.symm hletter]
  · have hequals := hordinary hhead
    cases hkey : entry.1.toList with
    | nil => exact absurd (String.toList_eq_nil_iff.mp hkey) hempty
    | cons first rest =>
      rw [hkey] at hequals
      exact ⟨first, rest, rfl, fun hmem => hequals (List.mem_cons_of_mem _ hmem)⟩

theorem splitEntry_wide {entry : String × String} (hvalid : ¬ InvalidEntry entry)
    (hkept : ¬ IsPseudo entry.1) :
    EntryBlock.splitEntry 61 (Utf16.encode (entry.1 ++ "=" ++ entry.2)) =
      (Utf16.encode entry.1, Utf16.encode entry.2) := by
  obtain ⟨first, rest, hkey, hequals⟩ := name_of_kept hvalid hkept
  have hequalsUnit : Utf16.encode "=" = [61] := by decide
  have htail : (61 : UInt16) ∉ (Utf16.encodeChar first).tail ++ rest.flatMap Utf16.encodeChar := by
    intro hmem
    rcases List.mem_append.mp hmem with hfirst | hrest
    · exact Utf16.not_mem_tail_encodeChar (n := 61) (by omega) hfirst
    · obtain ⟨c, hc, hunit⟩ := List.mem_flatMap.mp hrest
      have hnat : c.toNat = 61 := (Utf16.mem_encodeChar_iff (n := 61) (by omega)).mp hunit
      obtain rfl : c = '=' := Char.toNat_inj.mp hnat
      exact hequals hc
  obtain ⟨unit, hunit⟩ : ∃ unit, Utf16.encodeChar first =
      unit :: (Utf16.encodeChar first).tail := by
    cases h : Utf16.encodeChar first with
    | nil => exact absurd h (Utf16.encodeChar_ne_nil first)
    | cons unit units => exact ⟨unit, rfl⟩
  have hname : Utf16.encode entry.1 =
      unit :: ((Utf16.encodeChar first).tail ++ rest.flatMap Utf16.encodeChar) := by
    rw [Utf16.encode, hkey, List.flatMap_cons, ← List.cons_append, ← hunit]
  rw [Utf16.encode_append, Utf16.encode_append, hequalsUnit, hname, List.append_assoc,
    List.cons_append, List.singleton_append]
  exact EntryBlock.splitEntry_join htail _

theorem readEnvironmentBlock_write {sanitized : List (String × String)}
    (h : ∀ entry ∈ sanitized, ¬ InvalidEntry entry ∧ ¬ IsPseudo entry.1) :
    readEnvironmentBlock (sanitized.flatMap wideEntry ++ [0]) = sanitized := by
  have hblock : sanitized.flatMap wideEntry ++ [0] = EntryBlock.write 0
      (sanitized.map fun entry => Utf16.encode (entry.1 ++ "=" ++ entry.2)) := by
    rw [EntryBlock.write, List.flatMap_map]
    rfl
  have hentries : ∀ wide ∈ sanitized.map fun entry => Utf16.encode (entry.1 ++ "=" ++ entry.2),
      wide ≠ [] ∧ (0 : UInt16) ∉ wide := by
    intro wide hwide
    obtain ⟨entry, hentry, rfl⟩ := List.mem_map.mp hwide
    have hvalid := (h entry hentry).1
    simp only [InvalidEntry, not_or] at hvalid
    constructor
    · intro hnil
      have hread := Utf16.decodeLossy_encode (entry.1 ++ "=" ++ entry.2)
      rw [hnil] at hread
      have hchars := congrArg String.toList hread
      simp [Utf16.decodeLossy, Utf16.decodeChars] at hchars
    · intro hzero
      obtain ⟨c, hc, hnat⟩ := (Utf16.mem_encode_iff (n := 0) (by omega)).mp hzero
      obtain rfl : c = '\x00' := Char.toNat_inj.mp hnat
      simp only [String.toList_append, List.mem_append] at hc
      rcases hc with (hname | hequals) | hvalue
      · exact hvalid.2.1 hname
      · exact absurd hequals (by decide)
      · exact hvalid.2.2.1 hvalue
  unfold readEnvironmentBlock
  rw [hblock, EntryBlock.entries_write hentries, List.map_map]
  conv_rhs => rw [← List.map_id sanitized]
  apply List.map_congr_left
  intro entry hentry
  obtain ⟨hvalid, hkept⟩ := h entry hentry
  rw [Function.comp_apply, splitEntry_wide hvalid hkept, Prod.map_apply,
    Utf16.decodeLossy_encode, Utf16.decodeLossy_encode]
  rfl

/-- The entries of the two handles. -/
def handleEntries (read write : ℕ) : List (String × String) :=
  [(readHandleKey, toString read), (writeHandleKey, toString write)]

theorem nul_not_mem_toString (n : ℕ) : '\x00' ∉ (toString n).toList := by
  intro hmem
  rw [Nat.toString_eq_ofList_toDigits, String.toList_ofList] at hmem
  exact absurd (Nat.isDigit_of_mem_toDigits (by omega) (by omega) hmem) (by decide)

theorem valid_of_mem_handleEntries {read write : ℕ} {entry : String × String}
    (h : entry ∈ handleEntries read write) : ¬ InvalidEntry entry ∧ ¬ IsPseudo entry.1 := by
  have hvalue : '\x00' ∉ entry.2.toList := by
    rcases List.mem_pair.mp h with rfl | rfl
    · exact nul_not_mem_toString read
    · exact nul_not_mem_toString write
  have hkeys : ∀ key ∈ [readHandleKey, writeHandleKey], key ≠ "" ∧ '\x00' ∉ key.toList ∧
      '=' ∉ key.toList ∧ key.toList.head? ≠ some '=' := by
    decide +kernel
  have hkey : entry.1 ∈ [readHandleKey, writeHandleKey] := by
    rcases List.mem_pair.mp h with rfl | rfl
    · exact List.mem_cons_self ..
    · exact List.mem_cons_of_mem _ (List.mem_cons_self ..)
  obtain ⟨hne, hnul, hequals, hhead⟩ := hkeys entry.1 hkey
  constructor
  · rintro (hempty | hmem | hmem | ⟨-, hmem⟩)
    · exact hne hempty
    · exact hnul hmem
    · exact hvalue hmem
    · exact hequals hmem
  · intro hpseudo
    exact hhead hpseudo.1

theorem mem_retained {values : List (String × String)} {entry : String × String} :
    entry ∈ retained values ↔ entry ∈ values ∧ ¬ IsHandleKey entry.1 := by
  unfold retained IsHandleKey
  simp only [List.mem_filter, Bool.and_eq_true, Bool.not_eq_true', not_or, Bool.not_eq_true]

theorem sanitizeEnvironmentEntries_eq (toUppercase : String → String)
    (values : List (String × String)) (read write : ℕ) :
    ∃ sorted, sorted.Perm (retained values ++ handleEntries read write) ∧
      sanitizeEnvironmentEntries toUppercase values read write = sanitizeLoop sorted :=
  ⟨_, List.mergeSort_perm _ _, rfl⟩

/-- What comes out is what is neither replaced nor dropped, and the two handles. -/
theorem perm_filter_kept {values sorted : List (String × String)} {read write : ℕ}
    (hperm : sorted.Perm (retained values ++ handleEntries read write)) :
    (sorted.filter fun entry => ¬ IsPseudo entry.1).Perm
      ((values.filter fun entry => ¬ IsHandleKey entry.1 ∧ ¬ IsPseudo entry.1) ++
        handleEntries read write) := by
  have hhandles : (handleEntries read write).filter (fun entry => ¬ IsPseudo entry.1) =
      handleEntries read write := by
    rw [List.filter_eq_self]
    intro entry hentry
    simpa using (valid_of_mem_handleEntries hentry).2
  have hretained : (retained values).filter (fun entry => ¬ IsPseudo entry.1) =
      values.filter fun entry => ¬ IsHandleKey entry.1 ∧ ¬ IsPseudo entry.1 := by
    unfold retained
    rw [List.filter_filter]
    apply List.filter_congr
    intro entry _
    rw [Bool.eq_iff_iff]
    simp only [IsHandleKey, decide_eq_true_eq, Bool.and_eq_true, Bool.not_eq_true', not_or,
      Bool.not_eq_true]
    exact and_comm
  have hfiltered := hperm.filter fun entry => decide ¬ IsPseudo entry.1
  rw [List.filter_append, hhandles, hretained] at hfiltered
  exact hfiltered

/-- A block is read as the sanitized entries: the entries of the parent, less the handles it may
have had and the pseudo-entries, as often as they were there, and the two handles. There is no block
exactly if an entry that is not replaced is invalid. The order comes from the standard library's
upper case, whatever that is. -/
theorem environmentBlock_faithful (toUppercase : String → String)
    (values : List (String × String)) (read write : ℕ) :
    (∀ block, environmentBlockFrom toUppercase values read write = .ok block →
      sanitizeEnvironmentEntries toUppercase values read write =
          .ok (readEnvironmentBlock block) ∧
        (readEnvironmentBlock block).Perm
          ((values.filter fun entry => ¬ IsHandleKey entry.1 ∧ ¬ IsPseudo entry.1) ++
            [(readHandleKey, toString read), (writeHandleKey, toString write)])) ∧
    ((∃ message, environmentBlockFrom toUppercase values read write = .error message) ↔
      ∃ entry ∈ values, ¬ IsHandleKey entry.1 ∧ InvalidEntry entry) := by
  obtain ⟨sorted, hperm, hsanitize⟩ :=
    sanitizeEnvironmentEntries_eq toUppercase values read write
  have hinvalid : (∃ entry ∈ sorted, InvalidEntry entry) ↔
      ∃ entry ∈ values, ¬ IsHandleKey entry.1 ∧ InvalidEntry entry := by
    constructor
    · rintro ⟨entry, hentry, hinvalid⟩
      rcases List.mem_append.mp (hperm.mem_iff.mp hentry) with hretained | hhandle
      · obtain ⟨hmem, hkey⟩ := mem_retained.mp hretained
        exact ⟨entry, hmem, hkey, hinvalid⟩
      · exact absurd hinvalid (valid_of_mem_handleEntries hhandle).1
    · rintro ⟨entry, hmem, hkey, hinvalid⟩
      have hretained : entry ∈ retained values := mem_retained.mpr ⟨hmem, hkey⟩
      exact ⟨entry, hperm.mem_iff.mpr (List.mem_append_left _ hretained), hinvalid⟩
  unfold environmentBlockFrom
  rw [hsanitize, ← hinvalid]
  by_cases hbad : ∃ entry ∈ sorted, InvalidEntry entry
  · obtain ⟨entry, hentry, hentryInvalid⟩ := hbad
    rw [sanitizeLoop_of_invalid hentry hentryInvalid]
    constructor
    · intro block hblock
      cases hblock
    · exact iff_of_true ⟨_, rfl⟩ ⟨entry, hentry, hentryInvalid⟩
  · have hvalid : ∀ entry ∈ sorted, ¬ InvalidEntry entry := by
      intro entry hentry hentryInvalid
      exact hbad ⟨entry, hentry, hentryInvalid⟩
    rw [sanitizeLoop_of_valid hvalid]
    constructor
    · intro block hblock
      obtain rfl := Except.ok.inj hblock
      have hkept : ∀ entry ∈ sorted.filter fun entry => ¬ IsPseudo entry.1,
          ¬ InvalidEntry entry ∧ ¬ IsPseudo entry.1 := by
        intro entry hentry
        obtain ⟨hmem, hpseudo⟩ := List.mem_filter.mp hentry
        exact ⟨hvalid entry hmem, by simpa using hpseudo⟩
      rw [readEnvironmentBlock_write hkept]
      exact ⟨rfl, perm_filter_kept hperm⟩
    · apply iff_of_false _ hbad
      rintro ⟨message, hmessage⟩
      cases hmessage

namespace Sample

/-- An environment with a drive's directory, a pseudo-entry and a handle of somebody else's. -/
def environment : List (String × String) :=
  [("Path", "C:\\Windows"), ("=C:", "C:\\Games"), ("=::", "::\\"),
    ("certael_agent_read_handle", "attacker")]

/-- The upper case of texts in ASCII. -/
def toUppercase (text : String) : String := String.ofList (text.toList.map Char.toUpper)

end Sample

theorem environmentBlock_faithful_sample :
    ∃ block, environmentBlockFrom Sample.toUppercase Sample.environment 123 456 = .ok block ∧
      (readEnvironmentBlock block).Perm [("Path", "C:\\Windows"), ("=C:", "C:\\Games"),
        ("CERTAEL_AGENT_READ_HANDLE", "123"), ("CERTAEL_AGENT_WRITE_HANDLE", "456")] := by
  obtain ⟨hread, herror⟩ :=
    environmentBlock_faithful Sample.toUppercase Sample.environment 123 456
  have hkept : (Sample.environment.filter fun entry =>
      ¬ IsHandleKey entry.1 ∧ ¬ IsPseudo entry.1) ++
        [(readHandleKey, toString 123), (writeHandleKey, toString 456)] =
      [("Path", "C:\\Windows"), ("=C:", "C:\\Games"), ("CERTAEL_AGENT_READ_HANDLE", "123"),
        ("CERTAEL_AGENT_WRITE_HANDLE", "456")] := by
    decide +kernel
  cases hblock : environmentBlockFrom Sample.toUppercase Sample.environment 123 456 with
  | ok block =>
    have hperm := (hread block hblock).2
    rw [hkept] at hperm
    exact ⟨block, rfl, hperm⟩
  | error message => exact absurd (herror.mp ⟨message, hblock⟩) (by decide +kernel)

end CertaelAgent.Agent
