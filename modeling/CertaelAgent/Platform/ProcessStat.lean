import CertaelAgent.Foundation.Utf8
import CertaelAgent.Platform.LoadedModules

/-!
# What a process file says of a process

The Linux readers take the start time and the parent of a process from its `stat` file. The name
in it is chosen by the process and may look like the fields behind it; the readers go to the last
closing parenthesis, behind which no name can reach. But the file is read as text, and a name that
is no UTF-8 makes it unreadable.
-/

namespace CertaelAgent.Platform

open ProtoWire Protocol

/-- `read_to_string`, where a file that cannot be read has no content. -/
def readToString (file : Option Bytes) : Option String := file.bind Field.fromUtf8

/-- `rsplit_once`: what is in front of the last separator, and what is behind it. -/
def rsplitOnce (separator : Char) : List Char → Option (List Char × List Char)
  | [] => none
  | c :: chars =>
    match rsplitOnce separator chars with
    | some (front, back) => some (c :: front, back)
    | none => if c = separator then some ([], chars) else none

/-- `trim_start`. -/
def trimStart (text : List Char) : List Char := text.dropWhile isWhitespace

/-- Parses an unsigned number of so many bits, which may have a plus sign in front. -/
def parseUnsigned (bits : ℕ) (text : List Char) : Option ℕ :=
  let digits := if text.head? = some '+' then text.tail else text
  if digits.isEmpty || !digits.all Char.isDigit then none
  else
    let value := digits.foldl (fun value c => 10 * value + (c.toNat - 48)) 0
    if value < 2 ^ bits then some value else none

/-- The words behind the name, counted from zero. -/
def statWord (index : ℕ) (stat : Option Bytes) : Option (List Char) := do
  let stat ← readToString stat
  let afterName ← rsplitOnce ')' stat.toList
  (splitWhitespace (trimStart afterName.2))[index]?

/-- The `stat` files of the processes. -/
abbrev StatFiles := UInt32 → Option Bytes

def processIdentityPlatform (stat : StatFiles) (processId : UInt32) : Option UInt64 :=
  ((statWord 19 (stat processId)).bind (parseUnsigned 64)).map UInt64.ofNat

def processIdentity (stat : StatFiles) (processId : UInt32) : Option UInt64 :=
  if processId ≠ 0 then processIdentityPlatform stat processId else none

def parentProcess (stat : StatFiles) (processId : UInt32) : Option UInt32 :=
  ((statWord 1 (stat processId)).bind (parseUnsigned 32)).map UInt32.ofNat

/-- `parent_is_agent`, for the process id of the Agent. -/
def parentIsAgent (stat : StatFiles) (processId agent : UInt32) : Option Bool :=
  (parentProcess stat processId).map (· == agent)

/-- `process_identity_stable`: compared with the identity that is expected, or else whatever the
process descriptor shows. -/
def processIdentityStable (stat : StatFiles) (processId : UInt32) (expectedIdentity : Option UInt64)
    (alive : Option Bool) : Option Bool :=
  if processId = 0 then none
  else (expectedIdentity.map fun expected =>
    decide (processIdentity stat processId = some expected)).or alive

/-! ## The file -/

/-- A `stat` file: the process id, the name in parentheses, and the fields behind it. -/
structure StatText where
  pid : Bytes
  name : Bytes
  fields : Bytes
  pid_digits : ∀ b ∈ pid, 48 ≤ b.toNat ∧ b.toNat ≤ 57
  fields_ascii : Utf8.Ascii fields
  fields_open : (41 : UInt8) ∉ fields

namespace StatText

def bytes (text : StatText) : Bytes :=
  text.pid ++ [32, 40] ++ text.name ++ ([41, 32] ++ text.fields)

/-- A field by its number; the process id is the first field and the name the second one. -/
def field (text : StatText) (number : ℕ) : Option (List Char) :=
  (splitWhitespace (Utf8.chars text.fields))[number - 3]?

def startTime (text : StatText) : Option UInt64 :=
  ((text.field 22).bind (parseUnsigned 64)).map UInt64.ofNat

def parent (text : StatText) : Option UInt32 :=
  ((text.field 4).bind (parseUnsigned 32)).map UInt32.ofNat

/-- The name is a text. -/
def NameIsUtf8 (text : StatText) : Prop := (Field.fromUtf8 text.name).isSome

end StatText

theorem rsplitOnce_append {separator : Char} {back : List Char} (h : separator ∉ back)
    (front : List Char) :
    rsplitOnce separator (front ++ separator :: back) = some (front, back) := by
  induction front with
  | nil =>
    have hnone : ∀ chars : List Char, separator ∉ chars → rsplitOnce separator chars = none := by
      intro chars
      induction chars with
      | nil => exact fun _ => rfl
      | cons c chars ih =>
        intro hmem
        obtain ⟨hne, hrest⟩ := not_or.mp (mt List.mem_cons.mpr hmem)
        rw [rsplitOnce, ih hrest]
        exact if_neg (Ne.symm hne)
    rw [List.nil_append, rsplitOnce, hnone back h]
    exact if_pos rfl
  | cons c front ih => rw [List.cons_append, rsplitOnce, ih]

/-- Whatever is in the name, the words behind it are the fields; but only if the name is a text. -/
theorem statWord_eq (text : StatText) (index : ℕ) : statWord index (some text.bytes) =
    (Field.fromUtf8 text.name).bind fun _ => text.field (index + 3) := by
  have hfront : Utf8.Ascii (text.pid ++ [32, 40]) := by
    intro b hb
    rcases List.mem_append.mp hb with hb | hb
    · have hdigit := text.pid_digits b hb
      omega
    · exact (show Utf8.Ascii [32, 40] by simp [Utf8.Ascii]) b hb
  have hback : Utf8.Ascii ([41, 32] ++ text.fields) := by
    intro b hb
    rcases List.mem_append.mp hb with hb | hb
    · exact (show Utf8.Ascii [41, 32] by simp [Utf8.Ascii]) b hb
    · exact text.fields_ascii b hb
  have hopen : ')' ∉ ' ' :: Utf8.chars text.fields := by
    rw [List.mem_cons, not_or]
    exact ⟨by decide, Utf8.not_mem_chars text.fields_ascii (b := 41) (by decide) text.fields_open⟩
  have hread : readToString (some text.bytes) = (Field.fromUtf8 text.name).map fun name =>
      String.ofList (Utf8.chars (text.pid ++ [32, 40]) ++ name.toList ++
        ')' :: ' ' :: Utf8.chars text.fields) := Utf8.fromUtf8_append hfront hback
  unfold statWord
  rw [hread]
  cases Field.fromUtf8 text.name with
  | none => rfl
  | some name =>
    simp only [Option.map_some, Option.bind_eq_bind, Option.bind_some, String.toList_ofList,
      rsplitOnce_append hopen]
    unfold trimStart StatText.field
    rw [splitWhitespace_eq, splitWhitespace_eq, Words.words_dropWhile, Words.words_cons (by decide),
      Nat.add_sub_cancel]

/-! ## The readers -/

section
variable {stat : StatFiles} {processId : UInt32} {text : StatText}

/-- The readers give the fields of the file and nothing else. -/
structure ReadRight (stat : StatFiles) (processId : UInt32) (text : StatText) : Prop where
  identity : processIdentity stat processId = text.startTime
  parent : parentProcess stat processId = text.parent

theorem readRight_of_utf8 (hstat : stat processId = some text.bytes) (hne : processId ≠ 0)
    (hname : text.NameIsUtf8) : ReadRight stat processId text := by
  obtain ⟨name, hname⟩ := Option.isSome_iff_exists.mp hname
  constructor
  · rw [processIdentity, if_pos hne, processIdentityPlatform, hstat, statWord_eq, hname]
    rfl
  · rw [parentProcess, hstat, statWord_eq, hname]
    rfl

theorem readers_of_not_utf8 (hstat : stat processId = some text.bytes) (hne : processId ≠ 0)
    (hname : ¬ text.NameIsUtf8) :
    processIdentity stat processId = none ∧ parentProcess stat processId = none := by
  have hnone := Option.not_isSome_iff_eq_none.mp hname
  rw [processIdentity, if_pos hne, processIdentityPlatform, parentProcess, hstat, statWord_eq,
    statWord_eq, hnone]
  exact ⟨rfl, rfl⟩

/-- No name leads the readers astray but one that is no text, and such a name hides the fields. -/
theorem readRight_iff (hstat : stat processId = some text.bytes) (hne : processId ≠ 0) :
    ReadRight stat processId text ↔
      text.NameIsUtf8 ∨ text.startTime = none ∧ text.parent = none := by
  by_cases hname : text.NameIsUtf8
  · exact iff_of_true (readRight_of_utf8 hstat hne hname) (.inl hname)
  · obtain ⟨hidentity, hparent⟩ := readers_of_not_utf8 hstat hne hname
    constructor
    · intro h
      exact .inr ⟨h.identity.symm.trans hidentity, h.parent.symm.trans hparent⟩
    · rintro (hutf8 | ⟨htime, hnone⟩)
      · exact absurd hutf8 hname
      · exact ⟨hidentity.trans htime.symm, hparent.trans hnone.symm⟩

theorem stable_of_utf8 (hstat : stat processId = some text.bytes) (hne : processId ≠ 0)
    (hname : text.NameIsUtf8) (hsome : text.startTime.isSome) (alive : Option Bool) :
    processIdentityStable stat processId text.startTime alive = some true := by
  obtain ⟨time, htime⟩ := Option.isSome_iff_exists.mp hsome
  rw [processIdentityStable, if_neg hne, (readRight_of_utf8 hstat hne hname).identity, htime]
  simp

theorem parentIsAgent_of_utf8 (hstat : stat processId = some text.bytes) (hne : processId ≠ 0)
    (hname : text.NameIsUtf8) (agent : UInt32) :
    parentIsAgent stat processId agent = text.parent.map (· == agent) := by
  rw [parentIsAgent, (readRight_of_utf8 hstat hne hname).parent]

end

theorem StatText.eq_of_fields {text text' : StatText} (h : text'.fields = text.fields) :
    text'.startTime = text.startTime ∧ text'.parent = text.parent := by
  unfold StatText.startTime StatText.parent StatText.field
  rw [h]
  exact ⟨rfl, rfl⟩

/-- A process that shows one name, and then another name with the same fields, is read right and
has the same identity and the same parent. -/
structure Unspoofed (stat stat' : StatFiles) (processId : UInt32) (text : StatText) : Prop where
  readRight : ReadRight stat processId text
  sameIdentity : processIdentity stat' processId = processIdentity stat processId
  sameParent : parentProcess stat' processId = parentProcess stat processId

theorem unspoofed_iff {stat stat' : StatFiles} {processId : UInt32} {text text' : StatText}
    (hstat : stat processId = some text.bytes) (hstat' : stat' processId = some text'.bytes)
    (hfields : text'.fields = text.fields) (hne : processId ≠ 0) :
    Unspoofed stat stat' processId text ↔
      text.NameIsUtf8 ∧ text'.NameIsUtf8 ∨ text.startTime = none ∧ text.parent = none := by
  obtain ⟨htime, hparent⟩ := StatText.eq_of_fields hfields
  -- The second file is read right just when it is read like the first one.
  have hboth : Unspoofed stat stat' processId text ↔
      ReadRight stat processId text ∧ ReadRight stat' processId text' := by
    constructor
    · intro h
      have hright := h.readRight
      refine ⟨hright, h.sameIdentity.trans ?_, h.sameParent.trans ?_⟩
      · rw [hright.identity, htime]
      · rw [hright.parent, hparent]
    · rintro ⟨hright, hright'⟩
      refine ⟨hright, ?_, ?_⟩
      · rw [hright.identity, hright'.identity, htime]
      · rw [hright.parent, hright'.parent, hparent]
  rw [hboth, readRight_iff hstat hne, readRight_iff hstat' hne, htime, hparent, ← and_or_right]

namespace SampleProcess

/-- The fields of a child of process 7 that was started at time 12345. -/
def fields : Bytes := Field.utf8 "S 7 9 9 0 -1 4194560 1 0 0 0 0 0 0 0 20 0 1 0 12345 0"

def statOf (name : Bytes) : StatText where
  pid := [57]
  name := name
  fields := fields
  pid_digits := by simp
  fields_ascii := by decide +kernel
  fields_open := by decide +kernel

end SampleProcess

open SampleProcess in
/-- A name that closes its parenthesis and goes on like fields changes nothing. -/
theorem unspoofed_sample : Unspoofed (fun _ => some (statOf (Field.utf8 "game")).bytes)
    (fun _ => some (statOf (Field.utf8 "game) S 1 (x")).bytes) 9 (statOf (Field.utf8 "game")) := by
  have hfields : (statOf (Field.utf8 "game) S 1 (x")).fields = (statOf (Field.utf8 "game")).fields := rfl
  apply (unspoofed_iff rfl rfl hfields (by decide)).mpr
  apply Or.inl
  unfold StatText.NameIsUtf8 statOf
  rw [Field.fromUtf8_utf8, Field.fromUtf8_utf8]
  exact ⟨rfl, rfl⟩

open SampleProcess in
/-- The name is a single byte that begins no character. -/
theorem not_unspoofed : ¬ ∀ (stat stat' : StatFiles) (processId : UInt32) (text text' : StatText),
    stat processId = some text.bytes → stat' processId = some text'.bytes →
      text'.fields = text.fields → processId ≠ 0 → Unspoofed stat stat' processId text := by
  intro h
  have hright := (h (fun _ => some (statOf [255]).bytes) (fun _ => some (statOf [255]).bytes) 9
    (statOf [255]) (statOf [255]) rfl rfl rfl (by decide)).readRight.identity
  have htime : (statOf [255]).startTime = some 12345 := by decide +kernel
  have hnone : processIdentity (fun _ => some (statOf [255]).bytes) 9 = none := by decide +kernel
  rw [hnone, htime] at hright
  cases hright

end CertaelAgent.Platform
