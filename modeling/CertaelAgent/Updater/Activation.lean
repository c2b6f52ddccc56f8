import CertaelAgent.Foundation.FilePrograms
import CertaelAgent.Foundation.JsonText
import CertaelAgent.Foundation.Schema
import CertaelAgent.Foundation.Results
import CertaelAgent.Protocol.Validation

/-!
# The activation state

`activation.json` names up to three slots, each an installed version with the path and the digest
of its executable. A slot is only accepted with a path below the directory of its version, and the
names that make up such a path are safe on every platform.
-/

namespace CertaelAgent.Updater

open ProtoWire Protocol

inductive UpdateError
  | invalidConfiguration
  | trustedRoot
  | verification
  | targetMissing
  | installation
  | invalidActivationState
  | noPendingUpdate
  | noRollback
deriving DecidableEq, Repr

def UpdateError.message : UpdateError → String
  | .invalidConfiguration => "update configuration is invalid"
  | .trustedRoot => "trusted root cannot be read"
  | .verification => "TUF metadata or target verification failed"
  | .targetMissing => "update target is not present"
  | .installation => "update installation failed"
  | .invalidActivationState => "update activation state is invalid"
  | .noPendingUpdate => "no valid update is pending"
  | .noRollback => "no valid previous update is available"

structure ActivationSlot where
  version : String
  relativePath : String
  sha256 : String
deriving DecidableEq, Repr

structure ActivationState where
  formatVersion : UInt32
  active : Option ActivationSlot
  previous : Option ActivationSlot
  pending : Option ActivationSlot
deriving DecidableEq, Repr

namespace ActivationState

def default : ActivationState := ⟨1, none, none, none⟩

/-- The slots that are present. -/
def slots (state : ActivationState) : List ActivationSlot :=
  [state.active, state.previous, state.pending].filterMap id

theorem mem_slots {state : ActivationState} {slot : ActivationSlot} :
    slot ∈ state.slots ↔
      state.active = some slot ∨ state.previous = some slot ∨ state.pending = some slot := by
  simp [slots, eq_comm]

@[simp] theorem slots_default : default.slots = [] := rfl

end ActivationState

/-! ## Names and paths -/

/-- Device names that Windows reserves, also with an extension. -/
def windowsReservedComponent (value : String) : Bool :=
  let stem := (value.toList.takeWhile (· ≠ '.')).map Char.toUpper
  ["CON", "PRN", "AUX", "NUL"].contains (String.ofList stem) ||
    match stem with
    | [a, b, c, digit] =>
      (String.ofList [a, b, c] == "COM" || String.ofList [a, b, c] == "LPT") &&
        '1' ≤ digit && digit ≤ '9'
    | _ => false

/-- Characters of a component are letters and digits of ASCII, dots, underscores and hyphens. -/
def componentChar (c : Char) : Bool :=
  ('0' ≤ c && c ≤ '9') || ('A' ≤ c && c ≤ 'Z') || ('a' ≤ c && c ≤ 'z') ||
    c == '.' || c == '_' || c == '-'

def safeComponent (value : String) : Bool :=
  value != "" && len value ≤ 128 && value != "." && value != ".." &&
    !windowsReservedComponent value && value.toList.all componentChar

def validDigest (value : String) : Bool :=
  len value == 64 && value.toList.all Hex.isDigit

/-- The names of a path as they are written, between the slashes. -/
def pathNames (path : String) : Files.Path := (path.toList.splitOn '/').map String.ofList

/-- `Path::is_absolute`. -/
def isAbsolute (path : String) : Bool := path.toList.head? == some '/'

inductive Component
  | rootDir
  | curDir
  | parentDir
  | normal (name : String)
deriving DecidableEq, Repr

/-- What a name contributes behind the beginning of a path. -/
def innerComponent (name : String) : Option Component :=
  if name = "" ∨ name = "." then none
  else if name = ".." then some .parentDir
  else some (.normal name)

/-- `Path::components`; a dot only counts at the beginning. -/
def components (path : String) : List Component :=
  if isAbsolute path then .rootDir :: (pathNames path).filterMap innerComponent
  else match pathNames path with
    | "." :: names => .curDir :: names.filterMap innerComponent
    | names => names.filterMap innerComponent

def Component.isNormal : Component → Bool
  | .normal _ => true
  | _ => false

/-- `Path::join`. -/
def join (root : Files.Path) (path : String) : Files.Path :=
  if isAbsolute path then pathNames path else root ++ pathNames path

/-- The path of a slot, `versions/{version}/{name}`. -/
def slotPath (version name : String) : String := "versions/" ++ version ++ "/" ++ name

theorem safeComponent_ordinary {value : String} (h : safeComponent value) :
    Files.Ordinary value := by
  simp only [safeComponent, Bool.and_eq_true, bne_iff_ne] at h
  exact ⟨h.1.1.1.1.1, h.1.1.1.2, h.1.1.2⟩

theorem slash_notMem_of_safeComponent {value : String} (h : safeComponent value) :
    '/' ∉ value.toList := by
  intro hmem
  simp only [safeComponent, Bool.and_eq_true, List.all_eq_true] at h
  exact absurd (h.2 '/' hmem) (by decide)

theorem pathNames_injective {a b : String} (h : pathNames a = pathNames b) : a = b := by
  have hsplit : a.toList.splitOn '/' = b.toList.splitOn '/' :=
    List.map_injective_iff.mpr (fun x y hxy => by simpa using congrArg String.toList hxy) h
  have hlist : a.toList = b.toList := by
    calc a.toList = List.intercalate ['/'] (a.toList.splitOn '/') :=
          (List.intercalate_splitOn '/').symm
      _ = List.intercalate ['/'] (b.toList.splitOn '/') := by rw [hsplit]
      _ = b.toList := List.intercalate_splitOn '/'
  simpa using congrArg String.ofList hlist

theorem pathNames_slotPath {version name : String} (hversion : safeComponent version)
    (hname : safeComponent name) : pathNames (slotPath version name) = ["versions", version, name] := by
  have hlist : (slotPath version name).toList =
      List.intercalate ['/'] ["versions".toList, version.toList, name.toList] := by
    simp [slotPath, List.intercalate]
  unfold pathNames
  rw [hlist, List.splitOn_intercalate]
  · simp
  · intro l hl
    simp only [List.mem_cons, List.not_mem_nil, or_false] at hl
    rcases hl with rfl | rfl | rfl
    · decide
    · exact slash_notMem_of_safeComponent hversion
    · exact slash_notMem_of_safeComponent hname
  · simp

theorem not_isAbsolute_slotPath (version name : String) : isAbsolute (slotPath version name) = false := by
  simp [isAbsolute, slotPath]

theorem join_slotPath {version name : String} (hversion : safeComponent version)
    (hname : safeComponent name) (root : Files.Path) :
    join root (slotPath version name) = root ++ ["versions", version, name] := by
  unfold join
  rw [not_isAbsolute_slotPath, pathNames_slotPath hversion hname]
  rfl

/-! ## Validation -/

def validateSlot (slot : ActivationSlot) : Except UpdateError Unit :=
  if !safeComponent slot.version || !validDigest slot.sha256 || isAbsolute slot.relativePath ||
      (components slot.relativePath).any (fun part => !part.isNormal) ||
      !("versions/" ++ slot.version ++ "/").toList.isPrefixOf slot.relativePath.toList then
    .error .invalidActivationState
  else .ok ()

/-- Checks the slots one after the other. -/
def validateSlots : List ActivationSlot → Except UpdateError Unit
  | [] => .ok ()
  | slot :: slots => do
    validateSlot slot
    validateSlots slots

def validateState (state : ActivationState) : Except UpdateError Unit :=
  if state.formatVersion ≠ 1 then .error .invalidActivationState
  else validateSlots state.slots

theorem validateSlots_eq_ok_iff {slots : List ActivationSlot} :
    validateSlots slots = .ok () ↔ ∀ slot ∈ slots, validateSlot slot = .ok () := by
  induction slots with
  | nil => simp [validateSlots]
  | cons slot slots ih =>
    unfold validateSlots
    rw [Except.bind_eq_ok_iff, List.forall_mem_cons]
    constructor
    · rintro ⟨⟨⟩, hslot, hslots⟩
      exact ⟨hslot, ih.mp hslots⟩
    · rintro ⟨hslot, hslots⟩
      exact ⟨(), hslot, ih.mpr hslots⟩

theorem validateState_eq_ok_iff {state : ActivationState} : validateState state = .ok () ↔
    state.formatVersion = 1 ∧ ∀ slot ∈ state.slots, validateSlot slot = .ok () := by
  unfold validateState
  split_ifs with hformat
  · simp [hformat]
  · rw [validateSlots_eq_ok_iff]
    simp [not_not.mp hformat]

theorem not_isAbsolute_of_validateSlot {slot : ActivationSlot} (h : validateSlot slot = .ok ()) :
    isAbsolute slot.relativePath = false := by
  unfold validateSlot at h
  split_ifs at h with hcheck
  simp only [Bool.or_eq_true, not_or] at hcheck
  simpa using hcheck.1.1.2

theorem join_of_validateSlot {slot : ActivationSlot} (h : validateSlot slot = .ok ())
    (root : Files.Path) : join root slot.relativePath = root ++ pathNames slot.relativePath := by
  unfold join
  rw [not_isAbsolute_of_validateSlot h]
  rfl

/-! ## The file -/

def slotText (slot : ActivationSlot) : List Char :=
  "\x7b\"version\":".toList ++ JsonText.literal slot.version ++
    (",\"relative_path\":".toList ++ JsonText.literal slot.relativePath ++
      (",\"sha256\":".toList ++ JsonText.literal slot.sha256 ++ "\x7d".toList))

def optionText : Option ActivationSlot → List Char
  | none => "null".toList
  | some slot => slotText slot

/-- `serde_json::to_vec`: the fields in the order of their declaration, without blanks. -/
def toVec (state : ActivationState) : Bytes :=
  Field.utf8 (String.ofList ("\x7b\"format_version\":".toList ++
    (toString state.formatVersion.toNat).toList ++
    (",\"active\":".toList ++ optionText state.active ++
      (",\"previous\":".toList ++ optionText state.previous ++
        (",\"pending\":".toList ++ optionText state.pending ++ "\x7d".toList)))))

/-- `serde_json::from_slice`. Of the reader only this is used: it takes back what the writer makes
of a valid state. -/
class SerdeJson where
  fromSlice : Bytes → Option ActivationState
  fromSlice_toVec : ∀ state, validateState state = .ok () → fromSlice (toVec state) = some state

/-! ## A strict reader -/

open JsonText in
def readSlot (chars : List Char) : Option (ActivationSlot × List Char) := do
  let chars ← expectText "\x7b\"version\":".toList chars
  let (version, chars) ← readLiteral chars
  let chars ← expectText ",\"relative_path\":".toList chars
  let (relativePath, chars) ← readLiteral chars
  let chars ← expectText ",\"sha256\":".toList chars
  let (sha256, chars) ← readLiteral chars
  let chars ← expectText "\x7d".toList chars
  return (⟨version, relativePath, sha256⟩, chars)

open JsonText in
def readOption (chars : List Char) : Option (Option ActivationSlot × List Char) :=
  match expectText "null".toList chars with
  | some rest => some (none, rest)
  | none => (readSlot chars).map fun r => (some r.1, r.2)

open JsonText in
def readState (chars : List Char) : Option ActivationState := do
  let chars ← expectText "\x7b\"format_version\":".toList chars
  let chars ← expectText "1".toList chars
  let chars ← expectText ",\"active\":".toList chars
  let (active, chars) ← readOption chars
  let chars ← expectText ",\"previous\":".toList chars
  let (previous, chars) ← readOption chars
  let chars ← expectText ",\"pending\":".toList chars
  let (pending, chars) ← readOption chars
  let _ ← expectText "\x7d".toList chars
  return ⟨1, active, previous, pending⟩

open JsonText in
theorem readSlot_slotText (slot : ActivationSlot) (rest : List Char) :
    readSlot (slotText slot ++ rest) = some (slot, rest) := by
  unfold readSlot slotText
  simp only [List.append_assoc]
  rw [expectText_bind, readLiteral_bind]
  dsimp only
  rw [expectText_bind, readLiteral_bind]
  dsimp only
  rw [expectText_bind, readLiteral_bind]
  dsimp only
  rw [expectText_bind]
  rfl

open JsonText in
theorem readOption_optionText (slot : Option ActivationSlot) (rest : List Char) :
    readOption (optionText slot ++ rest) = some (slot, rest) := by
  cases slot with
  | none =>
    unfold readOption optionText
    rw [expectText_append]
  | some slot =>
    have hnull : ¬ "null".toList <+: slotText slot ++ rest := by
      unfold slotText
      rintro ⟨x, hx⟩
      have hhead := congrArg List.head? hx
      simp at hhead
    unfold readOption optionText
    rw [show expectText "null".toList (slotText slot ++ rest) = none from if_neg hnull,
      readSlot_slotText]
    rfl

theorem readOption_bind {β : Type} (slot : Option ActivationSlot) (rest : List Char)
    (f : Option ActivationSlot × List Char → Option β) :
    (readOption (optionText slot ++ rest) >>= f) = f (slot, rest) := by
  rw [readOption_optionText]
  rfl

/-- The reader of exactly those texts that are written for valid states. -/
@[reducible] def strictJson : SerdeJson where
  fromSlice bytes := (Field.fromUtf8 bytes).bind fun text => readState text.toList
  fromSlice_toVec state hvalid := by
    have hformat : state.formatVersion = 1 := (validateState_eq_ok_iff.mp hvalid).1
    have hone : (toString state.formatVersion.toNat).toList = "1".toList := by
      rw [hformat]
      decide
    have hstate : (⟨1, state.active, state.previous, state.pending⟩ : ActivationState) = state := by
      rw [← hformat]
    rw [toVec, Field.fromUtf8_utf8, Option.bind_some, String.toList_ofList, hone]
    unfold readState
    simp only [List.append_assoc]
    rw [JsonText.expectText_bind, JsonText.expectText_bind, JsonText.expectText_bind,
      readOption_bind]
    dsimp only
    rw [JsonText.expectText_bind, readOption_bind]
    dsimp only
    rw [JsonText.expectText_bind, readOption_bind]
    exact congrArg some hstate

end CertaelAgent.Updater
