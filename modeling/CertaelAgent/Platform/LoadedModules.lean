import CertaelAgent.Foundation.Hex
import CertaelAgent.Foundation.Utf16
import CertaelAgent.Foundation.Words
import CertaelAgent.Protocol.Registration

/-!
# Collecting loaded modules

The names of the modules that a process has loaded, as each platform hands them out. Linux and
macOS drop names over 255 bytes. Windows fills a buffer of 256 units with a name and drops what
fills it up, which leaves names of up to 255 units, with up to three bytes each.
-/

namespace CertaelAgent.Platform

open ProtoWire Protocol

/-- What a `BTreeSet` of names yields. -/
def distinctNames (names : List String) : List String :=
  names.dedup.mergeSort fun a b => decide (a ≤ b)

theorem mem_distinctNames {name : String} {names : List String} :
    name ∈ distinctNames names ↔ name ∈ names := by
  rw [distinctNames, (List.mergeSort_perm _ _).mem_iff, List.mem_dedup]

/-- `str::lines`, up to a carriage return at the end of a line. -/
def lines (text : String) : List (List Char) := text.toList.splitOnP (· == '\n')

def splitWhitespace (line : List Char) : List (List Char) :=
  (line.splitOnP isWhitespace).filter fun word => !word.isEmpty

/-- `Path::file_name` where slashes are the only separators. -/
def fileName (value : List Char) : Option String :=
  match ((value.splitOnP (· == '/')).filter fun part => part != [] && part != ['.']).getLast? with
  | some part => if part = ['.', '.'] then none else some (String.ofList part)
  | none => none

/-- A name that is kept on Linux and on macOS. -/
def shortName (name : String) : Bool := name != "" && len name ≤ 255

def moduleBasenamesFromMaps (maps : String) : List String :=
  (distinctNames <| (((lines maps).filterMap fun line => (splitWhitespace line).getLast?).filter
    fun value => value.head? == some '/').filterMap fun value =>
      (fileName value).filter shortName).take 1024

/-- The images of the own process on macOS; an image without a readable path is none. -/
def macosLoadedModuleBasenames (images : List (Option String)) : List String :=
  distinctNames <| (images.take 1024).filterMap fun image =>
    (image.bind fun path => fileName path.toList).filter shortName

/-- The modules of a process on Windows, by the units that their names take in the buffer. -/
def windowsProcessModules (names : List (List UInt16)) : List String :=
  distinctNames <| ((names.take 1024).filter fun name => 0 < name.length && name.length < 256).map
    Utf16.decodeLossy

/-- What a platform lets the collectors see: of the Agent's own modules, of the game's modules, and
on Linux of the build id of the executable. -/
inductive Collected
  | linux (selfMaps gameMaps : String) (buildId : Option Bytes)
  | macos (images : List (Option String))
  | windows (agentModules gameModules : List (List UInt16))
deriving DecidableEq, Repr

namespace Collected

/-- `std::env::consts::OS`. -/
def platform : Collected → String
  | .linux .. => "linux"
  | .macos .. => "macos"
  | .windows .. => "windows"

/-- The modules of the Agent. -/
def agentModules : Collected → List String
  | .linux selfMaps _ _ => moduleBasenamesFromMaps selfMaps
  | .macos images => macosLoadedModuleBasenames images
  | .windows agentModules _ => windowsProcessModules agentModules

/-- The modules of the game; macOS has no collector for another process. -/
def gameModules : Collected → List String
  | .linux _ gameMaps _ => moduleBasenamesFromMaps gameMaps
  | .macos _ => []
  | .windows _ gameModules => windowsProcessModules gameModules

/-- The build id of an ELF executable; an empty one does not count. -/
def executableBuildId : Collected → Option String
  | .linux _ _ buildId => (buildId.filter (· != [])).map Hex.encode
  | _ => none

/-- A platform whose collectors drop names over 255 bytes. -/
def CapsBytes : Collected → Prop
  | .windows .. => False
  | _ => True

instance (collected : Collected) : Decidable collected.CapsBytes :=
  match collected with
  | .windows .. => isFalse id
  | .linux .. => isTrue trivial
  | .macos .. => isTrue trivial

end Collected

theorem Collected.len_platform_le (collected : Collected) : len collected.platform ≤ 7 := by
  have hlinux : len "linux" ≤ 7 := by decide
  have hmacos : len "macos" ≤ 7 := by decide
  have hwindows : len "windows" ≤ 7 := by decide
  cases collected with
  | linux => exact hlinux
  | macos => exact hmacos
  | windows => exact hwindows

theorem splitWhitespace_eq (line : List Char) :
    splitWhitespace line = Words.words isWhitespace line := rfl

theorem distinctNames_perm {names : List String} (h : names.Nodup) :
    (distinctNames names).Perm names := by
  rw [distinctNames, h.dedup]
  exact List.mergeSort_perm _ _

theorem distinctNames_eq_self {names : List String} (hsorted : names.Pairwise (· ≤ ·))
    (hnodup : names.Nodup) : distinctNames names = names := by
  rw [distinctNames, hnodup.dedup]
  exact List.mergeSort_of_pairwise (hsorted.imp decide_eq_true)

theorem len_le_of_shortName {name : String} (h : shortName name) : len name ≤ 255 := by
  simp only [shortName, Bool.and_eq_true, decide_eq_true_eq] at h
  exact h.2

theorem len_le_of_mem_maps {maps name : String} (h : name ∈ moduleBasenamesFromMaps maps) :
    len name ≤ 255 := by
  have hmem := mem_distinctNames.mp (List.mem_of_mem_take h)
  obtain ⟨value, -, hvalue⟩ := List.mem_filterMap.mp hmem
  exact len_le_of_shortName (Option.filter_eq_some_iff.mp hvalue).2

theorem len_le_of_mem_images {images : List (Option String)} {name : String}
    (h : name ∈ macosLoadedModuleBasenames images) : len name ≤ 255 := by
  obtain ⟨image, -, himage⟩ := List.mem_filterMap.mp (mem_distinctNames.mp h)
  exact len_le_of_shortName (Option.filter_eq_some_iff.mp himage).2

theorem Collected.len_le {collected : Collected} (h : collected.CapsBytes) :
    (∀ name ∈ collected.agentModules, len name ≤ 255) ∧
      ∀ name ∈ collected.gameModules, len name ≤ 255 := by
  cases collected with
  | linux selfMaps gameMaps buildId =>
    exact ⟨fun _ => len_le_of_mem_maps, fun _ => len_le_of_mem_maps⟩
  | macos images =>
    refine ⟨fun _ => len_le_of_mem_images, ?_⟩
    intro name hname
    exact absurd hname (List.not_mem_nil)
  | windows agentModules gameModules => exact h.elim

end CertaelAgent.Platform
