import CertaelAgent.Foundation.Anyhow
import CertaelAgent.Foundation.FileDevice
import CertaelAgent.Foundation.Hex
import CertaelAgent.Protocol.Crates
import CertaelAgent.Protocol.Validation

/-!
# Protected build manifests

A manifest lists files below a root with the size and the digest they should have. What names a
path consists of, and which names are one name, is up to the platform: some take backslashes for
separators, and some do not tell the cases of a letter apart. A file system whose names differ
only as far as the platform tells them apart stands for the tree; paths are folded on their way in.
-/

namespace CertaelAgent.Platform

open ProtoWire Protocol Files Anyhow

/-- How a platform reads paths. -/
structure PathRules where
  backslash : Bool
  fold : String → String
  fold_ordinary : ∀ name, Ordinary name → Ordinary (fold name)

namespace PathRules

variable (rules : PathRules)

def isSeparator (c : Char) : Bool := c == '/' || (rules.backslash && c == '\\')

/-- The names of a path as they are written, between the separators. -/
def pieces (value : String) : List String :=
  (value.toList.splitOnP rules.isSeparator).map String.ofList

/-- The names of a path as the platform compares them. -/
def names (value : String) : Path :=
  (rules.pieces value).map fun name => if Ordinary name then rules.fold name else name

/-- A path that begins with a separator. -/
def hasRoot (value : String) : Bool := value.toList.head?.any rules.isSeparator

/-- A drive in front of the path, where backslashes are separators. -/
def hasDrive (value : String) : Bool :=
  rules.backslash && match value.toList with
    | letter :: ':' :: _ => letter.isAlpha
    | _ => false

/-- `Path::is_absolute`. -/
def isAbsolute (value : String) : Bool :=
  if rules.backslash then rules.hasDrive value && rules.hasRoot (String.ofList (value.toList.drop 2))
  else rules.hasRoot value

inductive Component
  | drive
  | rootDir
  | curDir
  | parentDir
  | normal (name : String)
deriving DecidableEq, Repr

/-- A component that leads neither up nor to another root. -/
def Component.isPlain : Component → Bool
  | .normal _ => true
  | .curDir => true
  | _ => false

/-- `Path::components`; a dot only counts at the beginning. -/
def components (value : String) : List Component :=
  (if rules.hasDrive value then [.drive] else []) ++
    (if rules.hasRoot value then [.rootDir] else []) ++
    (if (rules.pieces value).head? = some "." then [.curDir] else []) ++
    (rules.pieces value).filterMap fun name =>
      if name = "" ∨ name = "." then none
      else if name = ".." then some .parentDir
      else some (.normal name)

def safeRelativePath (value : String) : Bool :=
  value != "" && len value ≤ 512 && !rules.isAbsolute value &&
    (rules.components value).all Component.isPlain

end PathRules

structure ProtectedBuildFile where
  path : String
  size : UInt64
  sha256 : String
deriving DecidableEq, Repr

structure ProtectedBuildManifest where
  buildId : String
  files : List ProtectedBuildFile
deriving DecidableEq, Repr

structure ManifestMismatch where
  path : String
  reason : String
deriving DecidableEq, Repr

/-- `eq_ignore_ascii_case`. -/
def eqIgnoreAsciiCase (a b : String) : Bool := toAsciiLowercase a == toAsciiLowercase b

variable [Crates]

def hashFile (fs : FileSystem) (path : Path) : Result String := do
  let content ← context "cannot open protected file" (io (fs.contentAt path))
  return Hex.encode (Crates.sha256 content).1

/-- The mismatch of one file, if there is one. -/
def verifyFile (fs : FileSystem) (canonicalRoot candidate : Path) (expected : ProtectedBuildFile) :
    Result (Option ManifestMismatch) :=
  match fs.metadataAt candidate with
  | none => .ok (some ⟨expected.path, "MISSING"⟩)
  | some metadata =>
    if metadata.fileType ≠ .file then .ok (some ⟨expected.path, "UNSAFE_TYPE"⟩)
    else do
      let canonical ← context "cannot resolve protected file" (io (fs.canonicalize candidate))
      if ¬ canonicalRoot <+: canonical then .ok (some ⟨expected.path, "PATH_ESCAPE"⟩)
      else if metadata.len ≠ expected.size.toNat then .ok (some ⟨expected.path, "SIZE_MISMATCH"⟩)
      else do
        let actual ← hashFile fs canonical
        if ¬ eqIgnoreAsciiCase actual expected.sha256 then
          .ok (some ⟨expected.path, "HASH_MISMATCH"⟩)
        else .ok none

/-- An entry that the walk over the files does not refuse; `seen` are the paths before it. -/
def FileEntryOk (rules : PathRules) (seen : List String) (expected : ProtectedBuildFile) : Prop :=
  rules.safeRelativePath expected.path ∧ len expected.sha256 = 64 ∧
    expected.sha256.toList.all Hex.isDigit ∧ expected.path ∉ seen

omit [Crates] in
instance (rules : PathRules) (seen : List String) (expected : ProtectedBuildFile) :
    Decidable (FileEntryOk rules seen expected) :=
  inferInstanceAs (Decidable (_ ∧ _ ∧ _ ∧ _))

def verifyFiles (rules : PathRules) (fs : FileSystem) (canonicalRoot : Path) :
    List String → List ProtectedBuildFile → Result (List ManifestMismatch)
  | _, [] => .ok []
  | seen, expected :: files =>
    if ¬ FileEntryOk rules seen expected then
      bail "build manifest contains an invalid file entry"
    else do
      let mismatch ← verifyFile fs canonicalRoot (canonicalRoot ++ rules.names expected.path) expected
      let mismatches ← verifyFiles rules fs canonicalRoot (expected.path :: seen) files
      return mismatch.toList ++ mismatches

def verifyBuildManifest (rules : PathRules) (fs : FileSystem) (root : Path)
    (manifest : ProtectedBuildManifest) : Result (List ManifestMismatch) := do
  let canonicalRoot ← context "game root does not exist" (io (fs.canonicalize root))
  if ¬ fs.Directory canonicalRoot
      ∨ manifest.buildId = ""
      ∨ 128 < len manifest.buildId
      ∨ manifest.files = []
      ∨ 16384 < manifest.files.length then
    bail "build manifest is invalid"
  else verifyFiles rules fs canonicalRoot [] manifest.files

/-- What the inspection of an executable says about its file. -/
structure IntegritySnapshot where
  executableName : String
  executableSha256 : String
  executableSize : ℕ
deriving DecidableEq, Repr

def inspectExecutable (fs : FileSystem) (path : Path) : Result IntegritySnapshot := do
  let canonical ← context "game executable does not exist" (io (fs.canonicalize path))
  let metadata ← context "cannot inspect game executable" (io (fs.metadataAt canonical))
  if metadata.fileType ≠ .file then bail "game path is not a regular file"
  else do
    let name ← context "game filename is not UTF-8" (io canonical.getLast?)
    let content ← context "cannot open game executable" (io (fs.contentAt canonical))
    return {
      executableName := name
      executableSha256 := Hex.encode (Crates.sha256 content).1
      executableSize := metadata.len }

end CertaelAgent.Platform
