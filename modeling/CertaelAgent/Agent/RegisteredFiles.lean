import CertaelAgent.Platform.SafePaths
import CertaelAgent.Protocol.Registration
import CertaelAgent.Protocol.ShortLived

/-!
# Registered files

A registration lists files of the game. The launcher turns the list, or one entry of it, into a
build manifest whose id is made from the registration id, and has the platform crate verify it.
-/

namespace CertaelAgent.Agent

open ProtoWire Protocol Platform Files Anyhow

/-- A registration as it is loaded: its claims, the game and the root it lies in. -/
structure RegisteredGame where
  claims : GameRegistrationClaimsV1
  game : Path
  gameRoot : Path

def protectedBuildFile (file : RegisteredGameFileV1) : ProtectedBuildFile where
  path := file.relativePath
  size := file.size
  sha256 := Hex.encode file.sha256

/-- The manifest that a protected launch verifies. -/
def registrationManifest (claims : GameRegistrationClaimsV1) : ProtectedBuildManifest where
  buildId := "registration:" ++ claims.registrationId
  files := claims.registeredFiles.map protectedBuildFile

/-- The manifest that a repair or an offline launch verifies, of one file. -/
def fileManifest (claims : GameRegistrationClaimsV1) (file : RegisteredGameFileV1) :
    ProtectedBuildManifest where
  buildId := "registration:" ++ claims.registrationId
  files := [protectedBuildFile file]

/-- The entry whose path is the given one up to the case of ASCII letters. -/
def registeredFile (claims : GameRegistrationClaimsV1) (relativePath : String) :
    Option RegisteredGameFileV1 :=
  claims.registeredFiles.find? fun file => eqIgnoreAsciiCase file.relativePath relativePath

section

variable [Crates]

def verifyRegisteredFile (rules : PathRules) (fs : FileSystem) (registered : RegisteredGame)
    (relativePath : String) : Result Unit :=
  match registeredFile registered.claims relativePath with
  | none => bail "registered recovery executable has no signed file binding"
  | some file => do
    let mismatches ← context "registered recovery executable could not be verified"
      (Platform.verifyBuildManifest rules fs registered.gameRoot (fileManifest registered.claims file))
    if mismatches ≠ [] then bail "registered recovery executable does not match its signed digest"
    else .ok ()

end

/-! ## Well-formed manifests -/

/-- The manifest was refused for what it is, whatever the files are. -/
def CalledInvalid {α : Type} (result : Result α) : Prop :=
  ∃ error, result = .error error ∧
    (error.rootCause = .message "build manifest is invalid" ∨
      error.rootCause = .message "build manifest contains an invalid file entry")

/-- The checks that only look at the manifest. -/
structure WellFormed (rules : PathRules) (manifest : ProtectedBuildManifest) : Prop where
  buildId : manifest.buildId ≠ "" ∧ len manifest.buildId ≤ 128
  count : manifest.files ≠ [] ∧ manifest.files.length ≤ 16384
  paths : ∀ file ∈ manifest.files, rules.safeRelativePath file.path
  digests : ∀ file ∈ manifest.files, len file.sha256 = 64 ∧ file.sha256.toList.all Hex.isDigit
  distinct : (manifest.files.map ProtectedBuildFile.path).Nodup

theorem not_calledInvalid_ok {α : Type} (a : α) : ¬ CalledInvalid (.ok a) := by
  rintro ⟨error, h, -⟩
  cases h

theorem not_calledInvalid_bind {α β : Type} {result : Result α} {f : α → Result β}
    (h : ¬ CalledInvalid result) (hf : ∀ a, result = .ok a → ¬ CalledInvalid (f a)) :
    ¬ CalledInvalid (result >>= f) := by
  cases result with
  | ok a => exact hf a rfl
  | error e =>
    rintro ⟨error, he, hcause⟩
    exact h ⟨error, by rw [← Except.error.inj he], hcause⟩

theorem not_calledInvalid_io {α : Type} (text : String) (lookup : Option α) :
    ¬ CalledInvalid (context text (io lookup)) := by
  cases lookup with
  | some a => exact not_calledInvalid_ok a
  | none =>
    rintro ⟨error, h, hcause⟩
    obtain rfl := Except.error.inj h
    rcases hcause with hcause | hcause <;> cases hcause

section

variable [Crates]

theorem not_calledInvalid_verifyFile (fs : FileSystem) (canonicalRoot candidate : Path)
    (expected : ProtectedBuildFile) :
    ¬ CalledInvalid (verifyFile fs canonicalRoot candidate expected) := by
  have hhash : ∀ canonical, ¬ CalledInvalid (hashFile fs canonical) := by
    intro canonical
    apply not_calledInvalid_bind (not_calledInvalid_io _ _)
    intro content _
    exact not_calledInvalid_ok _
  unfold verifyFile
  cases fs.metadataAt candidate with
  | none => exact not_calledInvalid_ok _
  | some metadata =>
    by_cases hfile : metadata.fileType = .file
    · simp only [hfile, ne_eq, not_true_eq_false, if_false]
      apply not_calledInvalid_bind (not_calledInvalid_io _ _)
      intro canonical _
      split_ifs
      · apply not_calledInvalid_bind (hhash canonical)
        intro actual _
        split_ifs <;> exact not_calledInvalid_ok _
      · exact not_calledInvalid_ok _
      · exact not_calledInvalid_ok _
    · simp only [hfile, ne_eq, not_false_eq_true, if_true]
      exact not_calledInvalid_ok _

theorem not_calledInvalid_verifyFiles {rules : PathRules} (fs : FileSystem) (canonicalRoot : Path)
    {files : List ProtectedBuildFile} {seen : List String}
    (hpaths : ∀ file ∈ files, rules.safeRelativePath file.path)
    (hdigests : ∀ file ∈ files, len file.sha256 = 64 ∧ file.sha256.toList.all Hex.isDigit)
    (hdistinct : (files.map ProtectedBuildFile.path).Nodup)
    (hnew : ∀ file ∈ files, file.path ∉ seen) :
    ¬ CalledInvalid (verifyFiles rules fs canonicalRoot seen files) := by
  induction files generalizing seen with
  | nil => exact not_calledInvalid_ok _
  | cons expected files ih =>
    rw [List.forall_mem_cons] at hpaths hdigests hnew
    rw [List.map_cons, List.nodup_cons] at hdistinct
    have hentry : FileEntryOk rules seen expected :=
      ⟨hpaths.1, hdigests.1.1, hdigests.1.2, hnew.1⟩
    have hrest : ∀ file ∈ files, file.path ∉ expected.path :: seen := by
      intro file hfile hmem
      rcases List.mem_cons.mp hmem with heq | hseen
      · exact hdistinct.1 (List.mem_map.mpr ⟨file, hfile, heq⟩)
      · exact hnew.2 file hfile hseen
    unfold verifyFiles
    rw [if_neg (not_not.mpr hentry)]
    apply not_calledInvalid_bind (not_calledInvalid_verifyFile _ _ _ _)
    intro mismatch _
    apply not_calledInvalid_bind (ih hpaths.2 hdigests.2 hdistinct.2 hrest)
    intro mismatches _
    exact not_calledInvalid_ok _

variable {rules : PathRules} {fs : FileSystem} {root canonicalRoot : Path}
  {manifest : ProtectedBuildManifest}

/-- In a directory, a well-formed manifest is refused for its files only. -/
theorem not_calledInvalid_of_wellFormed (hroot : fs.canonicalize root = some canonicalRoot)
    (hdirectory : fs.Directory canonicalRoot) (h : WellFormed rules manifest) :
    ¬ CalledInvalid (Platform.verifyBuildManifest rules fs root manifest) := by
  unfold Platform.verifyBuildManifest
  rw [hroot]
  apply not_calledInvalid_bind (not_calledInvalid_ok _)
  intro a ha
  obtain rfl := Except.ok.inj ha
  have hshape : ¬ (¬ fs.Directory canonicalRoot ∨ manifest.buildId = "" ∨
      128 < len manifest.buildId ∨ manifest.files = [] ∨ 16384 < manifest.files.length) := by
    have hid := h.buildId
    have hcount := h.count
    simp only [not_or, not_not, not_lt]
    exact ⟨hdirectory, hid.1, hid.2, hcount.1, hcount.2⟩
  rw [if_neg hshape]
  apply not_calledInvalid_verifyFiles fs canonicalRoot h.paths h.digests h.distinct
  intro file _ hmem
  simp at hmem

theorem calledInvalid_of_long (hroot : fs.canonicalize root = some canonicalRoot)
    (hlong : 128 < len manifest.buildId) :
    CalledInvalid (Platform.verifyBuildManifest rules fs root manifest) := by
  refine ⟨.message "build manifest is invalid", ?_, .inl rfl⟩
  unfold Platform.verifyBuildManifest
  rw [hroot]
  exact if_pos (.inr (.inr (.inl hlong)))

end

/-! ## The manifests of a registration -/

theorem len_buildId (registrationId : String) :
    len ("registration:" ++ registrationId) = 13 + len registrationId := by
  unfold len
  rw [String.utf8ByteSize_append]
  rfl

variable {claims : GameRegistrationClaimsV1} {rules : PathRules}

theorem protectedBuildFile_ok (rules : PathRules) {file : RegisteredGameFileV1}
    (h : Protocol.safeRelativePath file.relativePath ∧ file.sha256.length = 32) :
    rules.safeRelativePath (protectedBuildFile file).path ∧
      len (protectedBuildFile file).sha256 = 64 ∧
      (protectedBuildFile file).sha256.toList.all Hex.isDigit := by
  refine ⟨PathRules.safeRelativePath_of_safe h.1, ?_, Hex.all_isDigit_encode _⟩
  unfold protectedBuildFile len
  rw [Hex.utf8ByteSize_encode, h.2]

theorem buildId_ok (h : len claims.registrationId ≤ 115) :
    "registration:" ++ claims.registrationId ≠ "" ∧
      len ("registration:" ++ claims.registrationId) ≤ 128 := by
  have hlen := len_buildId claims.registrationId
  constructor
  · intro hempty
    rw [hempty] at hlen
    have hzero : len "" = 0 := rfl
    omega
  · omega

theorem wellFormed_registrationManifest (haccepted : claims.Accepted)
    (hfiles : claims.registeredFiles ≠ []) (hid : len claims.registrationId ≤ 115) :
    WellFormed rules (registrationManifest claims) where
  buildId := buildId_ok hid
  count := by
    have hcount := haccepted.fileCount
    simp only [registrationManifest, List.map_eq_nil_iff, List.length_map, ne_eq]
    exact ⟨hfiles, by omega⟩
  paths := by
    intro file hfile
    obtain ⟨registered, hregistered, rfl⟩ := List.mem_map.mp hfile
    exact (protectedBuildFile_ok rules (haccepted.files registered hregistered)).1
  digests := by
    intro file hfile
    obtain ⟨registered, hregistered, rfl⟩ := List.mem_map.mp hfile
    exact (protectedBuildFile_ok rules (haccepted.files registered hregistered)).2
  distinct := by
    have hdistinct := haccepted.distinct
    rw [← Function.comp_def, ← List.map_map] at hdistinct
    unfold registrationManifest
    rw [List.map_map]
    exact List.Nodup.of_map pathIdentity hdistinct

theorem wellFormed_fileManifest {file : RegisteredGameFileV1} (haccepted : claims.Accepted)
    (hfile : file ∈ claims.registeredFiles) (hid : len claims.registrationId ≤ 115) :
    WellFormed rules (fileManifest claims file) where
  buildId := buildId_ok hid
  count := by simp [fileManifest]
  paths := by
    intro entry hentry
    rw [List.mem_singleton.mp hentry]
    exact (protectedBuildFile_ok rules (haccepted.files file hfile)).1
  digests := by
    intro entry hentry
    rw [List.mem_singleton.mp hentry]
    exact (protectedBuildFile_ok rules (haccepted.files file hfile)).2
  distinct := List.nodup_singleton _

/-- An accepted registration with files is never called an invalid manifest, neither as a whole
nor for one of its files, exactly if its id leaves room for the text in front of it. -/
theorem not_calledInvalid_iff [Crates] {nowUnix : Int64} {fs : FileSystem}
    {root canonicalRoot : Path} (haccepted : validateGameRegistration claims nowUnix = .ok ())
    (hfiles : claims.registeredFiles ≠ []) (hroot : fs.canonicalize root = some canonicalRoot)
    (hdirectory : fs.Directory canonicalRoot) :
    (¬ CalledInvalid (Platform.verifyBuildManifest rules fs root (registrationManifest claims)) ∧
      ∀ file ∈ claims.registeredFiles,
        ¬ CalledInvalid (Platform.verifyBuildManifest rules fs root (fileManifest claims file))) ↔
      len claims.registrationId ≤ 115 := by
  constructor
  · rintro ⟨hwhole, -⟩
    by_contra hlong
    apply hwhole
    apply calledInvalid_of_long hroot
    have hlen := len_buildId claims.registrationId
    unfold registrationManifest
    dsimp only
    omega
  · intro hid
    have haccepted := accepted_of_validate haccepted
    constructor
    · exact not_calledInvalid_of_wellFormed hroot hdirectory
        (wellFormed_registrationManifest haccepted hfiles hid)
    · intro file hfile
      exact not_calledInvalid_of_wellFormed hroot hdirectory
        (wellFormed_fileManifest haccepted hfile hid)

namespace Sample

/-- A registration of one file under the given id. -/
def registrationFor (registrationId : String) : GameRegistrationClaimsV1 where
  protocolVersion := 1
  registrationId := registrationId
  publisherId := "studio"
  tenantId := "studio"
  gameId := "chess"
  environmentId := "live"
  executableRelativePath := "chess.bin"
  trustStoreSha256 := List.replicate 32 1
  updateRootSha256 := List.replicate 32 2
  updateMetadataUrl := "https://updates.example/metadata"
  updateTargetsUrl := "https://updates.example/targets"
  updateChannel := "stable"
  notBeforeUnix := 0
  expiresAtUnix := 2000
  registeredFiles := [{ relativePath := "chess.bin", size := 4, sha256 := List.replicate 32 3 }]
  repairExecutableRelativePath := ""
  repairArguments := []
  offlinePlayAllowed := false
  offlineArguments := []

/-- A platform with slashes only, where names are as they are written. -/
def unix : PathRules where
  backslash := false
  fold := id
  fold_ordinary _ h := h

/-- An empty tree. -/
def emptyRoot : FileSystem :=
  FileSystem.ofTable [([], .directory true)] (by decide) (by decide)

/-- An identifier that is longer than a manifest has room for. -/
def longId : String := String.ofList (List.replicate 116 'a')

end Sample

open Sample Protocol.Sample in
theorem not_calledInvalid_sample :
    ¬ CalledInvalid (Platform.verifyBuildManifest unix emptyRoot []
      (registrationManifest (registrationFor "chess"))) := by
  have haccepted : validateGameRegistration (registrationFor "chess") 1000 = .ok () := by
    decide +kernel
  have hroot : emptyRoot.canonicalize [] = some [] := rfl
  exact ((not_calledInvalid_iff haccepted (by decide) hroot (by decide)).mpr (by decide)).1

open Sample Protocol.Sample in
/-- An id of 116 letters is accepted, and becomes a build id of 129. -/
theorem calledInvalid_longId :
    validateGameRegistration (registrationFor longId) 1000 = .ok () ∧
      CalledInvalid (Platform.verifyBuildManifest unix emptyRoot []
        (registrationManifest (registrationFor longId))) := by
  constructor
  · decide +kernel
  · have hroot : emptyRoot.canonicalize [] = some [] := rfl
    exact calledInvalid_of_long hroot (by decide +kernel)

end CertaelAgent.Agent
