import CertaelAgent.Protocol.Registration

/-!
# Files that are listed once

A build manifest and a game registration both list files, and neither is to name a file twice. A
registration reads backslashes as slashes before it compares two paths; a manifest does not, so
it may list a file under two paths that differ in their separators.
-/

namespace CertaelAgent.Protocol

open ProtoWire

def isPathSeparator (c : Char) : Prop := c = '/' ∨ c = '\\'

/-- In lower case the two paths are different, but only in which separators they use. -/
def DifferInSeparators (a b : String) : Prop :=
  toAsciiLowercase a ≠ toAsciiLowercase b ∧
    List.Forall₂ (fun x y => x = y ∨ isPathSeparator x ∧ isPathSeparator y)
      (a.toList.map Char.toLower) (b.toList.map Char.toLower)

/-! ## Identities of paths -/

theorem slash_eq_iff {x y : Char} :
    (if x = '\\' then '/' else x) = (if y = '\\' then '/' else y) ↔
      x = y ∨ isPathSeparator x ∧ isPathSeparator y := by
  unfold isPathSeparator
  split_ifs with hx hy hy
  · simp [hx, hy]
  · simp only [hx, hy, or_true, or_false, true_and]
    constructor
    · exact fun h => .inr h.symm
    · rintro (h | h)
      · exact absurd h.symm hy
      · exact h.symm
  · simp only [hx, hy, or_true, or_false, and_true]
    constructor
    · exact Or.inr
    · rintro (h | h)
      · exact h.elim
      · exact h
  · simp only [hx, hy, or_false]
    constructor
    · exact Or.inl
    · rintro (h | ⟨rfl, rfl⟩)
      · exact h
      · rfl

theorem pathIdentity_eq_iff {a b : String} : pathIdentity a = pathIdentity b ↔
    List.Forall₂ (fun x y => x = y ∨ isPathSeparator x ∧ isPathSeparator y)
      (a.toList.map Char.toLower) (b.toList.map Char.toLower) := by
  simp only [← slash_eq_iff]
  rw [pathIdentity_eq, pathIdentity_eq, String.ofList_inj]
  generalize a.toList.map Char.toLower = x
  generalize b.toList.map Char.toLower = y
  rw [← List.forall₂_eq_eq_eq, List.forall₂_map_left_iff, List.forall₂_map_right_iff]

theorem pathIdentity_congr {a b : String} (h : toAsciiLowercase a = toAsciiLowercase b) :
    pathIdentity a = pathIdentity b := by
  unfold toAsciiLowercase at h
  rw [pathIdentity_eq, pathIdentity_eq, String.ofList_inj.mp h]

/-- Paths that are distinct in lower case have distinct identities if no two of them differ in
their separators only. -/
theorem nodup_identities_iff {paths : List String} (h : (paths.map toAsciiLowercase).Nodup) :
    (paths.map pathIdentity).Nodup ↔ ∀ a ∈ paths, ∀ b ∈ paths, ¬ DifferInSeparators a b := by
  rw [List.nodup_map_iff_inj_on (h.of_map toAsciiLowercase)]
  constructor
  · rintro hinj a ha b hb ⟨hne, hsame⟩
    apply hne
    rw [hinj a ha b hb (pathIdentity_eq_iff.mpr hsame)]
  · intro hfree a ha b hb hsame
    by_contra hne
    apply hfree a ha b hb
    refine ⟨?_, pathIdentity_eq_iff.mp hsame⟩
    intro hlower
    exact hne (List.inj_on_of_nodup_map h ha hb hlower)

/-! ## The lists of the two validators -/

/-- An entry of a manifest as a registration lists it. -/
def ProtectedBuildFileV1.registered (file : ProtectedBuildFileV1) : RegisteredGameFileV1 where
  relativePath := file.path
  size := file.size
  sha256 := file.sha256

/-- An entry of a registration as a manifest lists it. -/
def RegisteredGameFileV1.forManifest (file : RegisteredGameFileV1) : ProtectedBuildFileV1 where
  path := file.relativePath
  size := file.size
  sha256 := file.sha256

/-- The manifest with other files. -/
def BuildManifestClaimsV1.withFiles (claims : BuildManifestClaimsV1)
    (files : List ProtectedBuildFileV1) : BuildManifestClaimsV1 :=
  { claims with files := files }

/-- The registration with other files, and without a repair executable among them. -/
def GameRegistrationClaimsV1.withFiles (claims : GameRegistrationClaimsV1)
    (files : List RegisteredGameFileV1) : GameRegistrationClaimsV1 :=
  { claims with
    registeredFiles := files
    repairExecutableRelativePath := ""
    repairArguments := [] }

variable {manifest : BuildManifestClaimsV1} {registration : GameRegistrationClaimsV1}
  {manifestTime registrationTime : Int64}

theorem validateBuildManifest_withFiles
    (h : validateBuildManifest manifest manifestTime = .ok ()) (files : List ProtectedBuildFileV1) :
    validateBuildManifest (manifest.withFiles files) manifestTime = .ok () ↔
      files ≠ [] ∧ files.length ≤ 16384 ∧ buildManifestFilesOk [] files := by
  unfold validateBuildManifest at h
  split_ifs at h with hfields
  simp only [not_or, not_not] at hfields
  obtain ⟨h₁, h₂, h₃, h₄, h₅, h₆, -, -, hrest⟩ := hfields
  unfold validateBuildManifest BuildManifestClaimsV1.withFiles
  constructor
  · intro hok
    split_ifs at hok with hbad hfiles
    simp only [not_or, not_not, not_lt] at hbad hfiles
    exact ⟨hbad.2.2.2.2.2.2.1, hbad.2.2.2.2.2.2.2.1, hfiles⟩
  · rintro ⟨hne, hcount, hfiles⟩
    rw [if_neg, if_neg (not_not.mpr hfiles)]
    simp only [not_or, not_not, not_lt]
    exact ⟨h₁, h₂, h₃, h₄, h₅, h₆, hne, hcount, by simpa only [not_lt] using hrest⟩

theorem validateGameRegistration_withFiles
    (h : validateGameRegistration registration registrationTime = .ok ())
    (files : List RegisteredGameFileV1) :
    validateGameRegistration (registration.withFiles files) registrationTime = .ok () ↔
      files.length ≤ 4096 ∧ (registeredPaths [] files).isSome := by
  unfold validateGameRegistration at h
  split_ifs at h with hfields
  cases hpaths : registeredPaths [] registration.registeredFiles with
  | none => simp [hpaths] at h
  | some paths =>
    simp only [hpaths] at h
    split_ifs at h with hrecovery
    simp only [not_or] at hrecovery
    obtain ⟨-, -, -, hoffline, hoffers⟩ := hrecovery
    unfold validateGameRegistration GameRegistrationClaimsV1.withFiles
    rw [if_neg hfields]
    constructor
    · intro hok
      split_ifs at hok with hcount
      refine ⟨not_lt.mp hcount, ?_⟩
      cases hfiles : registeredPaths [] files with
      | none => simp [hfiles] at hok
      | some found => rfl
    · rintro ⟨hcount, hsome⟩
      obtain ⟨found, hfiles⟩ := Option.isSome_iff_exists.mp hsome
      rw [if_neg (not_lt.mpr hcount), hfiles]
      apply if_neg
      rintro (⟨hne, -⟩ | ⟨-, hne⟩ | hunsafe | hunsafe | hoffered)
      · exact hne rfl
      · exact hne rfl
      · exact hunsafe (show safeArguments [] from by decide)
      · exact hoffline hunsafe
      · exact hoffers hoffered

/-- No file is listed twice by a manifest or by a registration, and either validator accepts the
files that the other one has accepted, up to its limits on their number. -/
structure ListedOnce (manifest : BuildManifestClaimsV1) (registration : GameRegistrationClaimsV1)
    (manifestTime registrationTime : Int64) : Prop where
  inManifest : (manifest.files.map fun file => pathIdentity file.path).Nodup
  inRegistration : (registration.registeredFiles.map fun file => pathIdentity file.relativePath).Nodup
  toRegistration : manifest.files.length ≤ 4096 →
    validateGameRegistration (registration.withFiles (manifest.files.map (·.registered)))
      registrationTime = .ok ()
  toManifest : registration.registeredFiles ≠ [] →
    validateBuildManifest (manifest.withFiles (registration.registeredFiles.map (·.forManifest)))
      manifestTime = .ok ()

theorem filesOk_of_manifest (h : validateBuildManifest manifest manifestTime = .ok ()) :
    buildManifestFilesOk [] manifest.files = true := by
  unfold validateBuildManifest at h
  split_ifs at h with hfields hfiles
  exact hfiles

/-- Files are listed once just where no two paths of the manifest differ only in the separators
they use. -/
theorem listedOnce_iff (hmanifest : validateBuildManifest manifest manifestTime = .ok ())
    (hregistration : validateGameRegistration registration registrationTime = .ok ()) :
    ListedOnce manifest registration manifestTime registrationTime ↔
      ∀ file ∈ manifest.files, ∀ other ∈ manifest.files, ¬ DifferInSeparators file.path other.path := by
  obtain ⟨hentries, hlower, -⟩ := buildManifestFilesOk_iff.mp (filesOk_of_manifest hmanifest)
  have haccepted := accepted_of_validate hregistration
  have hpaths : ((manifest.files.map (·.path)).map toAsciiLowercase).Nodup := by
    rwa [List.map_map]
  have hnodup := nodup_identities_iff hpaths
  rw [List.map_map] at hnodup
  constructor
  · intro h file hfile other hother
    exact hnodup.mp h.inManifest _ (List.mem_map_of_mem hfile) _ (List.mem_map_of_mem hother)
  · intro hfree
    have hdistinct : (manifest.files.map fun file => pathIdentity file.path).Nodup := by
      apply hnodup.mpr
      simp only [List.forall_mem_map]
      exact hfree
    refine ⟨hdistinct, haccepted.distinct, ?_, ?_⟩
    · intro hcount
      rw [validateGameRegistration_withFiles hregistration]
      refine ⟨by rwa [List.length_map], ?_⟩
      rw [Option.isSome_iff_exists]
      refine ⟨_, registeredPaths_eq_some_iff.mpr ⟨?_, ?_, ?_, rfl⟩⟩
      · rw [List.forall_mem_map]
        exact hentries
      · rw [List.map_map]
        exact hdistinct
      · exact fun _ _ => List.not_mem_nil
    · intro hne
      rw [validateBuildManifest_withFiles hmanifest, List.length_map]
      refine ⟨?_, by have hcount := haccepted.fileCount; omega, ?_⟩
      · simpa using hne
      rw [buildManifestFilesOk_iff]
      refine ⟨?_, ?_, ?_⟩
      · rw [List.forall_mem_map]
        exact haccepted.files
      · have hinner := haccepted.distinct
        rw [List.Nodup, List.pairwise_map] at hinner
        rw [List.map_map, List.Nodup, List.pairwise_map]
        apply hinner.imp
        intro file other hne hlower
        exact hne (pathIdentity_congr hlower)
      · exact fun _ _ => List.not_mem_nil

namespace SampleFiles

def digest : Bytes := List.replicate 32 0

/-- A manifest of files with the given paths. -/
def manifestOf (paths : List String) : BuildManifestClaimsV1 where
  protocolVersion := 1
  manifestId := "manifest"
  tenantId := "studio"
  gameId := "chess"
  environmentId := "live"
  buildId := "build"
  files := paths.map fun path => { path := path, size := 1, sha256 := digest }
  notBeforeUnix := 0
  expiresAtUnix := 2000
  coreSdkVersion := "0.1.0"
  coreCAbiVersion := 1
  actionProtocolVersion := 1
  engineAdapter := "godot"
  engineAdapterVersion := "0.1.0"
  agentProtocolVersion := 1
  agentProbeAbiVersion := 1

def chess : GameRegistrationClaimsV1 where
  protocolVersion := 1
  registrationId := "chess"
  publisherId := "studio"
  tenantId := "studio"
  gameId := "chess"
  environmentId := "live"
  executableRelativePath := "chess.bin"
  trustStoreSha256 := digest
  updateRootSha256 := digest
  updateMetadataUrl := "https://example.com/m"
  updateTargetsUrl := "https://example.com/t"
  updateChannel := "stable"
  notBeforeUnix := 0
  expiresAtUnix := 2000
  registeredFiles := [{ relativePath := "data/board.pak", size := 1, sha256 := digest }]
  repairExecutableRelativePath := ""
  repairArguments := []
  offlinePlayAllowed := false
  offlineArguments := []

end SampleFiles

open SampleFiles in
theorem listedOnce_sample :
    ListedOnce (manifestOf ["data/board.pak", "data/pieces.pak"]) chess 1000 1000 := by
  apply (listedOnce_iff (by decide +kernel) (by decide +kernel)).mpr
  intro file hfile other hother hdiffer
  have hpaths : ∀ a ∈ ["data/board.pak", "data/pieces.pak"],
      ∀ b ∈ ["data/board.pak", "data/pieces.pak"], pathIdentity a = pathIdentity b → a = b := by
    decide +kernel
  obtain ⟨path, hpath, rfl⟩ := List.mem_map.mp hfile
  obtain ⟨path', hpath', rfl⟩ := List.mem_map.mp hother
  have hsame := hpaths path hpath path' hpath' (pathIdentity_eq_iff.mpr hdiffer.2)
  exact hdiffer.1 (congrArg toAsciiLowercase hsame)

open SampleFiles in
/-- A file of an accepted manifest is listed once with a slash and once with a backslash. -/
theorem not_listedOnce : ¬ ∀ manifest registration manifestTime registrationTime,
    validateBuildManifest manifest manifestTime = .ok () →
    validateGameRegistration registration registrationTime = .ok () →
      ListedOnce manifest registration manifestTime registrationTime := by
  intro h
  have hlisted := (h (manifestOf ["data/board.pak", "data\\board.pak"]) chess 1000 1000
    (by decide +kernel) (by decide +kernel)).inManifest
  exact absurd hlisted (by decide +kernel)

end CertaelAgent.Protocol
