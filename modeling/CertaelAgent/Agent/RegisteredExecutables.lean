import CertaelAgent.Foundation.FileTrees
import CertaelAgent.Platform.BuildCheck

/-!
# Starting registered executables

A repair verifies the file that it finds under the repair path and starts the repair path; an
offline launch looks the executable up among the registered files and starts the game. Both lookups
ignore the case of ASCII letters and nothing else, the validator of a registration also takes
backslashes for slashes, and the file system decides for itself which paths are one path. What is
started is what was verified where the three agree.
-/

namespace CertaelAgent.Agent

open ProtoWire Protocol Platform Files Anyhow

/-- A program that the operating system has started. -/
structure Started where
  program : Path
  arguments : List String
deriving DecidableEq, Repr

/-- `Path::join` with a path from a registration. -/
def join (rules : PathRules) (root : Path) (value : String) : Path :=
  if rules.hasRoot value || rules.hasDrive value then rules.names value
  else root ++ rules.names value

/-- Starting a program opens its file; what its bytes do is up to the operating system. -/
def spawn (fs : FileSystem) (program : Path) (arguments : List String) (failure : String) :
    Result Started := do
  let _ ← context failure (io (fs.contentAt program))
  return ⟨program, arguments⟩

section

variable [Crates]

def runRegisteredRepair (rules : PathRules) (fs : FileSystem) (registered : RegisteredGame) :
    Result Started :=
  if registered.claims.repairExecutableRelativePath = "" then
    bail "this game did not register a repair action"
  else do
    let repair :=
      join rules registered.gameRoot registered.claims.repairExecutableRelativePath
    verifyRegisteredFile rules fs registered registered.claims.repairExecutableRelativePath
    spawn fs repair registered.claims.repairArguments
      "failed to start the registered game repair action"

/-- The check of an offline launch: a registered executable is verified, any other is inspected. -/
def checkOffline (rules : PathRules) (fs : FileSystem) (registered : RegisteredGame) :
    Result Unit :=
  if registered.claims.registeredFiles.any fun file =>
      eqIgnoreAsciiCase file.relativePath registered.claims.executableRelativePath then
    verifyRegisteredFile rules fs registered registered.claims.executableRelativePath
  else do
    let _ ← context "offline game executable could not be verified"
      (inspectExecutable fs registered.game)
    return ()

def launchRegisteredOffline (rules : PathRules) (fs : FileSystem) (registered : RegisteredGame) :
    Result Started :=
  if ¬ registered.claims.offlinePlayAllowed then
    bail "this game does not allow offline launch from Certael Agent"
  else do
    checkOffline rules fs registered
    spawn fs registered.game registered.claims.offlineArguments
      "failed to launch the registered offline game"

/-- The bytes have the size and the digest of the entry. -/
def Matches (file : RegisteredGameFileV1) (content : Bytes) : Prop :=
  content.length = file.size.toNat ∧ (Crates.sha256 content).1 = file.sha256

/-- Some bytes have the size and the digest of the entry. -/
def Attainable (file : RegisteredGameFileV1) : Prop := ∃ content, Matches file content

/-- What loading a registration has seen of the game: a canonical root with a regular file under
it, which the executable path leads to. -/
structure Loaded (rules : PathRules) (fs : FileSystem) (registered : RegisteredGame) : Prop where
  root : fs.canonicalize registered.gameRoot = some registered.gameRoot
  game : fs.canonicalize (registered.gameRoot ++
    rules.names registered.claims.executableRelativePath) = some registered.game
  inside : registered.gameRoot <+: registered.game
  file : ∃ content mode, fs.node registered.game = some (.file content mode)

end

/-! ## Verification of one file -/

theorem eqIgnoreAsciiCase_encode_iff {a b : Bytes} :
    eqIgnoreAsciiCase (Hex.encode a) (Hex.encode b) ↔ a = b := by
  unfold eqIgnoreAsciiCase toAsciiLowercase
  rw [Hex.map_toLower_encode, Hex.map_toLower_encode, beq_iff_eq]
  constructor
  · intro h
    exact Hex.encode_injective (by simpa using h)
  · rintro rfl
    rfl

section

variable [Crates] {rules : PathRules} {fs : FileSystem} {registered : RegisteredGame}
  {file : RegisteredGameFileV1}

theorem verifyFile_eq_none_iff {root candidate : Path} :
    verifyFile fs root candidate (protectedBuildFile file) = .ok none ↔
      ∃ q content mode, fs.locate candidate = some q ∧ fs.node q = some (.file content mode) ∧
        root <+: q ∧ Matches file content := by
  unfold verifyFile
  constructor
  · intro h
    cases hmetadata : fs.metadataAt candidate with
    | none => simp [hmetadata] at h
    | some metadata =>
      obtain ⟨n, hn, rfl⟩ := Option.map_eq_some_iff.mp hmetadata
      obtain ⟨q, hq, hnode⟩ := Option.bind_eq_some_iff.mp hn
      cases n with
      | directory writable => simp [hmetadata, Node.metadata] at h
      | symlink absolute target => simp [hmetadata, Node.metadata] at h
      | file content mode =>
        have hcanonical := FileSystem.canonicalize_of_locate hq (FileSystem.real_of_file hnode)
        have hcontent := FileSystem.contentAt_of_file hnode
        simp only [hmetadata, Node.metadata, hcanonical, hashFile, hcontent, ne_eq,
          not_true_eq_false, if_false, io, Except.ofOption, context_ok, Except.ok_bind] at h
        split_ifs at h with hbelow hsize
        · by_cases hdigest : eqIgnoreAsciiCase (Hex.encode (Crates.sha256 content).1)
              (protectedBuildFile file).sha256
          · exact ⟨q, content, mode, hq, hnode, hbelow, hsize,
              eqIgnoreAsciiCase_encode_iff.mp hdigest⟩
          · simp [hdigest, pure, Except.pure] at h
        all_goals simp at h
  · rintro ⟨q, content, mode, hq, hnode, hbelow, hsize, hdigest⟩
    have hmetadata : fs.metadataAt candidate = some ⟨.file, content.length, mode⟩ := by
      rw [FileSystem.metadataAt, hq, Option.bind_some, hnode]
      rfl
    have hcanonical := FileSystem.canonicalize_of_locate hq (FileSystem.real_of_file hnode)
    have hcontent := FileSystem.contentAt_of_file hnode
    have hsame : eqIgnoreAsciiCase (Hex.encode (Crates.sha256 content).1)
        (protectedBuildFile file).sha256 := eqIgnoreAsciiCase_encode_iff.mpr hdigest
    have hlength : content.length = (protectedBuildFile file).size.toNat := hsize
    simp [hmetadata, hcanonical, hashFile, hcontent, hbelow, hlength, hsame, io, Except.ofOption]

/-- The verification of one file comes down to the file at its path. -/
theorem verifyBuildManifest_fileManifest_iff (rules : PathRules)
    {claims : GameRegistrationClaimsV1} {root : Path} (haccepted : claims.Accepted)
    (hfile : file ∈ claims.registeredFiles) (hroot : fs.canonicalize root = some root) :
    Platform.verifyBuildManifest rules fs root (fileManifest claims file) = .ok [] ↔
      fs.Directory root ∧ len claims.registrationId ≤ 115 ∧
        ∃ q content mode, fs.locate (root ++ rules.names file.relativePath) = some q ∧
          fs.node q = some (.file content mode) ∧ root <+: q ∧ Matches file content := by
  have hentry : FileEntryOk rules [] (protectedBuildFile file) := by
    obtain ⟨hpath, hlen, hdigits⟩ := protectedBuildFile_ok rules (haccepted.files file hfile)
    exact ⟨hpath, hlen, hdigits, List.not_mem_nil⟩
  have hwalk : verifyFiles rules fs root [] (fileManifest claims file).files = .ok [] ↔
      verifyFile fs root (root ++ rules.names file.relativePath) (protectedBuildFile file) =
        .ok none := by
    simp only [fileManifest, verifyFiles, if_neg (not_not.mpr hentry)]
    rw [Except.bind_eq_ok_iff]
    constructor
    · rintro ⟨mismatch, hmismatch, h⟩
      cases mismatch with
      | none => exact hmismatch
      | some mismatch => cases h
    · intro h
      exact ⟨none, h, rfl⟩
  have hlen := len_buildId claims.registrationId
  unfold Platform.verifyBuildManifest
  simp only [hroot, io, Except.ofOption, context_ok, Except.ok_bind]
  rw [← verifyFile_eq_none_iff, ← hwalk]
  constructor
  · intro h
    split_ifs at h with hshape
    · cases h
    · simp only [not_or, not_not, not_lt] at hshape
      have hid : len ("registration:" ++ claims.registrationId) ≤ 128 := hshape.2.2.1
      exact ⟨hshape.1, by omega, h⟩
  · rintro ⟨hdirectory, hid, h⟩
    have hbuildId := buildId_ok hid
    rw [if_neg]
    · exact h
    · simp only [not_or, not_not, not_lt]
      exact ⟨hdirectory, hbuildId.1, hbuildId.2, by simp [fileManifest], by simp [fileManifest]⟩

omit [Crates] in
theorem mem_of_registeredFile {claims : GameRegistrationClaimsV1} {relativePath : String}
    (h : registeredFile claims relativePath = some file) :
    file ∈ claims.registeredFiles ∧ eqIgnoreAsciiCase file.relativePath relativePath :=
  ⟨List.mem_of_find?_eq_some h, by simpa using List.find?_some h⟩

theorem verifyRegisteredFile_ok_iff {relativePath : String}
    (haccepted : registered.claims.Accepted)
    (hroot : fs.canonicalize registered.gameRoot = some registered.gameRoot) :
    verifyRegisteredFile rules fs registered relativePath = .ok () ↔
      fs.Directory registered.gameRoot ∧ len registered.claims.registrationId ≤ 115 ∧
        ∃ file, registeredFile registered.claims relativePath = some file ∧
          ∃ q content mode, fs.locate (registered.gameRoot ++ rules.names file.relativePath) =
            some q ∧ fs.node q = some (.file content mode) ∧ registered.gameRoot <+: q ∧
            Matches file content := by
  unfold verifyRegisteredFile
  cases hfound : registeredFile registered.claims relativePath with
  | none => simp [bail]
  | some file =>
    have hverify := verifyBuildManifest_fileManifest_iff rules haccepted
      (mem_of_registeredFile hfound).1 hroot
    simp only [Except.bind_eq_ok_iff, context_eq_ok_iff, Option.some.injEq, exists_eq_left']
    rw [← hverify]
    constructor
    · rintro ⟨mismatches, hmismatches, h⟩
      split_ifs at h with hempty
      · cases h
      · rw [hmismatches, not_not.mp hempty]
    · intro h
      exact ⟨[], h, if_neg (not_not.mpr rfl)⟩

omit [Crates] in
theorem join_of_safe {root : Path} {value : String} (h : Protocol.safeRelativePath value) :
    join rules root value = root ++ rules.names value := by
  unfold join
  rw [PathRules.hasRoot_of_safe h, PathRules.hasDrive_of_safe h]
  rfl

omit [Crates] in
theorem spawn_eq_ok_iff {program : Path} {arguments : List String} {failure : String}
    {started : Started} : spawn fs program arguments failure = .ok started ↔
      started = ⟨program, arguments⟩ ∧ ∃ content, fs.contentAt program = some content := by
  unfold spawn
  simp only [Except.bind_eq_ok_iff, context_eq_ok_iff, io_eq_ok_iff, pure, Except.pure,
    Except.ok.injEq]
  constructor
  · rintro ⟨content, hcontent, rfl⟩
    exact ⟨rfl, content, hcontent⟩
  · rintro ⟨rfl, content, hcontent⟩
    exact ⟨content, hcontent, rfl⟩

end

/-! ## Spellings of one path -/

theorem map_toLower_of_eqIgnoreAsciiCase {a b : String} (h : eqIgnoreAsciiCase a b) :
    a.toList.map Char.toLower = b.toList.map Char.toLower := by
  unfold eqIgnoreAsciiCase toAsciiLowercase at h
  simpa using congrArg String.toList (beq_iff_eq.mp h)

theorem pathIdentity_of_eqIgnoreAsciiCase {a b : String} (h : eqIgnoreAsciiCase a b) :
    pathIdentity a = pathIdentity b := by
  rw [pathIdentity_eq, pathIdentity_eq, map_toLower_of_eqIgnoreAsciiCase h]

theorem length_splitOnP {α : Type} (separates : α → Bool) (xs : List α) :
    (xs.splitOnP separates).length = xs.countP separates + 1 := by
  induction xs with
  | nil => rfl
  | cons x xs ih =>
    rw [List.splitOnP_cons_eq_if_modifyHead, List.countP_cons]
    split_ifs
    · rw [List.length_cons, ih]
    · rw [List.length_modifyHead, ih]

theorem length_names_of_eqIgnoreAsciiCase {rules : PathRules} {a b : String}
    (h : eqIgnoreAsciiCase a b) : (rules.names a).length = (rules.names b).length := by
  have hcount : ∀ value : String, value.toList.countP rules.isSeparator =
      (value.toList.map Char.toLower).countP rules.isSeparator := by
    intro value
    rw [List.countP_map]
    apply List.countP_congr
    intro c _
    simp only [PathRules.isSeparator, Function.comp_apply, Bool.or_eq_true, Bool.and_eq_true,
      beq_iff_eq, toLower_eq_iff (.inl rfl), toLower_eq_iff (.inr rfl)]
  unfold PathRules.names PathRules.pieces
  rw [List.length_map, List.length_map, List.length_map, List.length_map, length_splitOnP,
    length_splitOnP, hcount a, hcount b, map_toLower_of_eqIgnoreAsciiCase h]

/-! ## What is started -/

section

variable [Crates]

/-- A repair only starts bytes that a registered entry has. -/
def RepairVerified (rules : PathRules) (fs : FileSystem) (registered : RegisteredGame) : Prop :=
  ∀ started, runRegisteredRepair rules fs registered = .ok started →
    ∃ content, fs.contentAt started.program = some content ∧
      ∃ file ∈ registered.claims.registeredFiles, Matches file content

/-- An offline launch of a registered executable only starts the bytes that its entry has. -/
def OfflineVerified (rules : PathRules) (fs : FileSystem) (registered : RegisteredGame) : Prop :=
  ∀ started, launchRegisteredOffline rules fs registered = .ok started →
    ∀ file ∈ registered.claims.registeredFiles,
      pathIdentity file.relativePath = pathIdentity registered.claims.executableRelativePath →
        ∃ content, fs.contentAt started.program = some content ∧ Matches file content

/-- The entry that the lookup of the repair path finds is at that path, unless it cannot match. -/
def RepairSpelled (rules : PathRules) (claims : GameRegistrationClaimsV1) : Prop :=
  claims.repairExecutableRelativePath ≠ "" → len claims.registrationId ≤ 115 →
    ∀ file, registeredFile claims claims.repairExecutableRelativePath = some file →
      Attainable file →
        rules.names file.relativePath = rules.names claims.repairExecutableRelativePath

/-- The entry of the executable is found by the lookup, and is at its path, unless it cannot
match. -/
def OfflineSpelled (rules : PathRules) (claims : GameRegistrationClaimsV1) : Prop :=
  claims.offlinePlayAllowed → ∀ file ∈ claims.registeredFiles,
    pathIdentity file.relativePath = pathIdentity claims.executableRelativePath →
      eqIgnoreAsciiCase file.relativePath claims.executableRelativePath ∧
        (len claims.registrationId ≤ 115 → Attainable file →
          rules.names file.relativePath = rules.names claims.executableRelativePath)

variable {rules : PathRules} {fs : FileSystem} {registered : RegisteredGame}
  {file : RegisteredGameFileV1}

omit [Crates] in
theorem eq_of_pathIdentity {claims : GameRegistrationClaimsV1} (haccepted : claims.Accepted)
    {file other : RegisteredGameFileV1} (hfile : file ∈ claims.registeredFiles)
    (hother : other ∈ claims.registeredFiles)
    (h : pathIdentity file.relativePath = pathIdentity other.relativePath) : file = other :=
  List.inj_on_of_nodup_map haccepted.distinct hfile hother h

omit [Crates] in
theorem registeredFile_eq_some {claims : GameRegistrationClaimsV1} {relativePath : String}
    (haccepted : claims.Accepted) (hfile : file ∈ claims.registeredFiles)
    (hcase : eqIgnoreAsciiCase file.relativePath relativePath) :
    registeredFile claims relativePath = some file := by
  have hsome : (registeredFile claims relativePath).isSome := by
    unfold registeredFile
    rw [List.find?_isSome]
    exact ⟨file, hfile, hcase⟩
  obtain ⟨found, hfound⟩ := Option.isSome_iff_exists.mp hsome
  obtain ⟨hmem, hfoundCase⟩ := mem_of_registeredFile hfound
  rw [hfound, eq_of_pathIdentity haccepted hmem hfile]
  exact (pathIdentity_of_eqIgnoreAsciiCase hfoundCase).trans
    (pathIdentity_of_eqIgnoreAsciiCase hcase).symm

theorem contentAt_of_verifyRegisteredFile {relativePath : String}
    (haccepted : registered.claims.Accepted)
    (hroot : fs.canonicalize registered.gameRoot = some registered.gameRoot)
    (h : verifyRegisteredFile rules fs registered relativePath = .ok ()) :
    len registered.claims.registrationId ≤ 115 ∧
      ∃ file content, registeredFile registered.claims relativePath = some file ∧
        Matches file content ∧
        fs.contentAt (registered.gameRoot ++ rules.names file.relativePath) = some content := by
  obtain ⟨-, hid, file, hfound, q, content, mode, hlocate, hnode, -, hmatches⟩ :=
    (verifyRegisteredFile_ok_iff haccepted hroot).mp h
  have hcanonical := FileSystem.canonicalize_of_locate hlocate (FileSystem.real_of_file hnode)
  exact ⟨hid, file, content, hfound, hmatches,
    FileSystem.contentAt_of_canonicalize hcanonical hnode⟩

omit [Crates] in
theorem checked_eq_ok_iff {check : Result Unit} {program : Path} {arguments : List String}
    {failure : String} {started : Started} :
    (check >>= fun _ => spawn fs program arguments failure) = .ok started ↔
      check = .ok () ∧ started = ⟨program, arguments⟩ ∧
        ∃ content, fs.contentAt program = some content := by
  rw [Except.bind_eq_ok_iff]
  constructor
  · rintro ⟨_, hcheck, hspawn⟩
    exact ⟨hcheck, spawn_eq_ok_iff.mp hspawn⟩
  · rintro ⟨hcheck, hspawn⟩
    exact ⟨(), hcheck, spawn_eq_ok_iff.mpr hspawn⟩

theorem runRegisteredRepair_eq_ok_iff {started : Started} :
    runRegisteredRepair rules fs registered = .ok started ↔
      registered.claims.repairExecutableRelativePath ≠ "" ∧
        verifyRegisteredFile rules fs registered registered.claims.repairExecutableRelativePath =
          .ok () ∧
        started = ⟨join rules registered.gameRoot registered.claims.repairExecutableRelativePath,
          registered.claims.repairArguments⟩ ∧
        ∃ content, fs.contentAt (join rules registered.gameRoot
          registered.claims.repairExecutableRelativePath) = some content := by
  unfold runRegisteredRepair
  split_ifs with hnone
  · simp [hnone, bail]
  · simp [hnone, checked_eq_ok_iff]

theorem launchRegisteredOffline_eq_ok_iff {started : Started} :
    launchRegisteredOffline rules fs registered = .ok started ↔
      registered.claims.offlinePlayAllowed ∧ checkOffline rules fs registered = .ok () ∧
        started = ⟨registered.game, registered.claims.offlineArguments⟩ ∧
        ∃ content, fs.contentAt registered.game = some content := by
  unfold launchRegisteredOffline
  split_ifs with hallowed
  · simp [hallowed, checked_eq_ok_iff]
  · simp [hallowed, bail]

theorem repairVerified_of_spelled (haccepted : registered.claims.Accepted)
    (hroot : fs.canonicalize registered.gameRoot = some registered.gameRoot)
    (hspelled : RepairSpelled rules registered.claims) : RepairVerified rules fs registered := by
  intro started hstart
  obtain ⟨hnone, hverify, rfl, -⟩ := runRegisteredRepair_eq_ok_iff.mp hstart
  obtain ⟨hid, file, content, hfound, hmatches, hcontent⟩ :=
    contentAt_of_verifyRegisteredFile haccepted hroot hverify
  have hsame := hspelled hnone hid file hfound ⟨content, hmatches⟩
  refine ⟨content, ?_, file, (mem_of_registeredFile hfound).1, hmatches⟩
  dsimp only
  rw [join_of_safe (haccepted.repair hnone).1, ← hsame, hcontent]

theorem offlineVerified_of_spelled (haccepted : registered.claims.Accepted)
    (hloaded : Loaded rules fs registered) (hspelled : OfflineSpelled rules registered.claims) :
    OfflineVerified rules fs registered := by
  intro started hstart file hfile hidentity
  obtain ⟨hallowed, hcheck, rfl, -⟩ := launchRegisteredOffline_eq_ok_iff.mp hstart
  obtain ⟨hlookup, hnames⟩ := hspelled hallowed file hfile hidentity
  unfold checkOffline at hcheck
  rw [if_pos (List.any_eq_true.mpr ⟨file, hfile, hlookup⟩)] at hcheck
  obtain ⟨hid, found, content, hfound, hmatches, hcontent⟩ :=
    contentAt_of_verifyRegisteredFile haccepted hloaded.root hcheck
  obtain rfl := Option.some.inj
    (hfound.symm.trans (registeredFile_eq_some haccepted hfile hlookup))
  have hsame := hnames hid ⟨content, hmatches⟩
  refine ⟨content, ?_, hmatches⟩
  rw [hsame] at hcontent
  obtain ⟨game, mode, hgame, hnode⟩ := FileSystem.contentAt_eq_some_iff.mp hcontent
  obtain rfl := Option.some.inj (hgame.symm.trans hloaded.game)
  exact FileSystem.contentAt_of_file hnode

/-! ## Trees in which other bytes are started -/

/-- Bytes of a size that no entry has. -/
def oversized (claims : GameRegistrationClaimsV1) : Bytes :=
  List.replicate ((claims.registeredFiles.map fun file => file.size.toNat).sum + 1) 0

theorem not_matches_oversized {claims : GameRegistrationClaimsV1} {file : RegisteredGameFileV1}
    (hfile : file ∈ claims.registeredFiles) : ¬ Matches file (oversized claims) := by
  rintro ⟨hsize, -⟩
  have hle : file.size.toNat ≤ (claims.registeredFiles.map fun file => file.size.toNat).sum :=
    List.le_sum_of_mem (List.mem_map.mpr ⟨file, hfile, rfl⟩)
  unfold oversized at hsize
  rw [List.length_replicate] at hsize
  omega

omit [Crates] in
theorem names_ne_nil (value : String) : rules.names value ≠ [] := by
  apply List.ne_nil_of_length_pos
  unfold PathRules.names PathRules.pieces
  rw [List.length_map, List.length_map, length_splitOnP]
  omega

omit [Crates] in
/-- Files at spellings that differ in the case of letters can lie in one tree. -/
theorem placed_of_eqIgnoreAsciiCase {a b : String} {content other : Bytes}
    (ha : Protocol.safeRelativePath a) (hb : Protocol.safeRelativePath b)
    (h : eqIgnoreAsciiCase a b) : Placed [(rules.names a, content), (rules.names b, other)] := by
  have hlength : (rules.names a).length = (rules.names b).length :=
    length_names_of_eqIgnoreAsciiCase h
  constructor
  · simp [names_ne_nil]
  · simp only [List.forall_mem_cons, List.not_mem_nil, false_implies, implies_true, and_true]
    exact ⟨PathRules.ordinary_of_mem_names ha, PathRules.ordinary_of_mem_names hb⟩
  · simp only [List.forall_mem_cons, List.not_mem_nil, false_implies, implies_true, and_true,
      true_and]
    exact ⟨fun hcut => hcut.eq_of_length hlength, fun hcut => hcut.eq_of_length hlength.symm⟩

omit [Crates] in
/-- Paths that only the platform tells apart can hold different bytes. -/
theorem exists_tree_of_names_ne {a b : String} (ha : Protocol.safeRelativePath a)
    (hb : Protocol.safeRelativePath b) (h : eqIgnoreAsciiCase a b)
    (hne : rules.names a ≠ rules.names b) (content other : Bytes) :
    ∃ fs : FileSystem, fs.node (rules.names a) = some (.file content 0o755) ∧
      fs.node (rules.names b) = some (.file other 0o755) := by
  have hplaced : Placed [(rules.names a, content), (rules.names b, other)] :=
    placed_of_eqIgnoreAsciiCase ha hb h
  refine ⟨FileSystem.ofFiles _ hplaced, ?_, ?_⟩
  · apply FileSystem.node_ofFiles
    · simp
    · simp [Ne.symm hne]
  · apply FileSystem.node_ofFiles
    · simp
    · simp [hne]

theorem verifyRegisteredFile_of_node {claims : GameRegistrationClaimsV1} {game : Path}
    {relativePath : String} {content : Bytes} {mode : ℕ} (haccepted : claims.Accepted)
    (hid : len claims.registrationId ≤ 115)
    (hfound : registeredFile claims relativePath = some file)
    (hnode : fs.node (rules.names file.relativePath) = some (.file content mode))
    (hmatches : Matches file content) :
    verifyRegisteredFile rules fs ⟨claims, game, []⟩ relativePath = .ok () := by
  apply (verifyRegisteredFile_ok_iff haccepted rfl).mpr
  refine ⟨fs.root, hid, file, hfound, rules.names file.relativePath, content, mode, ?_, hnode,
    List.nil_prefix, hmatches⟩
  exact FileSystem.locate_of_real (FileSystem.real_of_file hnode)

/-- Bytes that match no entry are started in front of the verified ones if they lie at the repair
path. -/
theorem not_repairVerified_of_node {claims : GameRegistrationClaimsV1} {game : Path}
    {content other : Bytes} {mode otherMode : ℕ} (haccepted : claims.Accepted)
    (hnone : claims.repairExecutableRelativePath ≠ "") (hid : len claims.registrationId ≤ 115)
    (hfound : registeredFile claims claims.repairExecutableRelativePath = some file)
    (hnode : fs.node (rules.names file.relativePath) = some (.file content mode))
    (hmatches : Matches file content)
    (hother : fs.node (rules.names claims.repairExecutableRelativePath) =
      some (.file other otherMode))
    (hdiffers : ∀ entry ∈ claims.registeredFiles, ¬ Matches entry other) :
    ¬ RepairVerified rules fs ⟨claims, game, []⟩ := by
  intro h
  have hread := FileSystem.contentAt_of_file hother
  have hjoin : join rules [] claims.repairExecutableRelativePath =
      rules.names claims.repairExecutableRelativePath :=
    join_of_safe (haccepted.repair hnone).1
  have hstart : runRegisteredRepair rules fs ⟨claims, game, []⟩ =
      .ok ⟨rules.names claims.repairExecutableRelativePath, claims.repairArguments⟩ := by
    apply runRegisteredRepair_eq_ok_iff.mpr
    dsimp only
    rw [hjoin]
    exact ⟨hnone, verifyRegisteredFile_of_node haccepted hid hfound hnode hmatches, rfl, _, hread⟩
  obtain ⟨started, hstarted, entry, hentry, hsame⟩ := h _ hstart
  obtain rfl := Option.some.inj (hread.symm.trans hstarted)
  exact hdiffers entry hentry hsame

theorem repairSpelled_of_verified {claims : GameRegistrationClaimsV1}
    (haccepted : claims.Accepted)
    (h : ∀ fs registered, registered.claims = claims →
      fs.canonicalize registered.gameRoot = some registered.gameRoot →
        RepairVerified rules fs registered) : RepairSpelled rules claims := by
  intro hnone hid file hfound ⟨good, hgood⟩
  by_contra hne
  obtain ⟨hmem, hcase⟩ := mem_of_registeredFile hfound
  obtain ⟨fs, hnode, hother⟩ := exists_tree_of_names_ne (haccepted.files file hmem).1
    (haccepted.repair hnone).1 hcase hne good (oversized claims)
  apply not_repairVerified_of_node haccepted hnone hid hfound hnode hgood hother
  · intro entry hentry
    exact not_matches_oversized hentry
  · exact h fs ⟨claims, [], []⟩ rfl rfl

omit [Crates] in
theorem loaded_of_node {claims : GameRegistrationClaimsV1} {content : Bytes} {mode : ℕ}
    (hnode : fs.node (rules.names claims.executableRelativePath) = some (.file content mode)) :
    Loaded rules fs ⟨claims, rules.names claims.executableRelativePath, []⟩ where
  root := rfl
  game := FileSystem.canonicalize_of_real (FileSystem.real_of_file hnode)
  inside := List.nil_prefix
  file := ⟨content, mode, hnode⟩

theorem inspectExecutable_of_node {path : Path} {content : Bytes} {mode : ℕ} (hne : path ≠ [])
    (hnode : fs.node path = some (.file content mode)) :
    ∃ snapshot, inspectExecutable fs path = .ok snapshot := by
  have hreal := FileSystem.real_of_file hnode
  have hmetadata : fs.metadataAt path = some ⟨.file, content.length, mode⟩ := by
    rw [FileSystem.metadataAt, FileSystem.locate_of_real hreal, Option.bind_some, hnode]
    rfl
  unfold inspectExecutable
  simp [FileSystem.canonicalize_of_real hreal, hmetadata, FileSystem.contentAt_of_file hnode,
    List.getLast?_eq_some_getLast hne, io, Except.ofOption]

theorem not_offlineVerified_of_checked {claims : GameRegistrationClaimsV1} {other : Bytes}
    {mode : ℕ} (hallowed : claims.offlinePlayAllowed) (hfile : file ∈ claims.registeredFiles)
    (hidentity : pathIdentity file.relativePath = pathIdentity claims.executableRelativePath)
    (hnode : fs.node (rules.names claims.executableRelativePath) = some (.file other mode))
    (hdiffers : ¬ Matches file other)
    (hcheck : checkOffline rules fs
      ⟨claims, rules.names claims.executableRelativePath, []⟩ = .ok ()) :
    ¬ OfflineVerified rules fs ⟨claims, rules.names claims.executableRelativePath, []⟩ := by
  intro h
  have hread := FileSystem.contentAt_of_file hnode
  have hstart : launchRegisteredOffline rules fs
      ⟨claims, rules.names claims.executableRelativePath, []⟩ =
        .ok ⟨rules.names claims.executableRelativePath, claims.offlineArguments⟩ :=
    launchRegisteredOffline_eq_ok_iff.mpr ⟨hallowed, hcheck, rfl, _, hread⟩
  obtain ⟨started, hstarted, hsame⟩ := h _ hstart file hfile hidentity
  obtain rfl := Option.some.inj (hread.symm.trans hstarted)
  exact hdiffers hsame

theorem checkOffline_of_missed {claims : GameRegistrationClaimsV1} {content : Bytes} {mode : ℕ}
    (hmissed : ∀ entry ∈ claims.registeredFiles,
      ¬ eqIgnoreAsciiCase entry.relativePath claims.executableRelativePath)
    (hnode : fs.node (rules.names claims.executableRelativePath) = some (.file content mode)) :
    checkOffline rules fs ⟨claims, rules.names claims.executableRelativePath, []⟩ = .ok () := by
  obtain ⟨snapshot, hsnapshot⟩ := inspectExecutable_of_node (names_ne_nil _) hnode
  unfold checkOffline
  rw [if_neg, hsnapshot]
  · rfl
  · rw [List.any_eq_true]
    rintro ⟨entry, hentry, hcase⟩
    exact hmissed entry hentry hcase

theorem offlineSpelled_of_verified {claims : GameRegistrationClaimsV1}
    (haccepted : claims.Accepted)
    (h : ∀ fs registered, registered.claims = claims → Loaded rules fs registered →
      OfflineVerified rules fs registered) : OfflineSpelled rules claims := by
  intro hallowed file hfile hidentity
  have hlookup : eqIgnoreAsciiCase file.relativePath claims.executableRelativePath := by
    by_contra hmiss
    -- the lookup misses the entry, and the executable is inspected only
    have hplaced : Placed [(rules.names claims.executableRelativePath, oversized claims)] := by
      constructor
      · simp [names_ne_nil]
      · simpa using PathRules.ordinary_of_mem_names haccepted.executable
      · simp
    have hnode : (FileSystem.ofFiles _ hplaced).node
        (rules.names claims.executableRelativePath) = some (.file (oversized claims) 0o755) :=
      FileSystem.node_ofFiles (List.mem_singleton_self _) (by simp)
    apply not_offlineVerified_of_checked hallowed hfile hidentity hnode
      (not_matches_oversized hfile) _ (h _ _ rfl (loaded_of_node hnode))
    apply checkOffline_of_missed _ hnode
    intro entry hentry hcase
    obtain rfl := eq_of_pathIdentity haccepted hentry hfile
      ((pathIdentity_of_eqIgnoreAsciiCase hcase).trans hidentity.symm)
    exact hmiss hcase
  refine ⟨hlookup, ?_⟩
  rintro hid ⟨good, hgood⟩
  by_contra hne
  obtain ⟨fs, hverified, hnode⟩ := exists_tree_of_names_ne (haccepted.files file hfile).1
    haccepted.executable hlookup hne good (oversized claims)
  apply not_offlineVerified_of_checked hallowed hfile hidentity hnode
    (not_matches_oversized hfile) _ (h _ _ rfl (loaded_of_node hnode))
  unfold checkOffline
  rw [if_pos (List.any_eq_true.mpr ⟨file, hfile, hlookup⟩)]
  exact verifyRegisteredFile_of_node haccepted hid
    (registeredFile_eq_some haccepted hfile hlookup) hverified hgood

end

namespace Spellings

open Platform.SampleBuild

/-- A registration of an executable and a repair program, with the given spellings of the two. -/
def recoveryFor (executable repair : String) : GameRegistrationClaimsV1 :=
  { Sample.registrationFor "chess" with
    executableRelativePath := executable
    registeredFiles := [scriptFile "bin/chess", scriptFile "fix.bin"]
    repairExecutableRelativePath := repair
    offlinePlayAllowed := true }

/-- What is registered, and other bytes under other spellings. -/
def respelledTree : FileSystem :=
  FileSystem.ofTable
    [([], .directory true), (["bin"], .directory true),
      (["bin", "chess"], .file scriptBytes 0o755), (["fix.bin"], .file scriptBytes 0o755),
      (["bin\\chess"], .file otherBytes 0o755),
      (["Fix.bin"], .file otherBytes 0o755)] (by decide) (by decide)

end Spellings

end CertaelAgent.Agent
