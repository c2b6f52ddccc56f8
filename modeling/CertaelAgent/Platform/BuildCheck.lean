import CertaelAgent.Agent.RegisteredFiles

/-!
# What the check of a build reports

An entry is intact if it is a regular file itself, leads to a place below the root, and has the
listed bytes. The check reports every other entry, in the order of the list, with the first thing
that is wrong about it.
-/

namespace CertaelAgent.Platform

open ProtoWire Protocol Files Anyhow Agent

section

variable [Crates] (fs : FileSystem) (canonicalRoot candidate : Path)
  (expected : ProtectedBuildFile)

/-- The entry at a path, itself and not what it may link to, is a regular file. -/
def RegularAt (fs : FileSystem) (candidate : Path) (content : Bytes) : Prop :=
  ∃ q mode, fs.locate candidate = some q ∧ fs.node q = some (.file content mode)

/-- With all links followed the path leads below the root. -/
def ResolvesInside (fs : FileSystem) (canonicalRoot candidate : Path) : Prop :=
  ∃ q, fs.canonicalize candidate = some q ∧ canonicalRoot <+: q

/-- The bytes have the listed digest, whatever the case of its digits. -/
def HasDigest (content : Bytes) (expected : ProtectedBuildFile) : Prop :=
  eqIgnoreAsciiCase (Hex.encode (Crates.sha256 content).1) expected.sha256

def Intact : Prop :=
  ∃ content, RegularAt fs candidate content ∧ ResolvesInside fs canonicalRoot candidate ∧
    content.length = expected.size.toNat ∧ HasDigest content expected

/-- The first of the five things that is wrong about an entry. -/
inductive FirstFailure : String → Prop
  | missing (hnone : ∀ q, fs.locate candidate = some q → fs.node q = none) :
      FirstFailure "MISSING"
  | unsafeType {q : Path} {n : Node} (hlocate : fs.locate candidate = some q)
      (hnode : fs.node q = some n) (hother : ∀ content mode, n ≠ .file content mode) :
      FirstFailure "UNSAFE_TYPE"
  | pathEscape {content : Bytes} (hregular : RegularAt fs candidate content)
      (houtside : ¬ ResolvesInside fs canonicalRoot candidate) : FirstFailure "PATH_ESCAPE"
  | sizeMismatch {content : Bytes} (hregular : RegularAt fs candidate content)
      (hinside : ResolvesInside fs canonicalRoot candidate)
      (hsize : content.length ≠ expected.size.toNat) : FirstFailure "SIZE_MISMATCH"
  | hashMismatch {content : Bytes} (hregular : RegularAt fs candidate content)
      (hinside : ResolvesInside fs canonicalRoot candidate)
      (hsize : content.length = expected.size.toNat) (hdigest : ¬ HasDigest content expected) :
      FirstFailure "HASH_MISMATCH"

/-- The mismatches of a list of entries: none for an intact one, and one with the first failure for
any other. -/
inductive Reported (rules : PathRules) :
    List ProtectedBuildFile → List ManifestMismatch → Prop
  | nil : Reported rules [] []
  | intact {expected : ProtectedBuildFile} {files : List ProtectedBuildFile}
      {mismatches : List ManifestMismatch}
      (hintact : Intact fs canonicalRoot (canonicalRoot ++ rules.names expected.path) expected)
      (hrest : Reported rules files mismatches) : Reported rules (expected :: files) mismatches
  | failed {expected : ProtectedBuildFile} {files : List ProtectedBuildFile}
      {mismatches : List ManifestMismatch} {reason : String}
      (hfailure : FirstFailure fs canonicalRoot (canonicalRoot ++ rules.names expected.path)
        expected reason)
      (hrest : Reported rules files mismatches) :
      Reported rules (expected :: files) (⟨expected.path, reason⟩ :: mismatches)

end

section

variable [Crates] {rules : PathRules} {fs : FileSystem} {canonicalRoot candidate : Path}
  {expected : ProtectedBuildFile}

omit [Crates] in
theorem resolvesInside_iff {q : Path} {content : Bytes} {mode : ℕ}
    (hlocate : fs.locate candidate = some q) (hnode : fs.node q = some (.file content mode)) :
    ResolvesInside fs canonicalRoot candidate ↔ canonicalRoot <+: q := by
  have hcanonical := FileSystem.canonicalize_of_locate hlocate (FileSystem.real_of_file hnode)
  unfold ResolvesInside
  rw [hcanonical]
  simp

theorem verifyFile_of_missing (h : ∀ q, fs.locate candidate = some q → fs.node q = none) :
    verifyFile fs canonicalRoot candidate expected = .ok (some ⟨expected.path, "MISSING"⟩) := by
  have hmetadata : fs.metadataAt candidate = none := by
    unfold FileSystem.metadataAt
    cases hlocate : fs.locate candidate with
    | none => rfl
    | some q => simp [h q hlocate]
  unfold verifyFile
  rw [hmetadata]

theorem verifyFile_of_other {q : Path} {n : Node} (hlocate : fs.locate candidate = some q)
    (hnode : fs.node q = some n) (hother : ∀ content mode, n ≠ .file content mode) :
    verifyFile fs canonicalRoot candidate expected =
      .ok (some ⟨expected.path, "UNSAFE_TYPE"⟩) := by
  have hmetadata : fs.metadataAt candidate = some n.metadata := by
    simp [FileSystem.metadataAt, hlocate, hnode]
  unfold verifyFile
  rw [hmetadata]
  cases n with
  | file content mode => exact absurd rfl (hother content mode)
  | directory writable => rfl
  | symlink absolute target => rfl

theorem verifyFile_of_regular {content : Bytes} (h : RegularAt fs candidate content) :
    (¬ ResolvesInside fs canonicalRoot candidate →
      verifyFile fs canonicalRoot candidate expected =
        .ok (some ⟨expected.path, "PATH_ESCAPE"⟩)) ∧
    (ResolvesInside fs canonicalRoot candidate → content.length ≠ expected.size.toNat →
      verifyFile fs canonicalRoot candidate expected =
        .ok (some ⟨expected.path, "SIZE_MISMATCH"⟩)) ∧
    (ResolvesInside fs canonicalRoot candidate → content.length = expected.size.toNat →
      ¬ HasDigest content expected →
      verifyFile fs canonicalRoot candidate expected =
        .ok (some ⟨expected.path, "HASH_MISMATCH"⟩)) ∧
    (ResolvesInside fs canonicalRoot candidate → content.length = expected.size.toNat →
      HasDigest content expected →
      verifyFile fs canonicalRoot candidate expected = .ok none) := by
  obtain ⟨q, mode, hlocate, hnode⟩ := h
  have hmetadata : fs.metadataAt candidate = some ⟨.file, content.length, mode⟩ := by
    simp [FileSystem.metadataAt, hlocate, hnode, Node.metadata]
  have hcanonical := FileSystem.canonicalize_of_locate hlocate (FileSystem.real_of_file hnode)
  have hcontent := FileSystem.contentAt_of_file hnode
  rw [resolvesInside_iff hlocate hnode]
  unfold verifyFile HasDigest
  simp only [hmetadata, hcanonical, hashFile, hcontent, io, Except.ofOption, context_ok,
    Except.ok_bind, ne_eq, not_true_eq_false, if_false]
  refine ⟨?_, ?_, ?_, ?_⟩
  · intro houtside
    rw [if_pos houtside]
  · intro hinside hsize
    rw [if_neg (not_not.mpr hinside), if_pos hsize]
  · intro hinside hsize hdigest
    rw [if_neg (not_not.mpr hinside), if_neg (not_not.mpr hsize)]
    simp [hdigest]
  · intro hinside hsize hdigest
    rw [if_neg (not_not.mpr hinside), if_neg (not_not.mpr hsize)]
    simp [hdigest]

theorem verifyFile_of_intact (h : Intact fs canonicalRoot candidate expected) :
    verifyFile fs canonicalRoot candidate expected = .ok none := by
  obtain ⟨content, hregular, hinside, hsize, hdigest⟩ := h
  exact (verifyFile_of_regular hregular).2.2.2 hinside hsize hdigest

theorem verifyFile_of_failure {reason : String}
    (h : FirstFailure fs canonicalRoot candidate expected reason) :
    verifyFile fs canonicalRoot candidate expected = .ok (some ⟨expected.path, reason⟩) := by
  cases h with
  | missing hnone => exact verifyFile_of_missing hnone
  | unsafeType hlocate hnode hother => exact verifyFile_of_other hlocate hnode hother
  | pathEscape hregular houtside => exact (verifyFile_of_regular hregular).1 houtside
  | sizeMismatch hregular hinside hsize =>
    exact (verifyFile_of_regular hregular).2.1 hinside hsize
  | hashMismatch hregular hinside hsize hdigest =>
    exact (verifyFile_of_regular hregular).2.2.1 hinside hsize hdigest

theorem intact_or_failure (fs : FileSystem) (canonicalRoot candidate : Path)
    (expected : ProtectedBuildFile) : Intact fs canonicalRoot candidate expected ∨
      ∃ reason, FirstFailure fs canonicalRoot candidate expected reason := by
  cases hlocate : fs.locate candidate with
  | none => exact .inr ⟨_, .missing (by simp [hlocate])⟩
  | some q =>
    cases hnode : fs.node q with
    | none =>
      refine .inr ⟨_, .missing ?_⟩
      intro q' hq'
      rwa [← Option.some.inj (hlocate.symm.trans hq')]
    | some n =>
      cases n with
      | directory writable =>
        exact .inr ⟨_, .unsafeType hlocate hnode fun _ _ => Node.noConfusion⟩
      | symlink absolute target =>
        exact .inr ⟨_, .unsafeType hlocate hnode fun _ _ => Node.noConfusion⟩
      | file content mode =>
        have hregular : RegularAt fs candidate content := ⟨q, mode, hlocate, hnode⟩
        by_cases hinside : ResolvesInside fs canonicalRoot candidate
        · by_cases hsize : content.length = expected.size.toNat
          · by_cases hdigest : HasDigest content expected
            · exact .inl ⟨content, hregular, hinside, hsize, hdigest⟩
            · exact .inr ⟨_, .hashMismatch hregular hinside hsize hdigest⟩
          · exact .inr ⟨_, .sizeMismatch hregular hinside hsize⟩
        · exact .inr ⟨_, .pathEscape hregular hinside⟩

theorem verifyFiles_cons {seen : List String} {files : List ProtectedBuildFile}
    {mismatch : Option ManifestMismatch} (hentry : FileEntryOk rules seen expected)
    (hfile : verifyFile fs canonicalRoot (canonicalRoot ++ rules.names expected.path) expected =
      .ok mismatch) : verifyFiles rules fs canonicalRoot seen (expected :: files) =
      (verifyFiles rules fs canonicalRoot (expected.path :: seen) files).map
        (mismatch.toList ++ ·) := by
  rw [verifyFiles, if_neg (not_not.mpr hentry), hfile]
  cases verifyFiles rules fs canonicalRoot (expected.path :: seen) files <;> rfl

omit [Crates] in
theorem unseen_cons {seen : List String} {files : List ProtectedBuildFile}
    (hother : expected.path ∉ files.map ProtectedBuildFile.path)
    (hnew : ∀ file ∈ files, file.path ∉ seen) :
    ∀ file ∈ files, file.path ∉ expected.path :: seen := by
  intro file hfile hmem
  rcases List.mem_cons.mp hmem with heq | hseen
  · exact hother (List.mem_map.mpr ⟨file, hfile, heq⟩)
  · exact hnew file hfile hseen

theorem verifyFiles_of_reported {seen : List String} {files : List ProtectedBuildFile}
    {mismatches : List ManifestMismatch}
    (h : Reported fs canonicalRoot rules files mismatches)
    (hpaths : ∀ file ∈ files, rules.safeRelativePath file.path)
    (hdigests : ∀ file ∈ files, len file.sha256 = 64 ∧ file.sha256.toList.all Hex.isDigit)
    (hdistinct : (files.map ProtectedBuildFile.path).Nodup)
    (hnew : ∀ file ∈ files, file.path ∉ seen) :
    verifyFiles rules fs canonicalRoot seen files = .ok mismatches := by
  induction h generalizing seen with
  | nil => rfl
  | @intact expected files mismatches hintact hrest ih =>
    rw [List.forall_mem_cons] at hpaths hdigests hnew
    rw [List.map_cons, List.nodup_cons] at hdistinct
    have hentry : FileEntryOk rules seen expected :=
      ⟨hpaths.1, hdigests.1.1, hdigests.1.2, hnew.1⟩
    rw [verifyFiles_cons hentry (verifyFile_of_intact hintact),
      ih hpaths.2 hdigests.2 hdistinct.2 (unseen_cons hdistinct.1 hnew.2)]
    rfl
  | @failed expected files mismatches reason hfailure hrest ih =>
    rw [List.forall_mem_cons] at hpaths hdigests hnew
    rw [List.map_cons, List.nodup_cons] at hdistinct
    have hentry : FileEntryOk rules seen expected :=
      ⟨hpaths.1, hdigests.1.1, hdigests.1.2, hnew.1⟩
    rw [verifyFiles_cons hentry (verifyFile_of_failure hfailure),
      ih hpaths.2 hdigests.2 hdistinct.2 (unseen_cons hdistinct.1 hnew.2)]
    rfl

theorem exists_reported (rules : PathRules) (fs : FileSystem) (canonicalRoot : Path)
    (files : List ProtectedBuildFile) :
    ∃ mismatches, Reported fs canonicalRoot rules files mismatches := by
  induction files with
  | nil => exact ⟨[], .nil⟩
  | cons expected files ih =>
    obtain ⟨mismatches, hrest⟩ := ih
    rcases intact_or_failure fs canonicalRoot (canonicalRoot ++ rules.names expected.path)
      expected with hintact | ⟨reason, hfailure⟩
    · exact ⟨mismatches, .intact hintact hrest⟩
    · exact ⟨_, .failed hfailure hrest⟩

theorem reported_nil_iff {files : List ProtectedBuildFile} :
    Reported fs canonicalRoot rules files [] ↔ ∀ expected ∈ files,
      Intact fs canonicalRoot (canonicalRoot ++ rules.names expected.path) expected := by
  induction files with
  | nil => exact iff_of_true .nil (by simp)
  | cons expected files ih =>
    rw [List.forall_mem_cons, ← ih]
    constructor
    · intro h
      cases h with
      | intact hintact hrest => exact ⟨hintact, hrest⟩
    · rintro ⟨hintact, hrest⟩
      exact .intact hintact hrest

variable {root : Path} {manifest : ProtectedBuildManifest}

theorem verifyBuildManifest_of_reported {mismatches : List ManifestMismatch}
    (hwellFormed : WellFormed rules manifest) (hroot : fs.canonicalize root = some canonicalRoot)
    (hdirectory : fs.Directory canonicalRoot)
    (hreported : Reported fs canonicalRoot rules manifest.files mismatches) :
    verifyBuildManifest rules fs root manifest = .ok mismatches := by
  have hshape : ¬ (¬ fs.Directory canonicalRoot ∨ manifest.buildId = "" ∨
      128 < len manifest.buildId ∨ manifest.files = [] ∨ 16384 < manifest.files.length) := by
    have hid := hwellFormed.buildId
    have hcount := hwellFormed.count
    simp only [not_or, not_not, not_lt]
    exact ⟨hdirectory, hid.1, hid.2, hcount.1, hcount.2⟩
  unfold verifyBuildManifest
  simp only [hroot, io, Except.ofOption, context_ok, Except.ok_bind, if_neg hshape]
  apply verifyFiles_of_reported hreported hwellFormed.paths hwellFormed.digests
    hwellFormed.distinct
  simp

theorem verifyBuildManifest_eq_ok_iff (hwellFormed : WellFormed rules manifest)
    (hroot : fs.canonicalize root = some canonicalRoot) (hdirectory : fs.Directory canonicalRoot)
    (mismatches : List ManifestMismatch) :
    verifyBuildManifest rules fs root manifest = .ok mismatches ↔
      Reported fs canonicalRoot rules manifest.files mismatches := by
  constructor
  · intro h
    obtain ⟨reported, hreported⟩ := exists_reported rules fs canonicalRoot manifest.files
    have hok := verifyBuildManifest_of_reported hwellFormed hroot hdirectory hreported
    obtain rfl := Except.ok.inj (hok.symm.trans h)
    exact hreported
  · exact verifyBuildManifest_of_reported hwellFormed hroot hdirectory

theorem verifyBuildManifest_eq_nil_iff (hwellFormed : WellFormed rules manifest)
    (hroot : fs.canonicalize root = some canonicalRoot) (hdirectory : fs.Directory canonicalRoot) :
    verifyBuildManifest rules fs root manifest = .ok [] ↔ ∀ expected ∈ manifest.files,
      Intact fs canonicalRoot (canonicalRoot ++ rules.names expected.path) expected :=
  (verifyBuildManifest_eq_ok_iff hwellFormed hroot hdirectory []).trans reported_nil_iff

/-- For a well-formed manifest and a game root that is there the check succeeds; it returns what is
to be reported about the entries and nothing else, so nothing exactly if all are intact. -/
theorem verifyBuildManifest_exact (hwellFormed : WellFormed rules manifest)
    (hroot : fs.canonicalize root = some canonicalRoot) (hdirectory : fs.Directory canonicalRoot) :
    (∀ mismatches, verifyBuildManifest rules fs root manifest = .ok mismatches ↔
      Reported fs canonicalRoot rules manifest.files mismatches) ∧
    (∃ mismatches, verifyBuildManifest rules fs root manifest = .ok mismatches) ∧
    (verifyBuildManifest rules fs root manifest = .ok [] ↔ ∀ expected ∈ manifest.files,
      Intact fs canonicalRoot (canonicalRoot ++ rules.names expected.path) expected) := by
  obtain ⟨reported, hreported⟩ := exists_reported rules fs canonicalRoot manifest.files
  refine ⟨verifyBuildManifest_eq_ok_iff hwellFormed hroot hdirectory, ⟨reported, ?_⟩,
    verifyBuildManifest_eq_nil_iff hwellFormed hroot hdirectory⟩
  exact verifyBuildManifest_of_reported hwellFormed hroot hdirectory hreported

end

namespace SampleBuild

/-- `#!/bin/sh` and a line feed. -/
def scriptBytes : Bytes := [35, 33, 47, 98, 105, 110, 47, 115, 104, 10]

def scriptDigest : ByteArrayOf 32 := ⟨[168, 7, 109, 61, 40, 210, 30, 2, 1, 43, 32, 234, 247, 219,
  247, 84, 9, 166, 39, 113, 52, 67, 144, 37, 242, 130, 227, 104, 227, 48, 90, 191], rfl⟩

/-- `#!/bin/ls` and a line feed. -/
def otherBytes : Bytes := [35, 33, 47, 98, 105, 110, 47, 108, 115, 10]

def otherDigest : ByteArrayOf 32 := ⟨[245, 199, 213, 158, 205, 222, 113, 45, 232, 178, 35, 172,
  2, 29, 62, 116, 188, 179, 185, 227, 78, 74, 217, 92, 139, 217, 236, 29, 97, 217, 140, 232],
  rfl⟩

/-- Primitives with the digests of the files that are hashed. -/
scoped instance fileCrates : Crates :=
  { Protocol.Sample.crates with
    sha256 := fun content =>
      if content = scriptBytes then scriptDigest
      else if content = otherBytes then otherDigest
      else zeroDigest }

/-- A registered file with the size and the digest of the script. -/
def scriptFile (path : String) : RegisteredGameFileV1 where
  relativePath := path
  size := 10
  sha256 := scriptDigest.1

def claims : GameRegistrationClaimsV1 :=
  { Agent.Sample.registrationFor "chess" with
    executableRelativePath := "bin/chess"
    registeredFiles := [scriptFile "bin/chess", scriptFile "bin/saved", scriptFile "data/board",
      scriptFile "data/moves", scriptFile "data/rules", scriptFile "mods/chess"] }

/-- A game in which a file was replaced by a link, one was changed, one was cut, one was removed,
and a directory was replaced by a link to another tree. -/
def tree : FileSystem :=
  FileSystem.ofTable
    [([], .directory true), (["game"], .directory true), (["game", "bin"], .directory true),
      (["game", "bin", "chess"], .file scriptBytes 0o755),
      (["game", "bin", "saved"], .symlink false ["chess"]), (["game", "data"], .directory true),
      (["game", "data", "board"], .file otherBytes 0o644),
      (["game", "data", "moves"], .file [35, 33] 0o644),
      (["game", "mods"], .symlink true ["outside"]), (["outside"], .directory true),
      (["outside", "chess"], .file scriptBytes 0o755)] (by decide) (by decide)

theorem wellFormed : WellFormed Agent.Sample.unix (registrationManifest claims) := by
  have haccepted : validateGameRegistration claims 1000 = .ok () := by decide +kernel
  exact wellFormed_registrationManifest (accepted_of_validate haccepted) (by decide) (by decide)

/-- The place of a registered file below the game root. -/
def placeOf (path : String) : Path := ["game"] ++ Agent.Sample.unix.names path

theorem intact_chess : Intact tree ["game"] (placeOf "bin/chess")
    (protectedBuildFile (scriptFile "bin/chess")) := by
  have hlocate : tree.locate (placeOf "bin/chess") = some ["game", "bin", "chess"] := by
    decide +kernel
  refine ⟨scriptBytes, ⟨_, _, hlocate, rfl⟩, (resolvesInside_iff hlocate rfl).mpr (by decide),
    rfl, ?_⟩
  unfold HasDigest
  decide +kernel

theorem unsafeType_saved : FirstFailure tree ["game"] (placeOf "bin/saved")
    (protectedBuildFile (scriptFile "bin/saved")) "UNSAFE_TYPE" := by
  have hlocate : tree.locate (placeOf "bin/saved") = some ["game", "bin", "saved"] := by
    decide +kernel
  exact .unsafeType hlocate rfl fun _ _ => Node.noConfusion

theorem hashMismatch_board : FirstFailure tree ["game"] (placeOf "data/board")
    (protectedBuildFile (scriptFile "data/board")) "HASH_MISMATCH" := by
  have hlocate : tree.locate (placeOf "data/board") = some ["game", "data", "board"] := by
    decide +kernel
  refine .hashMismatch ⟨_, _, hlocate, rfl⟩ ((resolvesInside_iff hlocate rfl).mpr (by decide))
    rfl ?_
  unfold HasDigest
  decide +kernel

theorem sizeMismatch_moves : FirstFailure tree ["game"] (placeOf "data/moves")
    (protectedBuildFile (scriptFile "data/moves")) "SIZE_MISMATCH" := by
  have hlocate : tree.locate (placeOf "data/moves") = some ["game", "data", "moves"] := by
    decide +kernel
  exact .sizeMismatch ⟨_, _, hlocate, rfl⟩ ((resolvesInside_iff hlocate rfl).mpr (by decide))
    (by decide)

theorem missing_rules : FirstFailure tree ["game"] (placeOf "data/rules")
    (protectedBuildFile (scriptFile "data/rules")) "MISSING" := by
  have hlocate : tree.locate (placeOf "data/rules") = some ["game", "data", "rules"] := by
    decide +kernel
  apply FirstFailure.missing
  intro q hq
  obtain rfl := Option.some.inj (hlocate.symm.trans hq)
  decide +kernel

theorem pathEscape_mods : FirstFailure tree ["game"] (placeOf "mods/chess")
    (protectedBuildFile (scriptFile "mods/chess")) "PATH_ESCAPE" := by
  have hlocate : tree.locate (placeOf "mods/chess") = some ["outside", "chess"] := by
    decide +kernel
  apply FirstFailure.pathEscape ⟨_, _, hlocate, rfl⟩
  rw [resolvesInside_iff hlocate rfl]
  decide

end SampleBuild

open SampleBuild in
/-- The first file is intact, and each of the others fails in its own way. -/
theorem verifyBuildManifest_sample :
    verifyBuildManifest Agent.Sample.unix tree ["game"] (registrationManifest claims) =
      .ok [⟨"bin/saved", "UNSAFE_TYPE"⟩, ⟨"data/board", "HASH_MISMATCH"⟩,
        ⟨"data/moves", "SIZE_MISMATCH"⟩, ⟨"data/rules", "MISSING"⟩,
        ⟨"mods/chess", "PATH_ESCAPE"⟩] := by
  have hroot : tree.canonicalize ["game"] = some ["game"] := by decide +kernel
  exact ((verifyBuildManifest_exact wellFormed hroot (by decide +kernel)).1 _).mpr
    (.intact intact_chess (.failed unsafeType_saved (.failed hashMismatch_board
      (.failed sizeMismatch_moves (.failed missing_rules (.failed pathEscape_mods .nil))))))

end CertaelAgent.Platform
