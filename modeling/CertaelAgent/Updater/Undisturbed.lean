import CertaelAgent.Updater.Installation

/-!
# Operations that nothing disturbs

Where the slots in question verify and the new state can be written, the operations succeed and
record what they decide. An installation that finds its target in place only stages it.
-/

namespace CertaelAgent.Updater

open ProtoWire Protocol Files Files.FileSystem Program

section

variable [Crates] [SerdeJson] {fs fs' : FileSystem} {root : Path} {path : PathBuf}
  {state : ActivationState} {slot : ActivationSlot} {now later : Moment}

omit [Crates] [SerdeJson] in
theorem IsInstallRoot.metadata (h : IsInstallRoot fs path root) : ∃ metadata : Metadata,
    ((fs.locate path.names).bind fs.node).map Node.metadata = some metadata ∧
      metadata.fileType = .directory := by
  unfold IsInstallRoot at h
  rw [eval_canonicalInstallRoot] at h
  obtain ⟨_, _, h⟩ := Except.bind_eq_ok_iff.mp h
  obtain ⟨metadata, hmetadata, h⟩ := Except.bind_eq_ok_iff.mp h
  obtain ⟨_, htype, _⟩ := Except.bind_eq_ok_iff.mp h
  exact ⟨metadata, Except.ofOption_eq_ok_iff.mp hmetadata, Except.require_eq_ok_iff.mp htype⟩

omit [Crates] [SerdeJson] in
theorem exec_write_bind {α : Type} {a : α} (hroot : fs.Directory root)
    (h : Publishable fs root state now) : ∃ fs',
      exec device (writeActivationState root state now >>= fun _ => done (.ok a)) fs = (.ok a, fs') ∧
        Published root state fs fs' := by
  obtain ⟨hok, hpublished⟩ := exec_writeActivationState hroot h
  rw [exec_bind]
  rcases hwrite : exec device (writeActivationState root state now) fs with ⟨r, fs'⟩
  rw [hwrite] at hok hpublished
  subst hok
  exact ⟨fs', rfl, hpublished⟩

theorem exec_activatePending (hroot : IsInstallRoot fs path root)
    (hread : eval device (readActivationState ⟨true, root⟩) fs = .ok state)
    (hpending : state.pending = some slot) (hverify : Verifies fs root slot)
    (hpub : Publishable fs root
      { state with active := some slot, previous := state.active, pending := none } now) :
    ∃ fs', exec device (activatePending path now) fs =
        (.ok { state with active := some slot, previous := state.active, pending := none }, fs') ∧
      Published root { state with active := some slot, previous := state.active, pending := none }
        fs fs' := by
  unfold activatePending
  rw [(cautious_canonicalInstallRoot path).readOnly.exec_bind_ok hroot,
    (readOnly_readActivationState _).exec_bind_ok hread, hpending, pure_eq_done,
    (Cautious.expect_done _ _).readOnly.exec_bind_ok rfl,
    (cautious_verifySlot root slot).readOnly.exec_bind_ok hverify]
  exact exec_write_bind hroot.directory hpub

omit [SerdeJson] in
theorem exec_placeTarget_of_file {source : Path} {config : InstallConfig} {sha256 : String}
    {content : Bytes} {mode : ℕ} (hnode : fs.node (versionsPath root ++ [config.version] ++
      [config.installedName]) = some (.file content mode))
    (hdigest : Hex.encode (Crates.sha256 content).1 = sha256) :
    exec device (placeTarget source (versionsPath root) config sha256 now) fs = (.ok (), fs) := by
  have hfound : (fs.canonicalize (versionsPath root ++ [config.version] ++
      [config.installedName])).isSome = true := by
    rw [canonicalize_of_real (real_of_file hnode)]
    rfl
  unfold placeTarget
  change exec device (.call (FsOp.pathExists _) _) fs = _
  rw [exec]
  change exec device (ite ((fs.canonicalize (versionsPath root ++ [config.version] ++
    [config.installedName])).isSome = true) _ _) fs = _
  rw [if_pos hfound, (cautious_hashFile _).readOnly.exec_bind_ok (eval_hashFile_of_file hnode),
    Program.require, if_pos hdigest]
  rfl

theorem exec_installVerifiedTarget_of_file {source : Path} {config : InstallConfig}
    {digest : String} {content : Bytes} {mode : ℕ}
    (hroot : IsInstallRoot fs config.installRoot root)
    (hvalid : validateInstall config digest = .ok ())
    (hsource : fs.node source = some (.file content mode))
    (hversions : fs.Directory (versionsPath root))
    (hinstalled : Installed fs root (installSlot config digest))
    (hread : eval device (readActivationState ⟨true, root⟩) fs = .ok state)
    (hpub : Publishable fs root { state with pending := some (installSlot config digest) } later) :
    ∃ fs', exec device (installVerifiedTarget source config digest now later) fs =
        (.ok (versionsPath root ++ [config.version] ++ [config.installedName]), fs') ∧
      Published root { state with pending := some (installSlot config digest) } fs fs' := by
  obtain ⟨hversion, hname, _⟩ := validateInstall_eq_ok hvalid
  obtain ⟨metadata, hmetadata, htype⟩ := hroot.metadata
  have hnames : root ++ pathNames (installSlot config digest).relativePath =
      versionsPath root ++ [config.version] ++ [config.installedName] := by
    rw [show (installSlot config digest).relativePath =
      slotPath config.version config.installedName from rfl, pathNames_slotPath hversion hname]
    simp [versionsPath]
  obtain ⟨target, mode', hnode, hdigest⟩ := hinstalled.file
  rw [hnames] at hnode
  have hlook : eval device (expect UpdateError.installation (symlinkMetadata source)) fs =
      .ok (Node.file content mode).metadata := by
    rw [eval_symlinkMetadata, locate_of_real (real_of_file hsource), Option.bind_some, hsource]
    rfl
  obtain ⟨writable, hdir⟩ := directory_iff.mp hversions
  have hlook' : eval device (expect UpdateError.installation (symlinkMetadata (versionsPath root))) fs =
      .ok (Node.directory writable).metadata := by
    rw [eval_symlinkMetadata, locate_of_real hversions.real, Option.bind_some, hdir]
    rfl
  have hregular : (Node.file content mode).metadata.fileType = .file := rfl
  have hfolder : (Node.directory writable).metadata.fileType = .directory := rfl
  unfold installVerifiedTarget
  rw [hvalid, done_ok_bind, (cautious_symlinkMetadata _ _).readOnly.exec_bind_ok hlook,
    exec_require_bind hregular]
  dsimp only
  rw [exec_ensure_bind (exec_createDirAll_of_directory hroot.canonicalize hroot.directory _),
    (cautious_symlinkMetadata _ _).readOnly.exec_bind_ok
      (by rw [eval_symlinkMetadata, hmetadata, Except.ofOption]),
    exec_require_bind htype,
    (cautious_canonicalize _ _).readOnly.exec_bind_ok
      (by rw [eval_canonicalize, hroot.canonicalize, Except.ofOption]),
    show root ++ ["versions"] = versionsPath root from rfl,
    exec_ensure_bind (exec_createDirAll_of_directory (canonicalize_of_real hversions.real)
      hversions _),
    (cautious_symlinkMetadata _ _).readOnly.exec_bind_ok hlook', exec_require_bind hfolder,
    exec_bind, exec_placeTarget_of_file hnode hdigest]
  dsimp only
  rw [(cautious_verifySlot root _).readOnly.exec_bind_ok hinstalled.verifies,
    (readOnly_readActivationState _).exec_bind_ok hread]
  exact exec_write_bind hroot.directory hpub

end

/-! ## A small installation -/

namespace Sample

def firstDigest : Digest :=
  ⟨[107, 134, 178, 115, 255, 52, 252, 225, 157, 107, 128, 78, 255, 90, 63, 87, 71, 173, 164, 234,
    162, 47, 29, 73, 192, 30, 82, 221, 183, 135, 91, 75], rfl⟩

def secondDigest : Digest :=
  ⟨[212, 115, 94, 58, 38, 94, 22, 238, 224, 63, 89, 113, 139, 155, 93, 3, 1, 156, 7, 216, 182,
    197, 31, 144, 218, 58, 102, 110, 236, 19, 171, 53], rfl⟩

/-- SHA-256 on the two targets, which are one digit long. -/
scoped instance crates : Crates where
  sha256 bytes :=
    if bytes = [49] then firstDigest else if bytes = [50] then secondDigest else zeroDigest
  verifyingKey seed := seed
  sign _ _ := filled 64 0
  verify _ _ signature := decide (signature = filled 64 0)
  verify_sign := verify_filled
  Version := ℕ
  versionOrder := inferInstance
  parseVersion _ := none

scoped instance serdeJson : SerdeJson := strictJson

/-- Two staged targets beside an empty root. -/
def emptyTable : Table := [
  ([], .directory true), (["opt"], .directory true),
  (["staged-1"], .file [49] 0o644), (["staged-2"], .file [50] 0o644)]

/-- The targets in the places of their versions. -/
def table : Table := emptyTable ++ [
  (["opt", "versions"], .directory true),
  (["opt", "versions", "1"], .directory true), (["opt", "versions", "1", "agent"], .file [49] 0o755),
  (["opt", "versions", "2"], .directory true), (["opt", "versions", "2", "agent"], .file [50] 0o755)]

def empty : FileSystem := .ofTable emptyTable (by decide) (by decide)

def populated : FileSystem := .ofTable table (by decide) (by decide)

def root : Path := ["opt"]

def path : PathBuf := ⟨true, root⟩

def config (version : String) : InstallConfig := ⟨path, version, "agent"⟩

def first : ActivationSlot := ⟨"1", "versions/1/agent", Hex.encode firstDigest.1⟩

def second : ActivationSlot := ⟨"2", "versions/2/agent", Hex.encode secondDigest.1⟩

def moment (nonce : ℕ) : Moment := ⟨7, some nonce⟩

/-- The populated installation with a recorded state. -/
structure At (state : ActivationState) (fs : FileSystem) : Prop where
  node : ∀ p, p ≠ activationPath root → fs.node p = populated.node p
  records : Records fs root state

/-- The state is valid and short enough to be written. -/
def Fits (state : ActivationState) : Prop :=
  validateState state = .ok () ∧ toVec state ≠ [] ∧ (toVec state).length ≤ MAX_ACTIVATION_STATE_BYTES

variable {state new : ActivationState} {fs fs' : FileSystem} {slot : ActivationSlot} {nonce : ℕ}

theorem fits_of_length {chars : List Char} (hvalid : validateState state = .ok ())
    (htext : toVec state = Field.utf8 (String.ofList chars))
    (hlength : 0 < (chars.flatMap String.utf8EncodeChar).length ∧
      (chars.flatMap String.utf8EncodeChar).length ≤ MAX_ACTIVATION_STATE_BYTES) : Fits state := by
  have hlen := Field.length_utf8_ofList chars
  refine ⟨hvalid, fun hnil => ?_, ?_⟩
  · rw [← htext, hnil] at hlen
    simp only [List.length_nil] at hlen
    omega
  · rw [htext, hlen]
    exact hlength.2

theorem at_populated : At ActivationState.default populated :=
  ⟨fun _ _ => rfl, .inl ⟨by decide, rfl⟩⟩

namespace At

theorem directory (h : At state fs) : fs.Directory root := by
  refine directory_iff.mpr ⟨true, ?_⟩
  rw [h.node root (by decide)]
  decide

theorem isInstallRoot (h : At state fs) : IsInstallRoot fs path root :=
  isInstallRoot_self h.directory

theorem publishable (h : At state fs) (hfits : Fits new) (nonce : ℕ) :
    Publishable fs root new (moment nonce) where
  valid := hfits.1
  fits := hfits.2
  writable := by
    unfold FileSystem.Writable
    rw [h.node root (by decide)]
    decide
  free := by
    refine ⟨nonce, rfl, ?_⟩
    have hname : temporaryName 7 nonce ≠ "versions" := temporaryName_ne (by decide)
    change fs.node (temporaryPath root 7 nonce) = none
    rw [h.node _ (temporaryPath_ne root 7 nonce)]
    simp [populated, ofTable, FileSystem.node, table, emptyTable, Table.node, temporaryPath, root,
      hname]
  target := h.records.not_directory

theorem published (h : At state fs) (hpub : Publishable fs root new (moment nonce))
    (hpublished : Published root new fs fs') : At new fs' := by
  refine ⟨fun p hp => ?_, records_of_published hpub hpublished⟩
  rw [hpublished p, if_neg hp, h.node p hp]

theorem installed (h : At state fs) (hslot : Installed populated root slot) :
    Installed fs root slot := by
  refine hslot.of_keeps fun p content mode hp hnode => ?_
  rw [h.node p, hnode]
  rintro rfl
  exact activationPath_apart root hp

theorem activate (h : At state fs) (hpending : state.pending = some slot)
    (hslot : Installed populated root slot)
    (hfits : Fits { state with active := some slot, previous := state.active, pending := none })
    (nonce : ℕ) : ∃ fs', exec device (activatePending path (moment nonce)) fs =
        (.ok { state with active := some slot, previous := state.active, pending := none }, fs') ∧
      At { state with active := some slot, previous := state.active, pending := none } fs' := by
  obtain ⟨fs', hexec, hpublished⟩ := exec_activatePending h.isInstallRoot
    (h.records.eval_read h.directory) hpending (h.installed hslot).verifies (h.publishable hfits nonce)
  exact ⟨fs', hexec, h.published (h.publishable hfits nonce) hpublished⟩

theorem install (h : At state fs) {source : Path} {version digest : String} {content : Bytes}
    {mode : ℕ} (hvalid : validateInstall (config version) digest = .ok ())
    (hsource : populated.node source = some (.file content mode))
    (hactivation : source ≠ activationPath root)
    (hslot : Installed populated root (installSlot (config version) digest))
    (hfits : Fits { state with pending := some (installSlot (config version) digest) }) (nonce : ℕ) :
    ∃ fs', exec device (installVerifiedTarget source (config version) digest (moment nonce)
        (moment nonce)) fs = (.ok (versionsPath root ++ [version] ++ ["agent"]), fs') ∧
      At { state with pending := some (installSlot (config version) digest) } fs' := by
  have hversions : fs.Directory (versionsPath root) := by
    refine directory_iff.mpr ⟨true, ?_⟩
    rw [h.node _ (by decide)]
    decide
  obtain ⟨fs', hexec, hpublished⟩ := exec_installVerifiedTarget_of_file h.isInstallRoot hvalid
    ((h.node _ hactivation).trans hsource) hversions (h.installed hslot)
    (h.records.eval_read h.directory) (h.publishable hfits nonce)
  exact ⟨fs', hexec, h.published (h.publishable hfits nonce) hpublished⟩

end At

theorem installed_first : Installed populated root first :=
  ⟨by decide +kernel, by decide +kernel, [49], 0o755, by decide +kernel, by decide +kernel⟩

theorem installed_second : Installed populated root second :=
  ⟨by decide +kernel, by decide +kernel, [50], 0o755, by decide +kernel, by decide +kernel⟩

def activeFirst : ActivationState := ⟨1, some first, none, none⟩

theorem fits_activeFirst : Fits activeFirst :=
  fits_of_length (by decide +kernel) rfl (by decide +kernel)

/-- Any state that fits can be what is recorded. -/
theorem exists_published (hfits : Fits state) : ∃ fs, Published root state populated fs :=
  ⟨_, (exec_writeActivationState at_populated.directory
    (at_populated.publishable hfits 0)).2⟩

theorem at_of_published (hfits : Fits state) (h : Published root state populated fs) : At state fs :=
  at_populated.published (at_populated.publishable hfits 0) h

end Sample

end CertaelAgent.Updater
