import CertaelAgent.Updater.Operations

/-!
# What the checks of the updater establish

The checks only read, and a read that fails makes them fail, so a check that succeeds has seen
the files as they are. The activation state is the exception: a file that cannot be looked up
counts as one that is not there.
-/

namespace CertaelAgent.Updater

open ProtoWire Protocol Files Files.FileSystem Program

variable {fs : FileSystem} {root : Path}

section

variable [Crates]

theorem cautious_hashFile (path : Path) : Cautious device (hashFile path) := by
  unfold hashFile
  refine (cautious_symlinkMetadata _ _).bind fun metadata => ?_
  refine (Cautious.require _ _).bind fun _ => ?_
  exact (cautious_read _ _).bind fun content => trivial

theorem cautious_verifySlot (root : Path) (slot : ActivationSlot) :
    Cautious device (verifySlot root slot) := by
  unfold verifySlot
  refine Cautious.bind trivial fun _ => ?_
  refine (cautious_canonicalize _ _).bind fun canonical => ?_
  refine (Cautious.require _ _).bind fun _ => ?_
  exact (cautious_hashFile canonical).bind fun digest => Cautious.require _ _

theorem eval_hashFile (path : Path) (fs : FileSystem) : eval device (hashFile path) fs = (do
    let metadata ← Except.ofOption .verification (((fs.locate path).bind fs.node).map Node.metadata)
    Except.require .verification (metadata.fileType = .file)
    let content ← Except.ofOption .verification (fs.contentAt path)
    return Hex.encode (Crates.sha256 content).1) := by
  unfold hashFile
  rw [(cautious_symlinkMetadata _ _).readOnly.eval_bind, eval_symlinkMetadata]
  congr 1
  funext metadata
  rw [(Cautious.require _ _).readOnly.eval_bind, eval_require]
  congr 1
  funext _
  rw [(cautious_read _ _).readOnly.eval_bind, eval_read]
  rfl

theorem eval_hashFile_of_file {p : Path} {content : Bytes} {mode : ℕ}
    (h : fs.node p = some (.file content mode)) :
    eval device (hashFile p) fs = .ok (Hex.encode (Crates.sha256 content).1) := by
  rw [eval_hashFile, locate_of_real (real_of_file h), Option.bind_some, h, contentAt_of_file h]
  rfl

theorem file_of_eval_hashFile {p : Path} {digest : String}
    (hlocate : ∀ q, fs.locate p = some q → q = p)
    (h : eval device (hashFile p) fs = .ok digest) : ∃ content mode,
      fs.node p = some (.file content mode) ∧ digest = Hex.encode (Crates.sha256 content).1 := by
  rw [eval_hashFile] at h
  obtain ⟨metadata, hmetadata, h⟩ := Except.bind_eq_ok_iff.mp h
  obtain ⟨_, hfile, h⟩ := Except.bind_eq_ok_iff.mp h
  obtain ⟨content, hcontent, h⟩ := Except.bind_eq_ok_iff.mp h
  rw [Except.ofOption_eq_ok_iff] at hmetadata hcontent
  rw [Except.require_eq_ok_iff] at hfile
  obtain ⟨q, hq⟩ : ∃ q, fs.locate p = some q := by
    cases hq : fs.locate p with
    | none => simp [hq] at hmetadata
    | some q => exact ⟨q, rfl⟩
  rw [hq, hlocate q hq, Option.bind_some] at hmetadata
  cases hnode : fs.node p with
  | none => simp [hnode] at hmetadata
  | some n =>
    cases n with
    | directory writable =>
      rw [hnode, Option.map_some, Option.some.injEq] at hmetadata
      rw [← hmetadata] at hfile
      simp [Node.metadata] at hfile
    | symlink absolute target =>
      rw [hnode, Option.map_some, Option.some.injEq] at hmetadata
      rw [← hmetadata] at hfile
      simp [Node.metadata] at hfile
    | file c mode =>
      rw [contentAt_of_file hnode] at hcontent
      refine ⟨c, mode, rfl, ?_⟩
      rw [Option.some.inj hcontent]
      exact (Except.ok.inj h).symm

/-- The slot passes `verify_slot`. -/
def Verifies (fs : FileSystem) (root : Path) (slot : ActivationSlot) : Prop :=
  eval device (verifySlot root slot) fs = .ok ()

theorem eval_verifySlot (root : Path) (slot : ActivationSlot) (fs : FileSystem) :
    eval device (verifySlot root slot) fs = (do
      validateSlot slot
      let canonical ← Except.ofOption .verification (fs.canonicalize (join root slot.relativePath))
      Except.require .verification (root <+: canonical)
      let digest ← eval device (hashFile canonical) fs
      Except.require .verification (digest = slot.sha256)) := by
  unfold verifySlot
  rw [(show ReadOnly device (done (validateSlot slot)) from trivial).eval_bind, eval_done]
  congr 1
  funext _
  rw [(cautious_canonicalize _ _).readOnly.eval_bind, eval_canonicalize]
  congr 1
  funext canonical
  rw [(Cautious.require _ _).readOnly.eval_bind, eval_require]
  congr 1
  funext _
  rw [(cautious_hashFile canonical).readOnly.eval_bind]
  congr 1
  funext digest
  rw [eval_require]

theorem verifies_iff {slot : ActivationSlot} : Verifies fs root slot ↔
    validateSlot slot = .ok () ∧ ∃ canonical content mode,
      fs.canonicalize (root ++ pathNames slot.relativePath) = some canonical ∧
        root <+: canonical ∧ fs.node canonical = some (.file content mode) ∧
        Hex.encode (Crates.sha256 content).1 = slot.sha256 := by
  unfold Verifies
  rw [eval_verifySlot, Except.bind_eq_ok_iff]
  constructor
  · rintro ⟨_, hvalid, h⟩
    rw [join_of_validateSlot hvalid] at h
    obtain ⟨canonical, hcanonical, h⟩ := Except.bind_eq_ok_iff.mp h
    obtain ⟨_, hbelow, h⟩ := Except.bind_eq_ok_iff.mp h
    obtain ⟨digest, hhash, h⟩ := Except.bind_eq_ok_iff.mp h
    rw [Except.ofOption_eq_ok_iff] at hcanonical
    rw [Except.require_eq_ok_iff] at hbelow h
    have hlocate := locate_of_real (real_of_canonicalize hcanonical)
    obtain ⟨content, mode, hnode, hdigest⟩ :=
      file_of_eval_hashFile (fun q hq => Option.some.inj (hq.symm.trans hlocate)) hhash
    exact ⟨hvalid, canonical, content, mode, hcanonical, hbelow, hnode, hdigest ▸ h⟩
  · rintro ⟨hvalid, canonical, content, mode, hcanonical, hbelow, hnode, hdigest⟩
    refine ⟨(), hvalid, ?_⟩
    rw [join_of_validateSlot hvalid, hcanonical, Except.ofOption, Except.ok_bind,
      Except.require, if_pos hbelow, Except.ok_bind, eval_hashFile_of_file hnode, Except.ok_bind]
    exact if_pos hdigest

end

/-! ## The install root -/

theorem cautious_canonicalInstallRoot (path : PathBuf) :
    Cautious device (canonicalInstallRoot path) := by
  unfold canonicalInstallRoot
  refine (Cautious.require _ _).bind fun _ => ?_
  refine (cautious_symlinkMetadata _ _).bind fun metadata => ?_
  exact (Cautious.require _ _).bind fun _ => cautious_canonicalize _ _

theorem eval_canonicalInstallRoot (path : PathBuf) (fs : FileSystem) :
    eval device (canonicalInstallRoot path) fs = (do
      Except.require .invalidConfiguration (path.absolute = true)
      let metadata ← Except.ofOption .invalidConfiguration
        (((fs.locate path.names).bind fs.node).map Node.metadata)
      Except.require .invalidConfiguration (metadata.fileType = .directory)
      Except.ofOption .invalidConfiguration (fs.canonicalize path.names)) := by
  unfold canonicalInstallRoot
  rw [(Cautious.require _ _).readOnly.eval_bind, eval_require]
  congr 1
  funext _
  rw [(cautious_symlinkMetadata _ _).readOnly.eval_bind, eval_symlinkMetadata]
  congr 1
  funext metadata
  rw [(Cautious.require _ _).readOnly.eval_bind, eval_require]
  congr 1
  funext _
  rw [eval_canonicalize]

/-- The path is an install root, and `root` is its canonical form. -/
def IsInstallRoot (fs : FileSystem) (path : PathBuf) (root : Path) : Prop :=
  eval device (canonicalInstallRoot path) fs = .ok root

theorem isInstallRoot_self (h : fs.Directory root) : IsInstallRoot fs ⟨true, root⟩ root := by
  obtain ⟨writable, hnode⟩ := directory_iff.mp h
  unfold IsInstallRoot
  rw [eval_canonicalInstallRoot, locate_of_real h.real, Option.bind_some, hnode,
    canonicalize_of_real h.real]
  rfl

theorem IsInstallRoot.canonicalize {path : PathBuf} (h : IsInstallRoot fs path root) :
    fs.canonicalize path.names = some root := by
  unfold IsInstallRoot at h
  rw [eval_canonicalInstallRoot] at h
  obtain ⟨_, _, h⟩ := Except.bind_eq_ok_iff.mp h
  obtain ⟨_, _, h⟩ := Except.bind_eq_ok_iff.mp h
  obtain ⟨_, _, h⟩ := Except.bind_eq_ok_iff.mp h
  exact Except.ofOption_eq_ok_iff.mp h

theorem IsInstallRoot.directory {path : PathBuf} (h : IsInstallRoot fs path root) :
    fs.Directory root := by
  have hcanonical := h.canonicalize
  unfold IsInstallRoot at h
  rw [eval_canonicalInstallRoot] at h
  obtain ⟨_, _, h⟩ := Except.bind_eq_ok_iff.mp h
  obtain ⟨metadata, hmetadata, h⟩ := Except.bind_eq_ok_iff.mp h
  obtain ⟨_, htype, h⟩ := Except.bind_eq_ok_iff.mp h
  rw [Except.ofOption_eq_ok_iff, Option.map_eq_some_iff] at hmetadata
  rw [Except.require_eq_ok_iff] at htype
  obtain ⟨n, hn, rfl⟩ := hmetadata
  obtain ⟨q, hq, hnode⟩ := Option.bind_eq_some_iff.mp hn
  have hdir : fs.Directory q := by
    refine ⟨n, hnode, ?_⟩
    cases n with
    | directory writable => trivial
    | file content mode => simp [Node.metadata] at htype
    | symlink absolute target => simp [Node.metadata] at htype
  rw [canonicalize_of_locate hq hdir.real] at hcanonical
  rwa [← Option.some.inj hcanonical]

/-! ## The activation state -/

theorem ordinary_activation : Ordinary "activation.json" := by decide

section

variable [SerdeJson]

theorem readOnly_readActivationStateCanonical (root : Path) :
    ReadOnly device (readActivationStateCanonical root) := by
  unfold readActivationStateCanonical
  refine ⟨rfl, fun found => ?_⟩
  show ReadOnly device (ite _ _ _)
  split_ifs
  · refine (cautious_symlinkMetadata _ _).readOnly.bind fun metadata => ?_
    refine (Cautious.require _ _).readOnly.bind fun _ => ?_
    refine (cautious_read _ _).readOnly.bind fun bytes => ?_
    refine (Cautious.expect_done _ _).readOnly.bind fun state => ?_
    exact ReadOnly.bind trivial fun _ => trivial
  · trivial

theorem readOnly_readActivationState (path : PathBuf) :
    ReadOnly device (readActivationState path) :=
  (cautious_canonicalInstallRoot path).readOnly.bind readOnly_readActivationStateCanonical

/-- The steps behind the look whether there is a file. -/
def loadActivationState (root : Path) : FileProgram UpdateError ActivationState := do
  let metadata ← expect .invalidActivationState (symlinkMetadata (activationPath root))
  require .invalidActivationState (metadata.fileType = .file ∧ metadata.len ≠ 0 ∧
    metadata.len ≤ MAX_ACTIVATION_STATE_BYTES)
  let bytes ← expect .invalidActivationState (read (activationPath root))
  let state ← expect .invalidActivationState (pure (SerdeJson.fromSlice bytes))
  done (validateState state)
  return state

theorem readActivationStateCanonical_eq (root : Path) : readActivationStateCanonical root =
    .call (.pathExists (activationPath root)) fun found =>
      if found = true then loadActivationState root else done (.ok ActivationState.default) :=
  rfl

theorem cautious_loadActivationState (root : Path) : Cautious device (loadActivationState root) := by
  unfold loadActivationState
  refine (cautious_symlinkMetadata _ _).bind fun metadata => ?_
  refine (Cautious.require _ _).bind fun _ => ?_
  refine (cautious_read _ _).bind fun bytes => ?_
  refine (Cautious.expect_done _ _).bind fun state => ?_
  exact Cautious.bind trivial fun _ => trivial

theorem eval_loadActivationState (root : Path) (fs : FileSystem) :
    eval device (loadActivationState root) fs = (do
      let metadata ← Except.ofOption .invalidActivationState
        (((fs.locate (activationPath root)).bind fs.node).map Node.metadata)
      Except.require .invalidActivationState (metadata.fileType = .file ∧ metadata.len ≠ 0 ∧
        metadata.len ≤ MAX_ACTIVATION_STATE_BYTES)
      let bytes ← Except.ofOption .invalidActivationState (fs.contentAt (activationPath root))
      let state ← Except.ofOption .invalidActivationState (SerdeJson.fromSlice bytes)
      validateState state
      return state) := by
  unfold loadActivationState
  rw [(cautious_symlinkMetadata _ _).readOnly.eval_bind, eval_symlinkMetadata]
  congr 1
  funext metadata
  rw [(Cautious.require _ _).readOnly.eval_bind, eval_require]
  congr 1
  funext _
  rw [(cautious_read _ _).readOnly.eval_bind, eval_read]
  congr 1
  funext bytes
  rw [pure_eq_done, (Cautious.expect_done _ _).readOnly.eval_bind, eval_expect_done]
  congr 1
  funext state
  rw [(show ReadOnly device (done (validateState state)) from trivial).eval_bind, eval_done]
  rfl

/-- The file holds the state, in a form that the reader takes. -/
def Holds (fs : FileSystem) (root : Path) (state : ActivationState) : Prop :=
  ∃ bytes mode, fs.node (activationPath root) = some (.file bytes mode) ∧ bytes ≠ [] ∧
    bytes.length ≤ MAX_ACTIVATION_STATE_BYTES ∧ SerdeJson.fromSlice bytes = some state ∧
    validateState state = .ok ()

theorem eval_loadActivationState_iff (hroot : fs.Directory root) {state : ActivationState} :
    eval device (loadActivationState root) fs = .ok state ↔ Holds fs root state := by
  have hlocate : fs.locate (activationPath root) = some (activationPath root) :=
    locate_append hroot ordinary_activation
  rw [eval_loadActivationState, hlocate, Option.bind_some]
  constructor
  · intro h
    obtain ⟨metadata, hmetadata, h⟩ := Except.bind_eq_ok_iff.mp h
    obtain ⟨_, hcheck, h⟩ := Except.bind_eq_ok_iff.mp h
    obtain ⟨bytes, hbytes, h⟩ := Except.bind_eq_ok_iff.mp h
    obtain ⟨state', hstate, h⟩ := Except.bind_eq_ok_iff.mp h
    obtain ⟨_, hvalid, h⟩ := Except.bind_eq_ok_iff.mp h
    rw [Except.ofOption_eq_ok_iff] at hmetadata hbytes hstate
    rw [Except.require_eq_ok_iff] at hcheck
    rw [← Except.ok.inj h]
    obtain ⟨n, hn, rfl⟩ := Option.map_eq_some_iff.mp hmetadata
    cases n with
    | directory writable => simp [Node.metadata] at hcheck
    | symlink absolute target => simp [Node.metadata] at hcheck
    | file content mode =>
      rw [contentAt_of_file hn, Option.some.injEq] at hbytes
      subst hbytes
      obtain ⟨_, hne, hle⟩ := hcheck
      exact ⟨content, mode, hn, by simpa [Node.metadata] using hne, hle, hstate, hvalid⟩
  · rintro ⟨bytes, mode, hnode, hne, hle, hstate, hvalid⟩
    have hcheck : (Node.file bytes mode).metadata.fileType = .file ∧
        (Node.file bytes mode).metadata.len ≠ 0 ∧
        (Node.file bytes mode).metadata.len ≤ MAX_ACTIVATION_STATE_BYTES :=
      ⟨rfl, by simpa [Node.metadata] using hne, hle⟩
    rw [hnode, contentAt_of_file hnode, Option.map_some, Except.ofOption, Except.ok_bind,
      Except.require, if_pos hcheck, Except.ok_bind, Except.ofOption, Except.ok_bind, hstate,
      Except.ofOption, Except.ok_bind, hvalid]
    rfl

theorem eval_readActivationStateCanonical_iff (hroot : fs.Directory root)
    {state : ActivationState} :
    eval device (readActivationStateCanonical root) fs = .ok state ↔
      Holds fs root state ∨
        fs.canonicalize (activationPath root) = none ∧ state = ActivationState.default := by
  rw [readActivationStateCanonical_eq]
  show eval device (ite ((fs.canonicalize (activationPath root)).isSome = true) _ _) fs = _ ↔ _
  split_ifs with hfound
  · rw [eval_loadActivationState_iff hroot]
    constructor
    · exact .inl
    · rintro (h | ⟨hnone, _⟩)
      · exact h
      · simp [hnone] at hfound
  · constructor
    · intro h
      exact .inr ⟨by simpa using hfound, (Except.ok.inj h).symm⟩
    · rintro (⟨bytes, mode, hnode, _⟩ | ⟨_, rfl⟩)
      · rw [canonicalize_of_real (real_of_file hnode)] at hfound
        exact absurd rfl hfound
      · rfl

theorem eval_readActivationState_iff (hroot : fs.Directory root) {state : ActivationState} :
    eval device (readActivationState ⟨true, root⟩) fs = .ok state ↔
      Holds fs root state ∨
        fs.canonicalize (activationPath root) = none ∧ state = ActivationState.default := by
  unfold readActivationState
  rw [(cautious_canonicalInstallRoot _).readOnly.eval_bind, isInstallRoot_self hroot,
    Except.ok_bind, eval_readActivationStateCanonical_iff hroot]

end

end CertaelAgent.Updater
