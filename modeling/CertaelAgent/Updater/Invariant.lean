import CertaelAgent.Updater.Recovery

/-!
# The invariant of an installation

Between any two steps the activation file is the compact text of a valid state, each of whose slots
names a regular file below `versions` with the recorded digest, and no link stands for `versions`
or for the directory of a version. What is preserved on the way, by the operations as by outside
parties that add versions, is the activation file and every file below `versions`.
-/

namespace CertaelAgent.Updater

open ProtoWire Protocol Files Files.FileSystem Program

variable {fs fs' fs'' : FileSystem} {root : Path}

def versionsPath (root : Path) : Path := root ++ ["versions"]

/-- Every file below `versions` is still there, unchanged. -/
def Keeps (root : Path) (fs fs' : FileSystem) : Prop :=
  ∀ p content mode, versionsPath root <+: p → fs.node p = some (.file content mode) →
    fs'.node p = some (.file content mode)

/-- The activation file is as it was, the files below `versions` are kept, and links have not
come in. -/
structure Preserves (root : Path) (fs fs' : FileSystem) : Prop where
  directory : fs'.Directory root
  activation : fs'.node (activationPath root) = fs.node (activationPath root)
  keeps : Keeps root fs fs'
  links : ∀ version, fs'.LinkFree (versionsPath root ++ [version])

theorem Keeps.refl (root : Path) (fs : FileSystem) : Keeps root fs fs := fun _ _ _ _ h => h

theorem Keeps.trans (h : Keeps root fs fs') (h' : Keeps root fs' fs'') : Keeps root fs fs'' :=
  fun p content mode hp hnode => h' p content mode hp (h p content mode hp hnode)

theorem Preserves.trans (h : Preserves root fs fs') (h' : Preserves root fs' fs'') :
    Preserves root fs fs'' where
  directory := h'.directory
  activation := h'.activation.trans h.activation
  keeps := h.keeps.trans h'.keeps
  links := h'.links

/-- `activation.json` has the state, or there is none and the state is the default. -/
def Records (fs : FileSystem) (root : Path) (state : ActivationState) : Prop :=
  fs.node (activationPath root) = none ∧ state = ActivationState.default ∨
    ∃ mode, fs.node (activationPath root) = some (.file (toVec state) mode) ∧
      toVec state ≠ [] ∧ (toVec state).length ≤ MAX_ACTIVATION_STATE_BYTES ∧
      validateState state = .ok ()

theorem Records.of_same {state : ActivationState} (h : Records fs root state)
    (hsame : fs'.node (activationPath root) = fs.node (activationPath root)) :
    Records fs' root state := by
  unfold Records
  rw [hsame]
  exact h

theorem Records.not_directory {state : ActivationState} (h : Records fs root state) :
    ¬ fs.Directory (activationPath root) := by
  rcases h with ⟨hnone, _⟩ | ⟨mode, hnode, _⟩
  · exact not_directory_of_none hnone
  · exact not_directory_of_file hnode

theorem Records.eval_read [SerdeJson] (hroot : fs.Directory root) {state : ActivationState}
    (h : Records fs root state) : eval device (readActivationState ⟨true, root⟩) fs = .ok state := by
  refine (eval_readActivationState_iff hroot).mpr ?_
  rcases h with ⟨hnone, rfl⟩ | ⟨mode, hnode, hne, hle, hvalid⟩
  · refine .inr ⟨?_, rfl⟩
    have hnode : fs.node (root ++ ["activation.json"]) = none := hnone
    rw [activationPath, canonicalize_concat ordinary_activation (canonicalize_of_real hroot.real)
      (by simp [hnode]), hnode]
    rfl
  · exact .inl ⟨toVec state, mode, hnode, hne, hle, SerdeJson.fromSlice_toVec state hvalid, hvalid⟩

theorem Records.unique [SerdeJson] (hroot : fs.Directory root) {state state' : ActivationState}
    (h : Records fs root state) (h' : Records fs root state') : state = state' := by
  have hread := h.eval_read hroot
  rw [h'.eval_read hroot, Except.ok.injEq] at hread
  exact hread.symm

section

variable [Crates]

/-- The slot names a regular file below `versions` with its digest. -/
structure Installed (fs : FileSystem) (root : Path) (slot : ActivationSlot) : Prop where
  valid : validateSlot slot = .ok ()
  below : versionsPath root <+: root ++ pathNames slot.relativePath
  file : ∃ content mode, fs.node (root ++ pathNames slot.relativePath) =
    some (.file content mode) ∧ Hex.encode (Crates.sha256 content).1 = slot.sha256

theorem Installed.of_keeps {slot : ActivationSlot} (h : Installed fs root slot)
    (hkeeps : Keeps root fs fs') : Installed fs' root slot where
  valid := h.valid
  below := h.below
  file := by
    obtain ⟨content, mode, hnode, hdigest⟩ := h.file
    exact ⟨content, mode, hkeeps _ _ _ h.below hnode, hdigest⟩

theorem Installed.canonicalize {slot : ActivationSlot} (h : Installed fs root slot) :
    fs.canonicalize (root ++ pathNames slot.relativePath) =
      some (root ++ pathNames slot.relativePath) := by
  obtain ⟨content, mode, hnode, _⟩ := h.file
  exact canonicalize_of_real (real_of_file hnode)

theorem Installed.verifies {slot : ActivationSlot} (h : Installed fs root slot) :
    Verifies fs root slot := by
  obtain ⟨content, mode, hnode, hdigest⟩ := h.file
  exact verifies_iff.mpr ⟨h.valid, _, content, mode, h.canonicalize, List.prefix_append _ _, hnode,
    hdigest⟩

/-- The representation invariant. -/
structure Sound (root : Path) (fs : FileSystem) : Prop where
  directory : fs.Directory root
  links : ∀ version, fs.LinkFree (versionsPath root ++ [version])
  recorded : ∃ state, Records fs root state ∧ ∀ slot ∈ state.slots, Installed fs root slot

theorem Sound.of_preserves (h : Sound root fs) (hp : Preserves root fs fs') : Sound root fs' := by
  obtain ⟨state, hstate, hslots⟩ := h.recorded
  exact ⟨hp.directory, hp.links, state, hstate.of_same hp.activation,
    fun slot hslot => (hslots slot hslot).of_keeps hp.keeps⟩

theorem Sound.installed [SerdeJson] (h : Sound root fs) {state : ActivationState}
    (hstate : Records fs root state) : ∀ slot ∈ state.slots, Installed fs root slot := by
  obtain ⟨state', hstate', hslots⟩ := h.recorded
  rwa [hstate.unique h.directory hstate']

theorem Sound.refl_preserves (h : Sound root fs) : Preserves root fs fs :=
  ⟨h.directory, rfl, Keeps.refl root fs, h.links⟩

/-! ## Frames -/

omit [Crates] in
theorem activationPath_apart (root : Path) : ¬ versionsPath root <+: activationPath root := by
  intro h
  simp [versionsPath, activationPath] at h

/-- Changes below a path at which nothing of an installation lies. -/
theorem Sound.preserves_of_below (h : Sound root fs) {t : Path} (hbelow : Below t fs fs')
    (hroot : ¬ t <+: root) (hactivation : ¬ t <+: activationPath root)
    (hfiles : ∀ p content mode, versionsPath root <+: p → t <+: p →
      fs.node p ≠ some (.file content mode)) : Preserves root fs fs' where
  directory := by
    obtain ⟨writable, hnode⟩ := directory_iff.mp h.directory
    exact directory_iff.mpr ⟨writable, by rw [hbelow.1 root hroot, hnode]⟩
  activation := hbelow.1 _ hactivation
  keeps := by
    intro p content mode hp hnode
    rw [hbelow.1 p fun ht => hfiles p content mode hp ht hnode, hnode]
  links := fun version => hbelow.linkFree (h.links version)

theorem Sound.preserves_of_staged (h : Sound root fs) {processId : ℕ}
    (hstaged : Staged root processId fs fs') : Preserves root fs fs' := by
  obtain ⟨nonce, hbelow⟩ := hstaged
  refine h.preserves_of_below hbelow (temporaryPath_apart_root root processId nonce)
    (temporaryPath_apart root processId nonce) fun p content mode hp ht => ?_
  exfalso
  rcases List.prefix_or_prefix_of_prefix hp ht with hle | hle
  · have hname : temporaryName processId nonce ≠ "versions" := temporaryName_ne (by decide)
    simp only [versionsPath, temporaryPath, List.prefix_append_right_inj] at hle
    simp [hname.symm] at hle
  · have hname : temporaryName processId nonce ≠ "versions" := temporaryName_ne (by decide)
    simp only [versionsPath, temporaryPath, List.prefix_append_right_inj] at hle
    simp [hname] at hle

omit [Crates] in
theorem keeps_of_published {state : ActivationState} (h : Published root state fs fs') :
    Keeps root fs fs' := by
  intro p content mode hp hnode
  rw [h p, if_neg, hnode]
  rintro rfl
  exact activationPath_apart root hp

omit [Crates] in
theorem records_of_published {state : ActivationState} {now : Moment}
    (hpub : Publishable fs root state now) (h : Published root state fs fs') :
    Records fs' root state :=
  .inr ⟨0o600, h.node, hpub.fits.1, hpub.fits.2, hpub.valid⟩

theorem Sound.of_published (h : Sound root fs) {state : ActivationState} {now : Moment}
    (hpub : Publishable fs root state now) (hpublished : Published root state fs fs')
    (hslots : ∀ slot ∈ state.slots, Installed fs root slot) :
    Sound root fs' ∧ Keeps root fs fs' ∧ Records fs' root state := by
  have hkeeps := keeps_of_published hpublished
  have hrecords := records_of_published hpub hpublished
  refine ⟨⟨directory_of_published h.directory hpublished, fun version => ?_, state, hrecords,
    fun slot hslot => (hslots slot hslot).of_keeps hkeeps⟩, hkeeps, hrecords⟩
  exact (hpublished.below id).linkFree (h.links version)

end

end CertaelAgent.Updater
