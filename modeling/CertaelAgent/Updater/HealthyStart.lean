import CertaelAgent.Updater.Tampering

/-!
# Starting a healthy installation

The launcher resolves the active slot behind a recovery, and recovery always writes. A start of an
installation in which every slot verifies therefore asks for write permission, and leaves the file
system alone only where the file already is what recovery writes.
-/

namespace CertaelAgent.Updater

open ProtoWire Protocol Files Files.FileSystem Program

section

variable [Crates] [SerdeJson] {fs fs' : FileSystem} {path : PathBuf} {root target : Path}
  {state : ActivationState} {now : Moment} {slot : ActivationSlot}

omit [Crates] in
theorem holds_of_slot (hroot : fs.Directory root)
    (hread : eval device (readActivationState ⟨true, root⟩) fs = .ok state)
    (hslot : slot ∈ state.slots) : Holds fs root state := by
  rcases (eval_readActivationState_iff hroot).mp hread with h | ⟨_, rfl⟩
  · exact h
  · simp at hslot

omit [SerdeJson] in
theorem verifies_of_same_nodes (h : Verifies fs root slot) (hsame : ∀ p, fs'.node p = fs.node p) :
    Verifies fs' root slot :=
  h.transfer (canonicalize_congr fun p => .inl (hsame p)) fun p _ _ _ _ => hsame p

/-- The file is as recovery writes it. -/
def Written (fs : FileSystem) (root : Path) (state : ActivationState) : Prop :=
  fs.node (activationPath root) = some (.file (toVec state) 0o600)

omit [Crates] in
theorem publishable_of_written (hroot : fs.Directory root)
    (hread : eval device (readActivationState ⟨true, root⟩) fs = .ok state)
    (hslot : slot ∈ state.slots) (hwritable : fs.Writable root)
    (hfree : TemporaryFree fs root now) (hwritten : Written fs root state) :
    Publishable fs root state now := by
  obtain ⟨bytes, mode, hnode, hne, hle, _, hvalid⟩ := holds_of_slot hroot hread hslot
  unfold Written at hwritten
  obtain ⟨rfl, _⟩ : bytes = toVec state ∧ mode = 0o600 := by
    rwa [hnode, Option.some.injEq, Node.file.injEq] at hwritten
  exact ⟨hvalid, ⟨hne, hle⟩, hwritable, hfree, not_directory_of_file hnode⟩

theorem publishable_of_activeTarget (hroot : IsInstallRoot fs path root)
    (hok : (exec device (activeTarget path now) fs).1 = .ok target) :
    ∃ newState, Publishable fs root newState now := by
  rcases hexec : exec device (activeTarget path now) fs with ⟨r, fs'⟩
  rw [hexec] at hok
  subst hok
  obtain ⟨newState, hrecover, _⟩ := exec_activeTarget_ok hroot hexec
  obtain ⟨_, _, _, hpub, _⟩ := exec_recover_ok (isInstallRoot_self hroot.directory) hrecover
  exact ⟨newState, hpub⟩

/-- A start of a healthy installation succeeds and leaves everything as it is exactly if the caller
may write to the root, has a temporary name to write to, and finds the file as it would write it. -/
theorem activeTarget_leaves_iff (hroot : IsInstallRoot fs path root)
    (hread : eval device (readActivationState ⟨true, root⟩) fs = .ok state)
    (hverified : ∀ slot ∈ state.slots, Verifies fs root slot) (hactive : state.active = some slot)
    (htarget : fs.canonicalize (root ++ pathNames slot.relativePath) = some target) :
    ((exec device (activeTarget path now) fs).1 = .ok target ∧
        ∀ p, (exec device (activeTarget path now) fs).2.node p = fs.node p) ↔
      fs.Writable root ∧ TemporaryFree fs root now ∧ Written fs root state := by
  have hself := isInstallRoot_self hroot.directory
  have hslot : slot ∈ state.slots := ActivationState.mem_slots.mpr (.inl hactive)
  constructor
  · rintro ⟨hok, hsame⟩
    rcases hexec : exec device (activeTarget path now) fs with ⟨r, fs'⟩
    rw [hexec] at hok hsame
    subst hok
    obtain ⟨newState, hrecover, _⟩ := exec_activeTarget_ok hroot hexec
    obtain ⟨_, _, _, hpub, hpublished⟩ := exec_recover_ok hself hrecover
    obtain rfl := (recover_of_sound hself hread hverified).1 newState fs' hrecover
    exact ⟨hpub.writable, hpub.free, (hsame _).symm.trans hpublished.node⟩
  · rintro ⟨hwritable, hfree, hwritten⟩
    have hpub : Publishable fs root state now :=
      publishable_of_written hroot.directory hread hslot hwritable hfree hwritten
    obtain ⟨fs', hrecover, hpublished⟩ :=
      exec_recover_of_publishable hself hread (repaired_of_sound hverified) hpub
    have hsame : ∀ p, fs'.node p = fs.node p := by
      intro p
      rw [hpublished p]
      split_ifs with hp
      · rw [hp]
        exact hwritten.symm
      · rfl
    have hresolve : eval device (resolveActive root state) fs' = .ok target := by
      refine eval_resolveActive_iff.mpr
        ⟨slot, hactive, verifies_of_same_nodes (hverified slot hslot) hsame, ?_⟩
      rw [canonicalize_congr fun p => .inl (hsame p), htarget]
    rw [exec_activeTarget hroot, hrecover]
    exact ⟨hresolve, hsame⟩

end

open Updater.Sample in
theorem activeTarget_leaves_iff_sample : ∃ fs, At activeFirst fs ∧
    (exec device (activeTarget path (moment 0)) fs).1 = .ok ["opt", "versions", "1", "agent"] ∧
    ∀ p, (exec device (activeTarget path (moment 0)) fs).2.node p = fs.node p := by
  obtain ⟨fs, hpublished⟩ := exists_published fits_activeFirst
  have hat := at_of_published fits_activeFirst hpublished
  have hfirst := hat.installed installed_first
  have hpub := hat.publishable fits_activeFirst 0
  have hslots : ∀ slot ∈ activeFirst.slots, Verifies fs Sample.root slot := by
    intro slot hslot
    rw [List.mem_singleton.mp hslot]
    exact hfirst.verifies
  have htarget : fs.canonicalize (Sample.root ++ pathNames first.relativePath) =
      some ["opt", "versions", "1", "agent"] := by
    rw [hfirst.canonicalize]
    decide +kernel
  exact ⟨fs, hat, (activeTarget_leaves_iff hat.isInstallRoot
    (hat.records.eval_read hat.directory) hslots rfl htarget).mpr
    ⟨hpub.writable, hpub.free, hpublished.node⟩⟩

namespace Sample

/-- The installation of the first version, below a root that the caller may not write to. -/
def readOnlyTable : Table :=
  (["opt"], .directory false) ::
    (["opt", "activation.json"], .file (toVec activeFirst) 0o600) :: table

def readOnly : FileSystem := .ofTable readOnlyTable (by decide) (by decide)

theorem node_readOnly {p : Path} (hroot : p ≠ root) (hactivation : p ≠ activationPath root) :
    readOnly.node p = populated.node p := by
  have hkeys : p ≠ ["opt"] ∧ p ≠ ["opt", "activation.json"] := ⟨hroot, hactivation⟩
  simp [readOnly, populated, ofTable, FileSystem.node, readOnlyTable, Table.node, hkeys]

theorem isInstallRoot_readOnly : IsInstallRoot readOnly path root :=
  isInstallRoot_self (directory_iff.mpr ⟨false, by decide⟩)

theorem records_readOnly : Records readOnly root activeFirst :=
  .inr ⟨0o600, rfl, fits_activeFirst.2.1, fits_activeFirst.2.2, fits_activeFirst.1⟩

theorem installed_readOnly : Installed readOnly root first := by
  refine installed_first.of_keeps fun p content mode hp hnode => ?_
  rw [node_readOnly, hnode]
  · rintro rfl
    exact absurd hp.length_le (by decide)
  · rintro rfl
    exact activationPath_apart root hp

end Sample

open Updater.Sample in
/-- An ordinary user cannot start an installation that belongs to someone else. -/
theorem not_activeTarget_leaves : ¬ ∀ (fs : FileSystem) (path : PathBuf) (root target : Path)
    (state : ActivationState) (slot : ActivationSlot) (now : Moment), IsInstallRoot fs path root →
    eval device (readActivationState ⟨true, root⟩) fs = .ok state →
    (∀ slot ∈ state.slots, Verifies fs root slot) → state.active = some slot →
    fs.canonicalize (root ++ pathNames slot.relativePath) = some target →
    (exec device (activeTarget path now) fs).1 = .ok target ∧
      ∀ p, (exec device (activeTarget path now) fs).2.node p = fs.node p := by
  intro h
  have hslots : ∀ slot ∈ activeFirst.slots, Verifies readOnly Sample.root slot := by
    intro slot hslot
    rw [List.mem_singleton.mp hslot]
    exact installed_readOnly.verifies
  have hok := (h readOnly path Sample.root _ activeFirst first (moment 0) isInstallRoot_readOnly
    (records_readOnly.eval_read isInstallRoot_readOnly.directory) hslots rfl
    installed_readOnly.canonicalize).1
  obtain ⟨_, hpub⟩ := publishable_of_activeTarget isInstallRoot_readOnly hok
  exact absurd hpub.writable (by decide)

end CertaelAgent.Updater
