import CertaelAgent.Updater.Undisturbed

/-!
# Recovery of a tampered installation

Nothing is assumed of what lies below the install root. Writing the recovered state changes one
file, so whatever verified before verifies afterwards, unless it is `activation.json` itself that
is taken for an executable; a file that names its own digest would be needed for that.
-/

namespace CertaelAgent.Updater

open ProtoWire Protocol Files Files.FileSystem Program

section

variable [Crates] [SerdeJson] {fs fs' : FileSystem} {path : PathBuf} {root : Path}
  {state repairedState : ActivationState} {now : Moment}

omit [SerdeJson] in
/-- What a slot needs: its path leads where it led, and to a file with the same digest. -/
theorem Verifies.transfer {slot : ActivationSlot} (h : Verifies fs root slot)
    (hpath : ∀ p, fs'.canonicalize p = fs.canonicalize p)
    (hfile : ∀ p content mode, fs.node p = some (.file content mode) →
      Hex.encode (Crates.sha256 content).1 = slot.sha256 → fs'.node p = fs.node p) :
    Verifies fs' root slot := by
  obtain ⟨hvalid, canonical, content, mode, hcanonical, hbelow, hnode, hdigest⟩ := verifies_iff.mp h
  refine verifies_iff.mpr ⟨hvalid, canonical, content, mode, ?_, hbelow, ?_, hdigest⟩
  · rw [hpath, hcanonical]
  · rw [hfile canonical content mode hnode hdigest, hnode]

omit [SerdeJson] in
/-- The activation file does not name the digest of its own bytes: SHA-256 leaves no way to write
such a file. -/
def NoSelfDigest (fs : FileSystem) (root : Path) (state : ActivationState) : Prop :=
  ∀ bytes mode, fs.node (activationPath root) = some (.file bytes mode) →
    ∀ slot ∈ state.slots, slot.sha256 ≠ Hex.encode (Crates.sha256 bytes).1

omit [SerdeJson] in
theorem Verifies.of_published {slot : ActivationSlot} (h : Verifies fs root slot)
    {bytes : Bytes} {mode : ℕ} (hfile : fs.node (activationPath root) = some (.file bytes mode))
    (hself : slot.sha256 ≠ Hex.encode (Crates.sha256 bytes).1)
    (hpublished : Published root repairedState fs fs') : Verifies fs' root slot := by
  refine h.transfer (canonicalize_congr fun p => ?_) fun p content mode' hnode hdigest => ?_
  · by_cases hp : p = activationPath root
    · refine .inr ⟨bytes, mode, toVec repairedState, 0o600, ?_, ?_⟩
      · rw [hp, hfile]
      · rw [hp, hpublished.node]
    · exact .inl (by rw [hpublished p, if_neg hp])
  · have hp : p ≠ activationPath root := by
      rintro rfl
      rw [hfile, Option.some.injEq, Node.file.injEq] at hnode
      exact hself (by rw [hnode.1, hdigest])
    rw [hpublished p, if_neg hp]

theorem verifies_of_recovered (hroot : fs.Directory root)
    (hread : eval device (readActivationState ⟨true, root⟩) fs = .ok state)
    (hself : NoSelfDigest fs root state)
    (hrepair : repaired (fun slot => eval device (verifySlot root slot) fs) state =
      .ok repairedState) (hpublished : Published root repairedState fs fs') :
    ∀ slot ∈ repairedState.slots, Verifies fs' root slot := by
  intro slot hslot
  obtain ⟨hmem, hverify⟩ := mem_slots_of_repaired hrepair hslot
  rcases (eval_readActivationState_iff hroot).mp hread with ⟨bytes, mode, hfile, _⟩ | ⟨_, rfl⟩
  · exact Verifies.of_published hverify hfile (hself bytes mode hfile slot hmem) hpublished
  · simp at hmem

/-- A state that recovery may make of another one, with the system it is persisted in. -/
structure RecoveredFrom (root : Path) (fs : FileSystem) (state : ActivationState)
    (fs' : FileSystem) (newState : ActivationState) : Prop where
  persisted : eval device (readActivationState ⟨true, root⟩) fs' = .ok newState
  verified : ∀ slot ∈ newState.slots, Verifies fs' root slot
  absent : state.active = none → newState.active = none
  kept : ∀ slot, state.active = some slot → Verifies fs root slot → newState.active = some slot
  replaced : ∀ slot, state.active = some slot → ¬ Verifies fs root slot →
    ∃ previous, state.previous = some previous ∧ newState.active = some previous
  pending : newState.pending = state.pending ∨ newState.pending = none ∧
    ∃ slot, state.pending = some slot ∧ ¬ Verifies fs root slot

theorem recoveredFrom_of_repaired (hroot : fs.Directory root)
    (hread : eval device (readActivationState ⟨true, root⟩) fs = .ok state)
    (hself : NoSelfDigest fs root state)
    (hrepair : repaired (fun slot => eval device (verifySlot root slot) fs) state =
      .ok repairedState) (hpub : Publishable fs root repairedState now)
    (hpublished : Published root repairedState fs fs') :
    RecoveredFrom root fs state fs' repairedState := by
  obtain ⟨_, hpending, hactive⟩ := repaired_eq_ok hrepair
  have hdamaged : ∀ slot, state.active = some slot → ¬ Verifies fs root slot →
      damaged (fun slot => eval device (verifySlot root slot) fs) state.active = true :=
    fun slot hslot h => damaged_eq_true_iff.mpr ⟨slot, hslot, h⟩
  have hsound : (∀ slot, state.active = some slot → Verifies fs root slot) →
      repairedState.active = state.active := by
    intro h
    rcases hactive with ⟨_, hsame, _⟩ | ⟨hdamaged, _⟩
    · exact hsame
    · rw [damaged_eq_false_iff.mpr h] at hdamaged
      simp at hdamaged
  refine ⟨eval_read_of_published hroot hpub hpublished,
    verifies_of_recovered hroot hread hself hrepair hpublished, fun hnone => ?_,
    fun slot hslot h => ?_, fun slot hslot h => ?_, ?_⟩
  · rw [hsound (by simp [hnone]), hnone]
  · rw [hsound fun s hs => by rwa [← Option.some.inj (hslot.symm.trans hs)], hslot]
  · rcases hactive with ⟨hnot, _⟩ | ⟨_, previous, hprevious, _, hnew, _⟩
    · rw [hdamaged slot hslot h] at hnot
      simp at hnot
    · exact ⟨previous, hprevious, hnew⟩
  · rw [hpending]
    split_ifs with hlost
    · exact .inr ⟨rfl, damaged_eq_true_iff.mp hlost⟩
    · exact .inl rfl

/-- Where every slot verifies, recovery keeps the state, and only a temporary name that is taken
stops it from being written again. -/
theorem recover_of_sound (hroot : IsInstallRoot fs path root)
    (hread : eval device (readActivationState ⟨true, root⟩) fs = .ok state)
    (hsound : ∀ slot ∈ state.slots, Verifies fs root slot) :
    (∀ again fs', exec device (recover path now) fs = (.ok again, fs') → again = state) ∧
      (Publishable fs root state now →
        ∃ fs', exec device (recover path now) fs = (.ok state, fs')) := by
  have hrepair : repaired (fun slot => eval device (verifySlot root slot) fs) state = .ok state :=
    repaired_of_sound hsound
  constructor
  · intro again fs' h
    obtain ⟨state', hread', hrepair', _⟩ := exec_recover_ok hroot h
    rw [hread, Except.ok.injEq] at hread'
    rw [← hread', hrepair, Except.ok.injEq] at hrepair'
    exact hrepair'.symm
  · intro hpub
    obtain ⟨fs', h, _⟩ := exec_recover_of_publishable hroot hread hrepair hpub
    exact ⟨fs', h⟩

omit [Crates] [SerdeJson] in
theorem publishable_again {later : Moment} (hpub : Publishable fs root state now)
    (hpublished : Published root state fs fs') (hfree : TemporaryFree fs' root later) :
    Publishable fs' root state later where
  valid := hpub.valid
  fits := hpub.fits
  writable := by
    have hne : root ≠ activationPath root := by simp [activationPath]
    unfold FileSystem.Writable
    rw [hpublished root, if_neg hne]
    exact hpub.writable
  free := hfree
  target := not_directory_of_file hpublished.node

theorem exec_recover_error (hroot : IsInstallRoot fs path root)
    (hread : eval device (readActivationState ⟨true, root⟩) fs = .ok state)
    {slot : ActivationSlot} (hactive : state.active = some slot) (hslot : ¬ Verifies fs root slot)
    (hprevious : ∀ previous, state.previous = some previous → ¬ Verifies fs root previous) :
    ∃ e, exec device (recover path now) fs = (.error e, fs) := by
  obtain ⟨e, herror⟩ : ∃ e,
      repaired (fun slot => eval device (verifySlot root slot) fs) state = .error e :=
    repaired_error (damaged_eq_true_iff.mpr ⟨slot, hactive, hslot⟩) hprevious
  refine ⟨e, ?_⟩
  rw [exec_recover hroot, hread]
  simp only [herror]

/-- Recovery without faults, of whatever is found below the root. -/
theorem recover_tampered (hroot : IsInstallRoot fs path root)
    (hread : eval device (readActivationState ⟨true, root⟩) fs = .ok state)
    (hself : NoSelfDigest fs root state) :
    (∀ newState fs', exec device (recover path now) fs = (.ok newState, fs') →
      RecoveredFrom root fs state fs' newState ∧
      ∀ path' later, IsInstallRoot fs' path' root →
        (∀ again fs'', exec device (recover path' later) fs' = (.ok again, fs'') →
          again = newState) ∧
        (TemporaryFree fs' root later →
          ∃ fs'', exec device (recover path' later) fs' = (.ok newState, fs''))) ∧
    (∀ target fs', exec device (activeTarget path now) fs = (.ok target, fs') →
      ∃ newState active content mode,
        eval device (readActivationState ⟨true, root⟩) fs' = .ok newState ∧
        newState.active = some active ∧ root <+: target ∧
        fs'.node target = some (.file content mode) ∧
        Hex.encode (Crates.sha256 content).1 = active.sha256) ∧
    (∀ slot, state.active = some slot → ¬ Verifies fs root slot →
      (∀ previous, state.previous = some previous → ¬ Verifies fs root previous) →
      (∃ e, (exec device (recover path now) fs).1 = .error e) ∧
        ∃ e, (exec device (activeTarget path now) fs).1 = .error e) := by
  have hself' := isInstallRoot_self hroot.directory
  refine ⟨fun newState fs' h => ?_, fun target fs' h => ?_, fun slot hactive hslot hprevious => ?_⟩
  · obtain ⟨state', hread', hrepair, hpub, hpublished⟩ := exec_recover_ok hroot h
    obtain rfl : state = state' := by rwa [hread, Except.ok.injEq] at hread'
    have hnew := recoveredFrom_of_repaired hroot.directory hread hself hrepair hpub hpublished
    refine ⟨hnew, fun path' later hroot' => ?_⟩
    constructor
    · exact (recover_of_sound hroot' hnew.persisted hnew.verified).1
    · intro hfree
      exact (recover_of_sound hroot' hnew.persisted hnew.verified).2
        (publishable_again hpub hpublished hfree)
  · obtain ⟨newState, hrecover, hresolve⟩ := exec_activeTarget_ok hroot h
    obtain ⟨_, _, _, hpub, hpublished⟩ := exec_recover_ok hself' hrecover
    obtain ⟨active, hactive, hverify, htarget⟩ := eval_resolveActive_iff.mp hresolve
    obtain ⟨_, canonical, content, mode, hcanonical, hbelow, hnode, hdigest⟩ :=
      verifies_iff.mp hverify
    obtain rfl : canonical = target := by rwa [hcanonical, Option.some.injEq] at htarget
    exact ⟨newState, active, content, mode, eval_read_of_published hroot.directory hpub hpublished,
      hactive, hbelow, hnode, hdigest⟩
  · constructor
    · obtain ⟨e, herror⟩ := exec_recover_error hroot hread hactive hslot hprevious
      exact ⟨e, by rw [herror]⟩
    · obtain ⟨e, herror⟩ := exec_recover_error hself' hread hactive hslot hprevious
      exact ⟨e, by rw [exec_activeTarget hroot, herror]⟩

end

namespace Sample

/-- The first version with the digest of another target: its file is not what was installed. -/
def altered : ActivationSlot := { first with sha256 := second.sha256 }

def tampered : ActivationState := ⟨1, some altered, some second, none⟩

theorem fits_tampered : Fits tampered :=
  fits_of_length (by decide +kernel) rfl (by decide +kernel)

variable {fs : FileSystem}

theorem not_verifies_altered (h : At tampered fs) : ¬ Verifies fs root altered := by
  intro hverify
  obtain ⟨_, canonical, content, mode, hcanonical, _, hnode, hdigest⟩ := verifies_iff.mp hverify
  have hplace := (h.installed installed_first).canonicalize
  rw [show altered.relativePath = first.relativePath from rfl, hplace, Option.some.injEq] at hcanonical
  subst hcanonical
  rw [h.node _ (by decide), show populated.node (root ++ pathNames first.relativePath) =
    some (.file [49] 0o755) by decide +kernel, Option.some.injEq, Node.file.injEq] at hnode
  rw [← hnode.1] at hdigest
  exact absurd hdigest (by decide +kernel)

theorem noSelfDigest_tampered (h : At tampered fs) : NoSelfDigest fs root tampered := by
  intro bytes mode hnode slot hslot
  rcases h.records with ⟨_, hdefault⟩ | ⟨mode', hfile, _⟩
  · exact absurd hdefault (by decide)
  · rw [hnode, Option.some.injEq, Node.file.injEq] at hfile
    rw [hfile.1]
    revert slot
    decide +kernel

end Sample

open Updater.Sample in
theorem recover_tampered_sample : ∃ fs fs' newState, At tampered fs ∧
    exec device (recover path (moment 0)) fs = (.ok newState, fs') ∧
    RecoveredFrom Sample.root fs tampered fs' newState := by
  obtain ⟨fs, hpublished⟩ := exists_published fits_tampered
  have hat := at_of_published fits_tampered hpublished
  have hread := hat.records.eval_read hat.directory
  have hsecond := (hat.installed installed_second).verifies
  have hrepair : repaired (fun slot => eval device (verifySlot Sample.root slot) fs) tampered =
      .ok ⟨1, some second, none, none⟩ := by
    have hdamaged : damaged (fun slot => eval device (verifySlot Sample.root slot) fs)
        tampered.active = true := damaged_eq_true_iff.mpr ⟨altered, rfl, not_verifies_altered hat⟩
    unfold repaired
    simp only [hdamaged, if_true]
    change (eval device (verifySlot Sample.root second) fs >>= fun _ => _) = _
    rw [show eval device (verifySlot Sample.root second) fs = .ok () from hsecond]
    rfl
  obtain ⟨fs', hexec, _⟩ := exec_recover_of_publishable hat.isInstallRoot hread hrepair
    (hat.publishable (fits_of_length (by decide +kernel) rfl (by decide +kernel)) 0)
  exact ⟨fs, fs', _, hat, hexec,
    ((recover_tampered hat.isInstallRoot hread (noSelfDigest_tampered hat)).1 _ fs' hexec).1⟩

end CertaelAgent.Updater
