import CertaelAgent.Updater.Undisturbed
import Mathlib.Logic.Relation

/-!
# Runs of an installation

A run starts from an empty root. Its steps are calls of the operations, with whatever goes wrong
in them and wherever they are cut off, and changes by other parties, which add versions and leave
those that are there alone. Every state in between is sound.
-/

namespace CertaelAgent.Updater

open ProtoWire Protocol Files Files.FileSystem Program SlotMachine

inductive Call
  | installVerifiedTarget (stagedTarget : Path) (config : InstallConfig) (expectedSha256 : String)
      (now later : Moment)
  | verifyStageAndInstallAutomatic (release : Except UpdateError VerifiedReleaseTarget)
      (installRoot : PathBuf) (installedName expectedChannel expectedPlatform : String)
      (now later : Moment)
  | activatePending (installRoot : PathBuf) (now : Moment)
  | rollback (installRoot : PathBuf) (now : Moment)
  | recover (installRoot : PathBuf) (now : Moment)
  | registerExistingVersion (installRoot : PathBuf) (version installedName : String)
      (activate : Bool) (now : Moment)
  | activeTarget (installRoot : PathBuf) (now : Moment)

namespace Call

def installRoot : Call → PathBuf
  | installVerifiedTarget _ config _ _ _ => config.installRoot
  | verifyStageAndInstallAutomatic _ installRoot _ _ _ _ _ => installRoot
  | activatePending installRoot _ => installRoot
  | rollback installRoot _ => installRoot
  | recover installRoot _ => installRoot
  | registerExistingVersion installRoot _ _ _ _ => installRoot
  | activeTarget installRoot _ => installRoot

/-- The moves that the call can make. -/
def actions : Call → Action ActivationSlot → Prop
  | installVerifiedTarget _ _ _ _ _ => fun action => ∃ slot, action = .stage slot
  | verifyStageAndInstallAutomatic _ _ _ _ _ _ _ => fun action => ∃ slot, action = .stage slot
  | activatePending _ _ => (· = .promote)
  | rollback _ _ => (· = .rollBack)
  | recover _ _ => (· = .repair)
  | registerExistingVersion _ _ _ activate _ => fun action => ∃ slot, action = .register slot activate
  | activeTarget _ _ => (· = .repair)

variable [Crates] [SerdeJson]

def program : Call → FileProgram UpdateError Unit
  | installVerifiedTarget stagedTarget config expectedSha256 now later =>
    ignore (Updater.installVerifiedTarget stagedTarget config expectedSha256 now later)
  | verifyStageAndInstallAutomatic release installRoot installedName channel platform now later =>
    ignore (Updater.verifyStageAndInstallAutomatic release installRoot installedName channel
      platform now later)
  | activatePending installRoot now => ignore (Updater.activatePending installRoot now)
  | rollback installRoot now => ignore (Updater.rollback installRoot now)
  | recover installRoot now => ignore (Updater.recover installRoot now)
  | registerExistingVersion installRoot version installedName activate now =>
    ignore (Updater.registerExistingVersion installRoot version installedName activate now)
  | activeTarget installRoot now => ignore (Updater.activeTarget installRoot now)

end Call

section

variable [Crates] [SerdeJson] {fs fs' fs₀ : FileSystem} {root : Path} {state : ActivationState}
  {mayFail : FsOp → Bool}

theorem wp_call (call : Call) (hsound : Sound root fs) (hstate : Records fs root state)
    (hpath : fs.canonicalize call.installRoot.names = some root) :
    wp device mayFail (Evolved root (Moves call.actions) fs state)
      (fun _ => Evolved root (Moves call.actions) fs state) call.program fs := by
  cases call with
  | installVerifiedTarget => exact wp_ignore (wp_installVerifiedTarget hsound hstate hpath)
  | verifyStageAndInstallAutomatic =>
    exact wp_ignore (wp_verifyStageAndInstallAutomatic hsound hstate hpath)
  | activatePending =>
    exact wp_ignore (wp_mono (wp_activatePending hsound hstate hpath) fun _ _ h => h.1)
  | rollback => exact wp_ignore (wp_mono (wp_rollback hsound hstate hpath) fun _ _ h => h.1)
  | recover => exact wp_ignore (wp_mono (wp_recover hsound hstate hpath) fun _ _ h => h.1)
  | registerExistingVersion =>
    exact wp_ignore (wp_mono (wp_registerExistingVersion hsound hstate hpath) fun _ _ h => h.1)
  | activeTarget => exact wp_ignore (wp_activeTarget hsound hstate hpath)

/-- A call, with any operations failing and cut off anywhere or not at all, or a change by others. -/
inductive Step (root : Path) : Option Call → FileSystem → FileSystem → Prop
  | call {fs : FileSystem} (call : Call) (mayFail : FsOp → Bool) (schedule : List Verdict)
      (hpath : fs.canonicalize call.installRoot.names = some root) :
      Step root (some call) fs (run device mayFail call.program schedule fs).state
  | outside {fs fs' : FileSystem} (h : Preserves root fs fs') : Step root none fs fs'

/-- Runs whose steps are allowed in the states in which they start. -/
def ReachesBy (root : Path) (allowed : Option Call → FileSystem → Prop) :
    FileSystem → FileSystem → Prop :=
  Relation.ReflTransGen fun fs fs' => ∃ call, allowed call fs ∧ Step root call fs fs'

def Reaches (root : Path) : FileSystem → FileSystem → Prop := ReachesBy root fun _ _ => True

theorem Step.evolved {call : Option Call} (h : Step root call fs fs') (hsound : Sound root fs)
    (hstate : Records fs root state) : Sound root fs' ∧ Keeps root fs fs' ∧
      ∃ new, Records fs' root new ∧ (new = state ∨ ∃ c, call = some c ∧
        (Moves c.actions state new ∨ Moves c.actions ActivationState.default new)) := by
  cases h with
  | call call mayFail schedule hpath =>
    obtain ⟨hsound', hkeeps, new, hnew, hdecided⟩ :=
      (wp_sound (wp_call call hsound hstate hpath) schedule).state
    exact ⟨hsound', hkeeps, new, hnew, hdecided.imp_right fun hd => ⟨call, rfl, hd⟩⟩
  | outside h =>
    exact ⟨hsound.of_preserves h, h.keeps, state, hstate.of_same h.activation, .inl rfl⟩

/-- There is nothing below the root. -/
structure EmptyRoot (root : Path) (fs : FileSystem) : Prop where
  directory : fs.Directory root
  empty : ∀ name, fs.node (root ++ [name]) = none

omit [SerdeJson] in
theorem EmptyRoot.sound (h : EmptyRoot root fs) : Sound root fs where
  directory := h.directory
  links version :=
    linkFree_of_none h.directory.real.linkFree (h.empty "versions") _ (List.prefix_append _ _)
  recorded := ⟨ActivationState.default, .inl ⟨h.empty _, rfl⟩, by simp⟩

variable {allowed : Option Call → FileSystem → Prop}

/-- Every state of a run is sound, and keeps the files of the versions before it. -/
theorem ReachesBy.sound (hreach : ReachesBy root allowed fs fs') (hsound : Sound root fs) :
    Sound root fs' ∧ Keeps root fs fs' := by
  induction hreach with
  | refl => exact ⟨hsound, Keeps.refl root fs⟩
  | tail _ hstep ih =>
    obtain ⟨hsound₁, hkeeps₁⟩ := ih
    obtain ⟨call, _, hstep⟩ := hstep
    obtain ⟨state, hstate, _⟩ := hsound₁.recorded
    obtain ⟨hsound₂, hkeeps₂, _⟩ := hstep.evolved hsound₁ hstate
    exact ⟨hsound₂, hkeeps₁.trans hkeeps₂⟩

theorem records_of_read (hsound : Sound root fs)
    (hread : eval device (readActivationState ⟨true, root⟩) fs = .ok state) :
    Records fs root state := by
  obtain ⟨state', hstate', _⟩ := hsound.recorded
  rw [hstate'.eval_read hsound.directory, Except.ok.injEq] at hread
  rwa [← hread]

omit [Crates] [SerdeJson] in
theorem Records.publishable {now : Moment} (h : Records fs root state) (hactive : state.slots ≠ [])
    (hwritable : fs.Writable root) (hfree : TemporaryFree fs root now) :
    Publishable fs root state now := by
  rcases h with ⟨_, rfl⟩ | ⟨mode, hnode, hne, hle, hvalid⟩
  · exact absurd ActivationState.slots_default hactive
  · exact ⟨hvalid, ⟨hne, hle⟩, hwritable, hfree, not_directory_of_file hnode⟩

/-- A start of a sound installation that can write returns the file of the active slot. -/
theorem exec_activeTarget_of_sound {path : PathBuf} {now : Moment} {slot : ActivationSlot}
    (hsound : Sound root fs) (hstate : Records fs root state) (hroot : IsInstallRoot fs path root)
    (hactive : state.active = some slot) (hwritable : fs.Writable root)
    (hfree : TemporaryFree fs root now) :
    (exec device (activeTarget path now) fs).1 = .ok (root ++ pathNames slot.relativePath) := by
  have hslot : slot ∈ state.slots := ActivationState.mem_slots.mpr (.inl hactive)
  have hpub := hstate.publishable (List.ne_nil_of_mem hslot) hwritable hfree
  have hself := isInstallRoot_self hsound.directory
  obtain ⟨fs', hrecover, hpublished⟩ := exec_recover_of_publishable hself
    (hstate.eval_read hsound.directory)
    (repaired_of_sound fun s hs => (hsound.installed hstate s hs).verifies) hpub
  obtain ⟨_, hkeeps, _⟩ := hsound.of_published hpub hpublished (hsound.installed hstate)
  have hinstalled := (hsound.installed hstate slot hslot).of_keeps hkeeps
  rw [exec_activeTarget hroot, hrecover]
  exact eval_resolveActive_iff.mpr ⟨slot, hactive, hinstalled.verifies, hinstalled.canonicalize⟩

/-- What holds in every state of every run from an empty root. -/
theorem installation_holds (hempty : EmptyRoot root fs₀) (hreach : Reaches root fs₀ fs) :
    ∃ state, eval device (readActivationState ⟨true, root⟩) fs = .ok state ∧
      (∀ slot ∈ state.slots, Verifies fs root slot ∧ ∃ content mode,
        fs.node (root ++ pathNames slot.relativePath) = some (.file content mode) ∧
        ∀ fs', Reaches root fs fs' →
          fs'.node (root ++ pathNames slot.relativePath) = some (.file content mode)) ∧
      (∀ path now mayFail schedule new fs', fs.canonicalize path.names = some root →
        (∀ op : FsOp, mayFail op → ¬ op.reads) →
        run device mayFail (recover path now) schedule fs = .finished (.ok new) fs' → new = state) ∧
      ∀ path now slot, IsInstallRoot fs path root → state.active = some slot → fs.Writable root →
        TemporaryFree fs root now →
        (exec device (activeTarget path now) fs).1 = .ok (root ++ pathNames slot.relativePath) := by
  obtain ⟨hsound, _⟩ := ReachesBy.sound hreach hempty.sound
  obtain ⟨state, hstate, hslots⟩ := hsound.recorded
  refine ⟨state, hstate.eval_read hsound.directory, fun slot hslot => ?_, ?_, ?_⟩
  · have hinstalled := hslots slot hslot
    obtain ⟨content, mode, hnode, _⟩ := hinstalled.file
    refine ⟨hinstalled.verifies, content, mode, hnode, fun fs' hlater => ?_⟩
    exact (ReachesBy.sound hlater hsound).2 _ _ _ hinstalled.below hnode
  · intro path now mayFail schedule new fs' hpath hreliable hrun
    have hwp : (run device mayFail (recover path now) schedule fs).Satisfies _ _ :=
      wp_sound (wp_recover_of_reliable hsound hstate hpath hreliable) schedule
    rw [hrun] at hwp
    exact hwp new rfl
  · intro path now slot hroot hactive hwritable hfree
    exact exec_activeTarget_of_sound hsound hstate hroot hactive hwritable hfree

theorem ReachesBy.exec (hreach : ReachesBy root allowed fs₀ fs) {call : Call}
    (hallowed : allowed (some call) fs) (hpath : fs.canonicalize call.installRoot.names = some root) :
    ReachesBy root allowed fs₀ (exec device call.program fs).2 := by
  have hstep : Step root (some call) fs (run device (fun _ => false) call.program [] fs).state :=
    .call call _ _ hpath
  rw [run_nil] at hstep
  exact hreach.tail ⟨some call, hallowed, hstep⟩

end

namespace Sample

theorem emptyRoot_empty : EmptyRoot root empty := by
  refine ⟨directory_iff.mpr ⟨true, by decide⟩, fun name => ?_⟩
  simp [empty, ofTable, FileSystem.node, emptyTable, Table.node, root]

theorem preserves_populated : Preserves root empty populated := by
  refine ⟨directory_iff.mpr ⟨true, by decide⟩, by decide, fun p content mode hp hnode => ?_,
    fun version q _ n hn => ?_⟩
  · -- There is nothing yet below `versions`.
    have hentry := Table.mem_of_node hnode
    obtain ⟨x, rfl⟩ := hp
    simp [empty, ofTable, emptyTable, versionsPath, root] at hentry
  · have hentries : ∀ entry ∈ table, ¬ entry.2.IsSymlink := by decide
    exact hentries _ (Table.mem_of_node hn)

theorem reaches_populated : Reaches root empty populated :=
  .single ⟨none, trivial, .outside preserves_populated⟩

variable {state : ActivationState} {fs : FileSystem} {slot : ActivationSlot}
  {allowed : Option Call → FileSystem → Prop}

theorem reaches_activate (hallowed : allowed (some (.activatePending path (moment 0))) fs)
    (hreach : ReachesBy root allowed empty fs) (h : At state fs) (hpending : state.pending = some slot)
    (hslot : Installed populated root slot)
    (hfits : Fits { state with active := some slot, previous := state.active, pending := none }) :
    ∃ fs', ReachesBy root allowed empty fs' ∧
      At { state with active := some slot, previous := state.active, pending := none } fs' := by
  obtain ⟨fs', hexec, hat⟩ := h.activate hpending hslot hfits 0
  have hnext := hreach.exec hallowed h.isInstallRoot.canonicalize
  rw [Call.program, exec_ignore, hexec] at hnext
  exact ⟨fs', hnext, hat⟩

/-- The call that installs a staged target as a version. -/
def installation (source : Path) (version digest : String) : Call :=
  .installVerifiedTarget source (config version) digest (moment 0) (moment 0)

theorem reaches_install {source : Path} {version : String} {content : Bytes}
    (hallowed : allowed (some (installation source version slot.sha256)) fs)
    (hreach : ReachesBy root allowed empty fs) (h : At state fs)
    (hvalid : validateInstall (config version) slot.sha256 = .ok ())
    (hsource : populated.node source = some (.file content 0o644))
    (hactivation : source ≠ activationPath root)
    (hslot : installSlot (config version) slot.sha256 = slot)
    (hinstalled : Installed populated root slot) (hfits : Fits { state with pending := some slot }) :
    ∃ fs', ReachesBy root allowed empty fs' ∧ At { state with pending := some slot } fs' := by
  obtain ⟨fs', hexec, hat⟩ := h.install hvalid hsource hactivation (by rwa [hslot])
    (by rwa [hslot]) 0
  have hnext := hreach.exec hallowed h.isInstallRoot.canonicalize
  rw [installation, Call.program, exec_ignore, hexec] at hnext
  rw [hslot] at hat
  exact ⟨fs', hnext, hat⟩

theorem reaches_first (hallowed : allowed (some (installation ["staged-1"] "1" first.sha256)) fs)
    (hreach : ReachesBy root allowed empty fs) (h : At state fs)
    (hfits : Fits { state with pending := some first }) :
    ∃ fs', ReachesBy root allowed empty fs' ∧ At { state with pending := some first } fs' :=
  reaches_install hallowed hreach h (by decide +kernel)
    (show _ = some (Node.file [49] 0o644) by decide) (by decide)
    (by decide +kernel) installed_first hfits

theorem reaches_second (hallowed : allowed (some (installation ["staged-2"] "2" second.sha256)) fs)
    (hreach : ReachesBy root allowed empty fs) (h : At state fs)
    (hfits : Fits { state with pending := some second }) :
    ∃ fs', ReachesBy root allowed empty fs' ∧ At { state with pending := some second } fs' :=
  reaches_install hallowed hreach h (by decide +kernel)
    (show _ = some (Node.file [50] 0o644) by decide) (by decide)
    (by decide +kernel) installed_second hfits

theorem reaches_activeFirst : ∃ fs, Reaches root empty fs ∧ At activeFirst fs := by
  obtain ⟨fs₁, hreach₁, hat₁⟩ := reaches_first trivial reaches_populated at_populated
    (fits_of_length (by decide +kernel) rfl (by decide +kernel))
  exact reaches_activate trivial hreach₁ hat₁ rfl installed_first fits_activeFirst

end Sample

open Updater.Sample in
theorem installation_holds_sample : ∃ fs state, At state fs ∧ state.active = some first ∧
    (exec device (activeTarget path (moment 0)) fs).1 = .ok ["opt", "versions", "1", "agent"] := by
  obtain ⟨fs, hreach, hat⟩ := reaches_activeFirst
  obtain ⟨state, hread, _, _, hstart⟩ := installation_holds emptyRoot_empty hreach
  rw [hat.records.eval_read hat.directory, Except.ok.injEq] at hread
  subst hread
  have hpub := hat.publishable fits_activeFirst 0
  refine ⟨fs, activeFirst, hat, rfl, ?_⟩
  rw [hstart path (moment 0) first hat.isInstallRoot rfl hpub.writable hpub.free]
  decide +kernel

end CertaelAgent.Updater
