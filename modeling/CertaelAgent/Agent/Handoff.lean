import CertaelAgent.Agent.Registry
import CertaelAgent.Updater.HealthyStart
import CertaelAgent.Updater.Reachability

/-!
# From the launcher to the selected Agent

The launcher stays where it is over all updates. It resolves the active target of the installation
it lies in and executes it, with three variables that tell the Agent so. The Agent believes them
only if its own version is the one they name, and otherwise resolves the active target of the
default installation itself.
-/

namespace CertaelAgent.Agent

open ProtoWire Protocol Files Files.FileSystem Program Anyhow Updater

/-- The variables that the launcher sets. -/
structure Handoff where
  launcherVerified : Option String
  selectedVersion : Option String
  selectedTarget : Option Path
deriving DecidableEq, Repr

section

variable [Crates] [SerdeJson]

/-- The launcher up to the execution of the target; `version` is the one it has been built as. -/
def launcherMain (currentExe : Option Path) (version : String) (now : Updater.Moment) :
    AgentProgram (Path × Handoff) := do
  let current ← done (context "cannot locate the Certael Agent launcher" (io currentExe))
  let launcher ← expect (.context "cannot resolve the Certael Agent launcher" .io)
    (canonicalize current)
  require (.message "Certael Agent launcher has no installation root") (launcher ≠ [])
  let target ← capture (activeTarget ⟨true, launcher.dropLast⟩ now)
  let target ← done (context
    "the active Certael Agent installation is invalid; run recovery or reinstall"
    (target.mapError fun e => .message e.message))
  require (.message "Certael Agent launcher activation loop detected") (target ≠ launcher)
  return (target, ⟨some "1", some version, some target⟩)

/-- Whether a path leads to the file; a path that leads nowhere does not. -/
def leadsTo (path : Option Path) (file : Path) : AgentProgram Bool :=
  match path with
  | none => return false
  | some path => do
    let canonical ← canonicalize path
    return canonical = some file

/-- What the launcher says is believed by an Agent of the version it names. -/
def launcherVerified (handoff : Handoff) (version : String) (selected : Path) :
    AgentProgram Bool :=
  if handoff.launcherVerified = some "1" ∧ handoff.selectedVersion = some version then
    leadsTo handoff.selectedTarget selected
  else return false

/-- The check of an Agent before it launches a registered game. -/
def verifySelectedAgent (currentExe : Option Path) (handoff : Handoff) (version : String)
    (defaultInstallRoot : PathBuf) (debugAssertions : Bool) (now : Updater.Moment) :
    AgentProgram Unit := do
  let current ← done (context "cannot locate selected Certael Agent version" (io currentExe))
  let selected ← expect (.context "cannot resolve selected Certael Agent version" .io)
    (canonicalize current)
  let file ← isFile selected
  require (.message "selected Certael Agent version is unavailable") (file = true)
  if ← launcherVerified handoff version selected then return ()
  else
    let target ← capture (activeTarget defaultInstallRoot now)
    if ← leadsTo target.toOption selected then return ()
    else if debugAssertions then return ()
    else fail (.message "selected Certael Agent was not verified by the stable launcher")

variable {fs fs' : FileSystem} {root target : Path} {handoff : Handoff} {exe : Option Path}
  {version : String} {path : PathBuf} {now later : Updater.Moment}

/-! ## What the two programs do -/

theorem exec_launcherMain {launcher : Path} (hexe : exe.bind fs.canonicalize = some launcher)
    (hne : launcher ≠ []) : exec device (launcherMain exe version now) fs =
      match exec device (activeTarget ⟨true, launcher.dropLast⟩ now) fs with
      | (.ok target, fs') =>
        (if target ≠ launcher then .ok (target, ⟨some "1", some version, some target⟩)
          else .error (.message "Certael Agent launcher activation loop detected"), fs')
      | (.error e, fs') =>
        (.error (.context
          "the active Certael Agent installation is invalid; run recovery or reinstall"
          (.message e.message)), fs') := by
  obtain ⟨current, rfl, hlauncher⟩ := Option.bind_eq_some_iff.mp hexe
  have hcurrent : context "cannot locate the Certael Agent launcher" (io (some current)) =
      .ok current := rfl
  unfold launcherMain
  rw [exec_done_bind_ok hcurrent, (cautious_canonicalize _ _).readOnly.exec_bind,
    eval_canonicalize, hlauncher, Except.ofOption]
  dsimp only
  rw [exec_require_bind hne, exec_bind, exec_capture]
  rcases exec device (activeTarget ⟨true, launcher.dropLast⟩ now) fs with ⟨r, fs₁⟩
  cases r with
  | error e => rfl
  | ok found =>
    have hfound : context
        "the active Certael Agent installation is invalid; run recovery or reinstall"
        ((Except.ok found : Except UpdateError Path).mapError fun e => .message e.message) =
        .ok found := rfl
    dsimp only
    rw [exec_done_bind_ok hfound]
    by_cases hloop : found ≠ launcher
    · rw [exec_require_bind hloop, if_pos hloop]
      rfl
    · rw [require, if_neg hloop, if_neg hloop]
      rfl

omit [Crates] [SerdeJson] in
theorem readOnly_leadsTo (found : Option Path) (file : Path) :
    ReadOnly device (leadsTo found file) := by
  cases found with
  | none => trivial
  | some path => exact ⟨rfl, fun _ => trivial⟩

omit [Crates] [SerdeJson] in
theorem eval_leadsTo (found : Option Path) (file : Path) (fs : FileSystem) :
    eval device (leadsTo found file) fs =
      .ok (decide (found.bind fs.canonicalize = some file)) := by
  cases found with
  | none => rfl
  | some path => rfl

omit [Crates] [SerdeJson] in
theorem exec_launcherVerified (handoff : Handoff) (version : String) (selected : Path)
    (fs : FileSystem) : exec device (launcherVerified handoff version selected) fs =
      (.ok (decide (handoff.launcherVerified = some "1" ∧ handoff.selectedVersion = some version ∧
        handoff.selectedTarget.bind fs.canonicalize = some selected)), fs) := by
  unfold launcherVerified
  by_cases hnamed : handoff.launcherVerified = some "1" ∧ handoff.selectedVersion = some version
  · rw [if_pos hnamed, (readOnly_leadsTo _ _).exec_eq, eval_leadsTo]
    simp only [hnamed.1, hnamed.2, true_and]
  · have hnot : ¬ (handoff.launcherVerified = some "1" ∧ handoff.selectedVersion = some version ∧
        handoff.selectedTarget.bind fs.canonicalize = some selected) :=
      fun h => hnamed ⟨h.1, h.2.1⟩
    rw [if_neg hnamed, decide_eq_false hnot]
    rfl

/-- The Agent accepts itself for one of three reasons. -/
theorem verifySelectedAgent_iff {selected : Path} {content : Bytes} {mode : ℕ}
    {debugAssertions : Bool} (hfile : fs.node selected = some (.file content mode)) :
    (exec device (verifySelectedAgent (some selected) handoff version path debugAssertions later)
      fs).1 = .ok () ↔
      (handoff.launcherVerified = some "1" ∧ handoff.selectedVersion = some version ∧
        handoff.selectedTarget.bind fs.canonicalize = some selected) ∨
      (∃ found, (exec device (activeTarget path later) fs).1 = .ok found ∧
        (exec device (activeTarget path later) fs).2.canonicalize found = some selected) ∨
      debugAssertions = true := by
  have hcurrent : context "cannot locate selected Certael Agent version" (io (some selected)) =
      .ok selected := rfl
  have hlocate : fs.locate selected = some selected := locate_of_real (real_of_file hfile)
  have hregular : exec device (isFile selected) fs = (.ok true, fs) := by
    change (Except.ok ((fs.metadataAt selected).any fun metadata => metadata.fileType = .file),
      fs) = _
    rw [metadataAt, hlocate, Option.bind_some, hfile]
    rfl
  unfold verifySelectedAgent
  rw [exec_done_bind_ok hcurrent, (cautious_canonicalize _ _).readOnly.exec_bind,
    eval_canonicalize, canonicalize_of_real (real_of_file hfile), Except.ofOption]
  dsimp only
  rw [exec_bind, hregular]
  dsimp only
  rw [exec_require_bind rfl]
  rw [exec_bind, exec_launcherVerified]
  dsimp only
  by_cases hverified : handoff.launcherVerified = some "1" ∧ handoff.selectedVersion = some version ∧
    handoff.selectedTarget.bind fs.canonicalize = some selected
  · rw [if_pos (decide_eq_true hverified)]
    exact iff_of_true rfl (.inl hverified)
  rw [if_neg (by simpa using hverified), exec_bind, exec_capture]
  dsimp only
  rw [(readOnly_leadsTo _ _).exec_bind, eval_leadsTo]
  generalize exec device (activeTarget path later) fs = active
  dsimp only
  have hleads : active.1.toOption.bind active.2.canonicalize = some selected ↔
      ∃ found, active.1 = .ok found ∧ active.2.canonicalize found = some selected := by
    cases active.1 with
    | error e => simp [Except.toOption]
    | ok found => simp [Except.toOption]
  rw [← hleads]
  by_cases hactive : active.1.toOption.bind active.2.canonicalize = some selected
  · rw [if_pos (decide_eq_true hactive)]
    exact iff_of_true rfl (.inr (.inl hactive))
  · rw [if_neg (by simpa using hactive)]
    cases debugAssertions with
    | true => exact iff_of_true rfl (.inr (.inr rfl))
    | false =>
      apply iff_of_false
      · intro h
        cases h
      · rintro (h | h | h)
        · exact hverified h
        · exact hactive h
        · cases h

/-! ## The selected Agent -/

/-- What the launcher leaves behind and hands over. -/
structure Selected (fs : FileSystem) (root target : Path) : Prop where
  sound : Sound root fs
  file : ∃ content mode, fs.node target = some (.file content mode)
  active : ∃ state slot, Records fs root state ∧ state.active = some slot ∧
    Installed fs root slot ∧ target = root ++ pathNames slot.relativePath

theorem selected_of_launcherMain {name : String} (hsound : Sound root fs)
    (hexe : exe.bind fs.canonicalize = some (root ++ [name]))
    (h : exec device (launcherMain exe version now) fs = (.ok (target, handoff), fs')) :
    Selected fs' root target ∧ handoff = ⟨some "1", some version, some target⟩ := by
  have hroot := isInstallRoot_self hsound.directory
  rw [exec_launcherMain hexe (List.concat_ne_nil name root), List.dropLast_concat] at h
  obtain ⟨hactive, rfl⟩ : exec device (activeTarget ⟨true, root⟩ now) fs = (.ok target, fs') ∧
      handoff = ⟨some "1", some version, some target⟩ := by
    rcases hexec : exec device (activeTarget ⟨true, root⟩ now) fs with ⟨r, fs₁⟩
    rw [hexec] at h
    cases r with
    | error e => cases h
    | ok found =>
      by_cases hloop : found ≠ root ++ [name]
      · dsimp only at h
        rw [if_pos hloop] at h
        obtain ⟨hresult, rfl⟩ := Prod.mk.inj h
        obtain ⟨rfl, rfl⟩ := Prod.mk.inj (Except.ok.inj hresult)
        exact ⟨rfl, rfl⟩
      · dsimp only at h
        rw [if_neg hloop] at h
        cases h
  obtain ⟨state, hrecover, hresolve⟩ := exec_activeTarget_ok hroot hactive
  obtain ⟨old, hread, hrepair, hpub, hpublished⟩ := exec_recover_ok hroot hrecover
  have hold := records_of_read hsound hread
  have hslots : ∀ slot ∈ state.slots, Installed fs root slot := fun slot hslot =>
    hsound.installed hold slot (mem_slots_of_repaired hrepair hslot).1
  obtain ⟨hsound', hkeeps, hrecords⟩ := hsound.of_published hpub hpublished hslots
  obtain ⟨slot, hslot, -, htarget⟩ := eval_resolveActive_iff.mp hresolve
  have hinstalled := hsound'.installed hrecords slot (ActivationState.mem_slots.mpr (.inl hslot))
  obtain rfl := Option.some.inj (hinstalled.canonicalize.symm.trans htarget)
  obtain ⟨content, mode, hfile, -⟩ := hinstalled.file
  exact ⟨⟨hsound', ⟨content, mode, hfile⟩, state, slot, hrecords, hslot, hinstalled, rfl⟩, rfl⟩

/-- The default installation resolves to the target. -/
def Resolves (fs : FileSystem) (path : PathBuf) (later : Updater.Moment) (target : Path) : Prop :=
  ∃ found, (exec device (activeTarget path later) fs).1 = .ok found ∧
    (exec device (activeTarget path later) fs).2.canonicalize found = some target

/-- The same installation resolves to the target again if it can be written to. -/
theorem Selected.resolves_iff (h : Selected fs root target) (hroot : IsInstallRoot fs path root) :
    Resolves fs path later target ↔ fs.Writable root ∧ TemporaryFree fs root later := by
  constructor
  · rintro ⟨found, hfound, -⟩
    obtain ⟨state, hpub⟩ := publishable_of_activeTarget hroot hfound
    exact ⟨hpub.writable, hpub.free⟩
  · rintro ⟨hwritable, hfree⟩
    obtain ⟨state, slot, hrecords, hslot, hinstalled, rfl⟩ := h.active
    refine ⟨_, exec_activeTarget_of_sound h.sound hrecords hroot hslot hwritable hfree, ?_⟩
    have hstart : Reaches root fs fs := .refl
    have hreach : Reaches root fs (exec device (Call.activeTarget path later).program fs).2 :=
      hstart.exec trivial hroot.canonicalize
    have hkeeps := (ReachesBy.sound hreach h.sound).2
    rw [Call.program, exec_ignore] at hkeeps
    exact (hinstalled.of_keeps hkeeps).canonicalize

theorem not_resolves (houtside : ∀ other, IsInstallRoot fs path other → ¬ other <+: target) :
    ¬ Resolves fs path later target := by
  rintro ⟨found, hfound, hcanonical⟩
  rcases hexec : exec device (activeTarget path later) fs with ⟨r, fs₁⟩
  rw [hexec] at hfound hcanonical
  subst hfound
  have hopened : ∃ other, IsInstallRoot fs path other := by
    have hdef : activeTarget path later = canonicalInstallRoot path >>= fun root =>
        Updater.recover ⟨true, root⟩ later >>= resolveActive root := rfl
    rw [hdef, (cautious_canonicalInstallRoot path).readOnly.exec_bind] at hexec
    cases hroot : eval device (canonicalInstallRoot path) fs with
    | error e =>
      rw [hroot] at hexec
      cases hexec
    | ok other => exact ⟨other, hroot⟩
  obtain ⟨other, hroot⟩ := hopened
  obtain ⟨state, hrecover, hresolve⟩ := exec_activeTarget_ok hroot hexec
  obtain ⟨slot, hslot, hverifies, hfound⟩ := eval_resolveActive_iff.mp hresolve
  obtain ⟨hvalid, canonical, content, mode, hplace, hbelow, hfile⟩ := verifies_iff.mp hverifies
  obtain rfl := Option.some.inj (hfound.symm.trans hplace)
  have htarget : found = target := Option.some.inj ((canonicalize_idem hfound).symm.trans hcanonical)
  exact houtside other hroot (htarget ▸ hbelow)

/-- In every state that an installation reaches, the launcher hands over the file of the active
slot, with the recorded digest. The file, started, accepts itself if it is of the launcher's
version; if it is not, then only where the default installation is the one it lies in and can be
written to, or in a debug build. -/
theorem handed_over_accepts_iff {start : FileSystem} {name : String} (hempty : EmptyRoot root start)
    (hreach : Reaches root start fs) (hexe : exe.bind fs.canonicalize = some (root ++ [name]))
    (h : exec device (launcherMain exe version now) fs = (.ok (target, handoff), fs')) :
    (∃ state slot content mode, Records fs' root state ∧ state.active = some slot ∧
      target = root ++ pathNames slot.relativePath ∧ fs'.node target = some (.file content mode) ∧
      Hex.encode (Crates.sha256 content).1 = slot.sha256) ∧
    ∀ (own : String) (path : PathBuf) (debugAssertions : Bool) (later : Updater.Moment),
      (IsInstallRoot fs' path root →
        ((exec device (verifySelectedAgent (some target) handoff own path debugAssertions later)
          fs').1 = .ok () ↔ own = version ∨ (fs'.Writable root ∧ TemporaryFree fs' root later) ∨
            debugAssertions = true)) ∧
      ((∀ other, IsInstallRoot fs' path other → ¬ other <+: target) →
        ((exec device (verifySelectedAgent (some target) handoff own path debugAssertions later)
          fs').1 = .ok () ↔ own = version ∨ debugAssertions = true)) := by
  have hsound := (ReachesBy.sound hreach hempty.sound).1
  obtain ⟨hselected, rfl⟩ := selected_of_launcherMain hsound hexe h
  obtain ⟨content, mode, hfile⟩ := hselected.file
  obtain ⟨state, slot, hrecords, hslot, hinstalled, htarget⟩ := hselected.active
  constructor
  · obtain ⟨content, mode, hnode, hdigest⟩ := hinstalled.file
    exact ⟨state, slot, content, mode, hrecords, hslot, htarget, htarget ▸ hnode, hdigest⟩
  intro own path debugAssertions later
  have hcanonical : fs'.canonicalize target = some target := canonicalize_of_real (real_of_file hfile)
  have hnamed : (some "1" = some "1" ∧ some version = some own ∧
      (some target).bind fs'.canonicalize = some target) ↔ own = version := by
    rw [Option.bind_some, hcanonical, Option.some.injEq]
    constructor
    · intro h
      exact (Option.some.inj h.2.1).symm
    · intro heq
      exact ⟨rfl, congrArg some heq.symm, rfl⟩
  constructor
  · intro hroot
    rw [verifySelectedAgent_iff hfile, hnamed]
    have hresolves : Resolves fs' path later target ↔ _ := hselected.resolves_iff hroot
    unfold Resolves at hresolves
    rw [hresolves]
  · intro houtside
    have hnot : ¬ Resolves fs' path later target := not_resolves houtside
    unfold Resolves at hnot
    rw [verifySelectedAgent_iff hfile, hnamed, or_iff_right_of_imp (fun h => absurd h hnot)]

end

open Updater.Sample in
theorem exists_launcher : ∃ fs, Reaches Updater.Sample.root Updater.Sample.empty fs ∧
    Records fs Updater.Sample.root activeFirst ∧
    IsInstallRoot fs Updater.Sample.path Updater.Sample.root ∧ fs.Writable Updater.Sample.root ∧
    TemporaryFree fs Updater.Sample.root (moment 0) ∧
    fs.canonicalize ["opt", "launcher"] = some ["opt", "launcher"] := by
  obtain ⟨before, hreach, hat⟩ := reaches_activeFirst
  have hsound := (ReachesBy.sound hreach emptyRoot_empty.sound).1
  have hwritable : before.Writable Updater.Sample.root := by
    rw [FileSystem.Writable, hat.node _ (by decide)]
    decide
  have hfree : before.node ["opt", "launcher"] = none := by
    rw [hat.node _ (by decide)]
    decide
  have hname : Ordinary "launcher" := by decide
  obtain ⟨fs, hcreate⟩ := create_append (n := .file [127] 0o755) hwritable hname hfree
  have hnew : WithNode ["opt", "launcher"] (.file [127] 0o755) before fs :=
    (create_eq_some hcreate).2.2
  have hpreserves : Preserves Updater.Sample.root before fs := by
    apply hsound.preserves_of_below (hnew.below id) (by decide) (by decide)
    intro p content mode hversions hbelow
    obtain ⟨x, rfl⟩ := hbelow
    obtain ⟨y, hy⟩ := hversions
    simp [versionsPath, Updater.Sample.root] at hy
  have hsame : ∀ p, p ≠ ["opt", "launcher"] → fs.node p = before.node p := by
    intro p hp
    rw [hnew p, if_neg hp]
  refine ⟨fs, hreach.tail ⟨none, trivial, .outside hpreserves⟩, ?_, ?_, ?_, ?_, ?_⟩
  · exact hat.records.of_same (hsame _ (by decide))
  · exact isInstallRoot_self hpreserves.directory
  · rw [FileSystem.Writable, hsame _ (by decide)]
    exact hwritable
  · obtain ⟨nonce, hnonce, hnone⟩ := (hat.publishable fits_activeFirst 0).free
    refine ⟨nonce, hnonce, ?_⟩
    rw [hsame, hnone]
    intro heq
    have htemporary : temporaryName 7 nonce ≠ "launcher" := temporaryName_ne (by decide)
    simp [temporaryPath, Updater.Sample.root, moment, htemporary] at heq
  · exact canonicalize_of_real (real_of_file hnew.node)

open Updater.Sample in
theorem handed_over_accepts_iff_sample : ∃ fs fs' target handoff,
    exec device (launcherMain (some ["opt", "launcher"]) "0.4.0" (moment 0)) fs =
      (.ok (target, handoff), fs') ∧ target = ["opt", "versions", "1", "agent"] ∧
    (IsInstallRoot fs' ⟨true, Updater.Sample.root⟩ Updater.Sample.root →
      ((exec device (verifySelectedAgent (some target) handoff "0.5.0"
        ⟨true, Updater.Sample.root⟩ false (moment 1)) fs').1 = .ok () ↔
        "0.5.0" = "0.4.0" ∨ (fs'.Writable Updater.Sample.root ∧
          TemporaryFree fs' Updater.Sample.root (moment 1)) ∨ false = true)) := by
  obtain ⟨fs, hreach, hrecords, hroot, hwritable, hfree, hlauncher⟩ := exists_launcher
  have hsound := (ReachesBy.sound hreach emptyRoot_empty.sound).1
  have hactive := exec_activeTarget_of_sound hsound hrecords hroot rfl hwritable hfree
  have hexe : (some ["opt", "launcher"]).bind fs.canonicalize =
      some (Updater.Sample.root ++ ["launcher"]) := hlauncher
  have hne : (["opt", "versions", "1", "agent"] : Path) ≠ Updater.Sample.root ++ ["launcher"] := by
    decide
  have hpath : Updater.Sample.root ++ pathNames first.relativePath =
      ["opt", "versions", "1", "agent"] := by
    decide +kernel
  rw [hpath] at hactive
  rcases hexec : exec device (activeTarget Updater.Sample.path (moment 0)) fs with ⟨r, fs'⟩
  rw [hexec] at hactive
  obtain rfl : r = .ok ["opt", "versions", "1", "agent"] := hactive
  have hlaunch : exec device (launcherMain (some ["opt", "launcher"]) "0.4.0" (moment 0)) fs =
      (.ok (["opt", "versions", "1", "agent"],
        ⟨some "1", some "0.4.0", some ["opt", "versions", "1", "agent"]⟩), fs') := by
    rw [exec_launcherMain hexe (List.concat_ne_nil _ _), List.dropLast_concat]
    unfold Updater.Sample.path at hexec
    rw [hexec]
    dsimp only
    rw [if_pos hne]
  have haccepts := handed_over_accepts_iff emptyRoot_empty hreach hexe hlaunch
  exact ⟨fs, fs', _, _, hlaunch, rfl, (haccepts.2 "0.5.0" _ false (moment 1)).1⟩

end CertaelAgent.Agent
