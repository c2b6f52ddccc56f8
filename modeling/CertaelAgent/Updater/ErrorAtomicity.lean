import CertaelAgent.Foundation.Entries
import CertaelAgent.Updater.Reachability

/-!
# Errors and the activation state

A caller that sees an error wants the old slots. Every step in front of the rename leaves
`activation.json` alone, whatever fails and whatever else is in the installation root; the one step
behind it, the sync of the root, reports its failure as the others do.
-/

namespace CertaelAgent.Updater

open ProtoWire Protocol Files Files.FileSystem Program

/-- The bytes of `activation.json`, if it is a regular file. -/
def heldBytes (fs : FileSystem) (root : Path) : Option Bytes :=
  match fs.node (activationPath root) with
  | some (.file content _) => some content
  | _ => none

/-- An error leaves `activation.json` with these bytes. -/
def ErrorKeeps {α : Type} (root : Path) (bytes : Option Bytes) (r : Except UpdateError α)
    (fs : FileSystem) : Prop :=
  ∀ e, r = .error e → heldBytes fs root = bytes

section

variable {α : Type} {fs fs' : FileSystem} {root : Path} {bytes : Option Bytes}
  {mayFail : FsOp → Bool} {state : ActivationState} {now later : Moment} {path : PathBuf}

theorem ErrorKeeps.ok (root : Path) (bytes : Option Bytes) (a : α) (fs : FileSystem) :
    ErrorKeeps root bytes (.ok a) fs := by
  intro e h
  cases h

theorem ErrorKeeps.of_held {e : UpdateError} (h : heldBytes fs root = bytes) :
    ErrorKeeps root bytes (.error e : Except UpdateError α) fs := fun _ _ => h

theorem heldBytes_of_node (h : fs'.node (activationPath root) = fs.node (activationPath root)) :
    heldBytes fs' root = heldBytes fs root := by
  rw [heldBytes, h]
  rfl

theorem heldBytes_of_made (h : OnlyMade fs fs') : heldBytes fs' root = heldBytes fs root := by
  rcases h (activationPath root) with hsame | ⟨hnone, hmade⟩
  · exact heldBytes_of_node hsame
  · simp [heldBytes, hnone, hmade]

theorem wp_ignore_errorKeeps {program : FileProgram UpdateError α}
    (h : wp device mayFail (fun _ => True) (ErrorKeeps root bytes) program fs) :
    wp device mayFail (fun _ => True) (ErrorKeeps root bytes) (ignore program) fs := by
  apply wp_bind
  apply wp_mono h
  intro r fs' hkeeps
  cases r with
  | ok a => exact .ok root bytes () fs'
  | error e => exact .of_held (hkeeps e rfl)

/-- A write that fails has not replaced the file, unless the sync of the root has failed. -/
theorem wp_write_errorKeeps (hroot : fs.Directory root) (hsync : mayFail (.syncAll root) = false)
    (a : α) : wp device mayFail (fun _ => True) (ErrorKeeps root (heldBytes fs root))
      (writeActivationState root state now >>= fun _ => done (.ok a)) fs := by
  apply wp_bind
  apply wp_writeActivationState hroot
  · rintro fs' ⟨nonce, hbelow⟩
    refine ⟨trivial, fun _ e => .of_held ?_⟩
    exact heldBytes_of_node (hbelow.1 _ (temporaryPath_apart root now.processId nonce))
  · intro _ fs₁ _
    refine ⟨.ok root _ a fs₁, fun fs' _ => ⟨trivial, fun hfails => ?_⟩⟩
    rw [hsync] at hfails
    cases hfails

theorem wp_canonicalInstallRoot_errorKeeps {f : Path → FileProgram UpdateError α}
    (hpath : fs.canonicalize path.names = some root)
    (h : fs.Directory root →
      wp device mayFail (fun _ => True) (ErrorKeeps root (heldBytes fs root)) (f root) fs) :
    wp device mayFail (fun _ => True) (ErrorKeeps root (heldBytes fs root))
      (canonicalInstallRoot path >>= f) fs := by
  apply (cautious_canonicalInstallRoot path).wp_bind trivial
  · intro root' hroot'
    have hcanonical := IsInstallRoot.canonicalize hroot'
    rw [hpath, Option.some.injEq] at hcanonical
    subst hcanonical
    exact h (IsInstallRoot.directory hroot')
  · exact fun e => .of_held rfl

/-! ## Below the directory of the versions -/

theorem heldBytes_of_versions (h : Elsewhere root ["versions"] fs fs') :
    heldBytes fs' root = heldBytes fs root :=
  heldBytes_of_node (h.node (by decide))

section

variable [Crates] {config : InstallConfig} {source : Path} {name sha256 : String}
  {I : FileSystem → Prop} {Q : Except UpdateError Unit → FileSystem → Prop}

theorem wp_fillVersionDirectory_elsewhere {fs₁ : FileSystem}
    (hversions : fs.Directory (versionsPath root))
    (hcreated : WithNode (versionsPath root ++ [name]) (.directory true) fs fs₁)
    (hinstalled : Ordinary config.installedName)
    (h : ∀ fs', Elsewhere (versionsPath root) [name, config.version] fs fs' → I fs' ∧ ∀ r, Q r fs') :
    wp device mayFail I Q (fillVersionDirectory source (versionsPath root) config sha256
      (versionsPath root ++ [name])) fs₁ := by
  have hmade : Elsewhere (versionsPath root) [name] fs fs₁ := withNode_elsewhere hcreated
  have hdir : fs₁.Directory (versionsPath root ++ [name]) :=
    directory_iff.mpr ⟨true, hcreated.node⟩
  have hsub : [name] ⊆ [name, config.version] := by simp
  have hstart := h fs₁ (hmade.mono hsub)
  unfold fillVersionDirectory
  apply wp_bind
  apply wp_mono (Q := fun r fs₂ => Elsewhere (versionsPath root) [name] fs fs₂ ∧
    (r = .ok () → fs₂.Directory (versionsPath root ++ [name])))
  · apply wp_copyAndVerify hdir hinstalled hstart.1
    · exact fun e => ⟨hmade, by simp⟩
    · intro fs₂ content mode hcopied
      have hcopy : Elsewhere (versionsPath root) [name] fs fs₂ :=
        hmade.trans (withNode_elsewhere hcopied).up
      refine ⟨(h fs₂ (hcopy.mono hsub)).1, fun r => ⟨hcopy, fun _ => ?_⟩⟩
      exact fs₂.parent _ _ _ hcopied.node
  · rintro r fs₂ ⟨hcopy, hdir₂⟩
    have hrest := h fs₂ (hcopy.mono hsub)
    cases r with
    | error e => exact hrest.2 _
    | ok _ =>
      refine wp_ensure_bind ⟨hrest.1, ?_, fun _ => hrest.2 _⟩
      rw [perform_syncAll, canonicalize_of_real (hdir₂ rfl).real]
      apply wp_ensure_bind
      have hleads : Leads [] (versionsPath root) (versionsPath root) fs₂ :=
        .of_directory [] (hcopy.directory hversions)
      change wp device mayFail I _ (.call (FsOp.rename _ _) fun renamed => done (.ok renamed)) fs₂
      apply wp_rename_entry hleads hrest.1
      · exact hrest.2 _
      · intro fs₃ hrename
        have hlast := h fs₃ ((hcopy.mono hsub).trans (moved_of_renameEntry hrename).elsewhere)
        refine wp_ensure ⟨hlast.1, ?_, fun _ => hlast.2 _⟩
        rw [perform_syncAll]
        cases (fs₃.canonicalize (versionsPath root)).isSome <;> exact hlast.2 _

theorem wp_placeTarget_elsewhere (hversions : fs.Directory (versionsPath root))
    (hinstalled : Ordinary config.installedName)
    (h : ∀ fs', Elsewhere root ["versions"] fs fs' → I fs' ∧ ∀ r, Q r fs') :
    wp device mayFail I Q (placeTarget source (versionsPath root) config sha256 now) fs := by
  have hstart := h fs (.refl _ _ fs)
  unfold placeTarget
  apply wp_read (show device.reads (.pathExists _) from rfl) hstart.1
  intro found
  cases found with
  | true =>
    apply (cautious_hashFile _).wp_bind hstart.1
    · intro digest _
      unfold Program.require
      split_ifs <;> exact hstart.2 _
    · exact fun _ => hstart.2 _
  | false =>
    refine wp_expect_done_bind (fun nonce _ => ?_) fun _ => hstart.2 _
    have hname := ordinary_temporaryDirectoryName now.processId nonce
    have hleads : Leads [temporaryDirectoryName now.processId nonce] (versionsPath root)
        (versionsPath root) fs := .of_directory _ hversions
    apply wp_createDir_entry hleads hname hstart.1
    · exact fun _ => hstart.2 _
    · intro fs₁ hcreated _
      change wp device mayFail I Q (attempt _ >>= _) fs₁
      apply wp_bind
      apply wp_attempt
      apply wp_fillVersionDirectory_elsewhere hversions hcreated hinstalled
      intro fs₂ hfilled
      have hfilled' := h fs₂ hfilled.up
      refine ⟨hfilled'.1, fun r => ?_⟩
      cases r with
      | ok _ => exact hfilled'.2 _
      | error e =>
        apply wp_bind
        apply wp_removeEntry maxDepth (.of_directory _ (hfilled.directory hversions)) hname
        · exact fun fs₃ hpruned => (h fs₃ (hfilled.up.trans hpruned.elsewhere.up)).1
        · exact fun _ fs₃ hpruned _ => (h fs₃ (hfilled.up.trans hpruned.elsewhere.up)).2 _

end

/-! ## The operations -/

/-- Where the installation root leads once its missing directories have been made. -/
def madeRoot (fs : FileSystem) (names : Path) : Option Path :=
  (exec device (createDirAll (names.length + 1) names : FileProgram UpdateError Bool) fs).2.canonicalize
    names

theorem isInstallRoot_of_metadata {names : Path} {metadata : Metadata}
    (hlook : fs.metadataAt names = some metadata) (htype : metadata.fileType = .directory)
    (hcanonical : fs.canonicalize names = some root) : IsInstallRoot fs ⟨true, names⟩ root := by
  unfold FileSystem.metadataAt at hlook
  rw [IsInstallRoot, eval_canonicalInstallRoot, hlook, hcanonical]
  simp [Except.require, htype, Except.ofOption, bind, Except.bind]

variable [Crates] [SerdeJson]

theorem wp_installVerifiedTarget_errorKeeps {source : Path} {config : InstallConfig} {digest : String}
    (hroot : madeRoot fs config.installRoot.names = some root)
    (hsync : mayFail (.syncAll root) = false) :
    wp device mayFail (fun _ => True) (ErrorKeeps root (heldBytes fs root))
      (installVerifiedTarget source config digest now later) fs := by
  have hrefl : ∀ e : UpdateError, ErrorKeeps root (heldBytes fs root)
      (.error e : Except UpdateError Path) fs := fun _ => .of_held rfl
  unfold installVerifiedTarget
  refine wp_done_bind (fun _ hvalid => ?_) fun e _ => hrefl e
  obtain ⟨_, hname, _⟩ := validateInstall_eq_ok hvalid
  refine (cautious_symlinkMetadata _ _).wp_bind trivial (fun _ _ => ?_) hrefl
  refine wp_require_bind (fun _ => ?_) fun _ => hrefl _
  apply wp_ensure_bind
  apply wp_weaken (wp_createDirAll_makes _ _ fs) fun _ _ => trivial
  rintro (e | _ | _) fs₁ hmakes
  · exact hmakes.elim
  · exact .of_held (heldBytes_of_made hmakes.1)
  · obtain ⟨hmade, hundisturbed⟩ := hmakes
    rw [madeRoot, hundisturbed rfl] at hroot
    rw [← heldBytes_of_made hmade]
    have hrefl : ∀ e : UpdateError, ErrorKeeps root (heldBytes fs₁ root)
        (.error e : Except UpdateError Path) fs₁ := fun _ => .of_held rfl
    refine (cautious_symlinkMetadata _ _).wp_bind trivial (fun metadata hlook => ?_) hrefl
    refine wp_require_bind (fun htype => ?_) fun _ => hrefl _
    refine (cautious_canonicalize _ _).wp_bind trivial (fun root' hroot' => ?_) hrefl
    rw [eval_canonicalize, Except.ofOption_eq_ok_iff, hroot, Option.some.injEq] at hroot'
    subst hroot'
    rw [eval_symlinkMetadata, Except.ofOption_eq_ok_iff] at hlook
    have hdirectory : fs₁.Directory root := (isInstallRoot_of_metadata hlook htype hroot).directory
    have hkeeps : ∀ fs', Elsewhere root ["versions"] fs₁ fs' → ∀ e : UpdateError,
        ErrorKeeps root (heldBytes fs₁ root) (.error e : Except UpdateError Path) fs' :=
      fun fs' h _ => .of_held (heldBytes_of_versions h)
    apply wp_ensure_bind
    apply wp_mono (Q := fun _ fs₂ => Elsewhere root ["versions"] fs₁ fs₂)
    · apply wp_createDirAll_append hdirectory (by decide) _ trivial
      · exact fun _ => .refl _ _ fs₁
      · intro fs₂ hcreate
        obtain ⟨_, _, hnew⟩ := create_eq_some hcreate
        exact withNode_elsewhere hnew
    · intro r fs₂ h₂
      rcases r with e | made
      · exact hkeeps fs₂ h₂ e
      cases made with
      | false => exact hkeeps fs₂ h₂ _
      | true =>
        have hdirectory₂ := h₂.directory hdirectory
        refine (cautious_symlinkMetadata _ _).wp_bind trivial (fun metadata hlook => ?_) (hkeeps fs₂ h₂)
        refine wp_require_bind (fun htype => ?_) fun _ => hkeeps fs₂ h₂ _
        have hversions : fs₂.Directory (versionsPath root) :=
          directory_of_metadata hdirectory₂ (by decide) hlook htype
        apply wp_bind
        apply wp_placeTarget_elsewhere hversions (safeComponent_ordinary hname)
        intro fs₃ hplaced
        have h₃ := h₂.trans hplaced
        refine ⟨trivial, fun r => ?_⟩
        cases r with
        | error e => exact hkeeps fs₃ h₃ e
        | ok _ =>
          refine (cautious_verifySlot root _).wp_bind trivial (fun _ _ => ?_) (hkeeps fs₃ h₃)
          refine (readOnly_readActivationState _).wp_bind trivial (fun read => ?_) (hkeeps fs₃ h₃)
          rw [← heldBytes_of_versions h₃]
          exact wp_write_errorKeeps (h₃.directory hdirectory) hsync _

theorem wp_verifyStageAndInstallAutomatic_errorKeeps
    {release : Except UpdateError VerifiedReleaseTarget} {name channel platform : String}
    (hroot : madeRoot fs path.names = some root) (hsync : mayFail (.syncAll root) = false) :
    wp device mayFail (fun _ => True) (ErrorKeeps root (heldBytes fs root))
      (verifyStageAndInstallAutomatic release path name channel platform now later) fs := by
  unfold verifyStageAndInstallAutomatic
  refine wp_done_bind (fun staged _ => ?_) fun _ _ => .of_held rfl
  refine wp_require_bind (fun _ => ?_) fun _ => .of_held rfl
  refine (cautious_hashFile _).wp_bind trivial (fun digest _ => ?_) fun _ => .of_held rfl
  exact wp_installVerifiedTarget_errorKeeps hroot hsync

section

variable (hpath : fs.canonicalize path.names = some root) (hsync : mayFail (.syncAll root) = false)

include hpath hsync

theorem wp_activatePending_errorKeeps :
    wp device mayFail (fun _ => True) (ErrorKeeps root (heldBytes fs root))
      (activatePending path now) fs := by
  unfold activatePending
  refine wp_canonicalInstallRoot_errorKeeps hpath fun hdirectory => ?_
  refine (readOnly_readActivationState _).wp_bind trivial (fun state => ?_) fun _ => .of_held rfl
  refine wp_expect_done_bind (fun pending _ => ?_) fun _ => .of_held rfl
  refine (cautious_verifySlot root pending).wp_bind trivial (fun _ _ => ?_) fun _ => .of_held rfl
  exact wp_write_errorKeeps hdirectory hsync _

theorem wp_rollback_errorKeeps :
    wp device mayFail (fun _ => True) (ErrorKeeps root (heldBytes fs root)) (rollback path now) fs := by
  unfold rollback
  refine wp_canonicalInstallRoot_errorKeeps hpath fun hdirectory => ?_
  refine (readOnly_readActivationState _).wp_bind trivial (fun state => ?_) fun _ => .of_held rfl
  refine wp_expect_done_bind (fun previous _ => ?_) fun _ => .of_held rfl
  refine (cautious_verifySlot root previous).wp_bind trivial (fun _ _ => ?_) fun _ => .of_held rfl
  exact wp_write_errorKeeps hdirectory hsync _

theorem wp_recover_errorKeeps :
    wp device mayFail (fun _ => True) (ErrorKeeps root (heldBytes fs root)) (recover path now) fs := by
  unfold recover
  refine wp_canonicalInstallRoot_errorKeeps hpath fun hdirectory => ?_
  refine (readOnly_readActivationState _).wp_bind trivial (fun state => ?_) fun _ => .of_held rfl
  refine (readOnly_repair root state).wp_bind trivial (fun repaired => ?_) fun _ => .of_held rfl
  exact wp_write_errorKeeps hdirectory hsync _

theorem wp_registerExistingVersion_errorKeeps {version name : String} {activate : Bool} :
    wp device mayFail (fun _ => True) (ErrorKeeps root (heldBytes fs root))
      (registerExistingVersion path version name activate now) fs := by
  unfold registerExistingVersion
  refine wp_canonicalInstallRoot_errorKeeps hpath fun hdirectory => ?_
  refine wp_require_bind (fun _ => ?_) fun _ => .of_held rfl
  refine (cautious_hashFile _).wp_bind trivial (fun sha256 _ => ?_) fun _ => .of_held rfl
  refine (cautious_verifySlot root _).wp_bind trivial (fun _ _ => ?_) fun _ => .of_held rfl
  refine (readOnly_readActivationStateCanonical root).wp_bind trivial (fun state => ?_)
    fun _ => .of_held rfl
  exact wp_write_errorKeeps hdirectory hsync _

end

omit [Crates] [SerdeJson] in
/-- The directory that a call works in: where its installation root leads, once an installation
has made what is missing of it. -/
def Call.workingRoot (fs : FileSystem) : Call → Option Path
  | .installVerifiedTarget _ config _ _ _ => madeRoot fs config.installRoot.names
  | .verifyStageAndInstallAutomatic _ installRoot _ _ _ _ _ => madeRoot fs installRoot.names
  | .activatePending installRoot _ => fs.canonicalize installRoot.names
  | .rollback installRoot _ => fs.canonicalize installRoot.names
  | .recover installRoot _ => fs.canonicalize installRoot.names
  | .registerExistingVersion installRoot _ _ _ _ => fs.canonicalize installRoot.names
  | .activeTarget installRoot _ => fs.canonicalize installRoot.names

/-- Whatever fails, a call that returns an error leaves the bytes of `activation.json` as they were,
unless the sync of the installation root can fail. -/
theorem error_keeps_activation {call : Call} (hcall : ∀ path now, call ≠ .activeTarget path now)
    {fs : FileSystem} {root : Path} (hroot : call.workingRoot fs = some root) {mayFail : FsOp → Bool}
    (hsync : mayFail (.syncAll root) = false) {schedule : List Verdict} {e : UpdateError}
    {fs' : FileSystem} (hrun : run device mayFail call.program schedule fs = .finished (.error e) fs') :
    heldBytes fs' root = heldBytes fs root := by
  have hwp : wp device mayFail (fun _ => True) (ErrorKeeps root (heldBytes fs root)) call.program fs := by
    cases call with
    | installVerifiedTarget =>
      exact wp_ignore_errorKeeps (wp_installVerifiedTarget_errorKeeps hroot hsync)
    | verifyStageAndInstallAutomatic =>
      exact wp_ignore_errorKeeps (wp_verifyStageAndInstallAutomatic_errorKeeps hroot hsync)
    | activatePending => exact wp_ignore_errorKeeps (wp_activatePending_errorKeeps hroot hsync)
    | rollback => exact wp_ignore_errorKeeps (wp_rollback_errorKeeps hroot hsync)
    | recover => exact wp_ignore_errorKeeps (wp_recover_errorKeeps hroot hsync)
    | registerExistingVersion =>
      exact wp_ignore_errorKeeps (wp_registerExistingVersion_errorKeeps hroot hsync)
    | activeTarget path now => exact absurd rfl (hcall path now)
  have hsatisfies := wp_sound hwp schedule
  rw [hrun] at hsatisfies
  exact hsatisfies e rfl

end

namespace Sample

/-- The first version is registered in an installation without a state, and these operations fail. -/
def registering (mayFail : FsOp → Bool) : Outcome UpdateError Unit FileSystem :=
  run device mayFail (Call.registerExistingVersion path "1" "agent" false (moment 0)).program
    (List.replicate 50 .fault) populated

/-- The registration returned an error, and this is what `activation.json` has then. -/
def heldAfterError (mayFail : FsOp → Bool) : Option (UpdateError × Option Bytes) :=
  match registering mayFail with
  | .finished (.error e) fs => some (e, heldBytes fs root)
  | _ => none

theorem finished_of_heldAfterError {mayFail : FsOp → Bool} {e : UpdateError} {bytes : Option Bytes}
    (h : heldAfterError mayFail = some (e, bytes)) :
    ∃ fs, registering mayFail = .finished (.error e) fs ∧ heldBytes fs root = bytes := by
  unfold heldAfterError at h
  split at h
  · obtain ⟨rfl, rfl⟩ := Prod.mk.inj (Option.some.inj h)
    exact ⟨_, ‹_›, rfl⟩
  · cases h

end Sample

open Updater.Sample in
/-- The new state is in place, and the sync of the root fails. -/
theorem activation_replaced_before_error : ∃ e fs',
    run device (· == .syncAll root)
        (Call.registerExistingVersion path "1" "agent" false (moment 0)).program
        (List.replicate 50 .fault) populated = .finished (.error e) fs' ∧
      heldBytes populated root = none ∧
      heldBytes fs' root = some (toVec ⟨1, some first, none, none⟩) := by
  obtain ⟨fs', hrun, hheld⟩ := @finished_of_heldAfterError (· == .syncAll root) .installation
    (some (toVec ⟨1, some first, none, none⟩)) (by decide +kernel)
  exact ⟨.installation, fs', hrun, by decide, hheld⟩

open Updater.Sample in
/-- The permissions of the temporary file cannot be set. -/
theorem error_keeps_activation_sample : ∃ e fs',
    run device (· == .setPermissions (temporaryPath root 7 0) 0o600)
        (Call.registerExistingVersion path "1" "agent" false (moment 0)).program
        (List.replicate 50 .fault) populated = .finished (.error e) fs' ∧
      heldBytes fs' root = heldBytes populated root := by
  obtain ⟨fs', hrun, -⟩ := @finished_of_heldAfterError
    (· == .setPermissions (temporaryPath root 7 0) 0o600) .installation none (by decide +kernel)
  exact ⟨.installation, fs', hrun, error_keeps_activation (by simp) (by decide) (by decide) hrun⟩

end CertaelAgent.Updater
