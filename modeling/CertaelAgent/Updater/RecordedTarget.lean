import CertaelAgent.Updater.PlacedTarget

/-!
# Recording a target beside another process

The slot of a target that is in its place becomes the pending one in `activation.json`. Whatever
another process does to the file that the target came from, the bytes of `activation.json` are the
old ones or those of a state in which the expected digest is pending.
-/

namespace CertaelAgent.Updater

open ProtoWire Protocol Files Files.FileSystem Program

/-! ## The pending slot -/

/-- `activation.json` has these bytes, or a state in which the digest is pending. -/
def PendingOnly (root : Path) (held : Option Bytes) (sha256 : String) (fs : FileSystem) : Prop :=
  heldBytes fs root = held ∨ ∃ state slot, heldBytes fs root = some (toVec state) ∧
    state.pending = some slot ∧ slot.sha256 = sha256

section

variable [Crates] {f t root source : Path} {fs : FileSystem} {version name sha256 : String}
  {held : Option Bytes} {fuel : ℕ} {mayFail : PieceOp → Bool} {I J : FileSystem → Prop}
  {config : InstallConfig} {now : Moment} {state : ActivationState} {processId nonce : ℕ}

omit [Crates] in
theorem temporaryPath_apart_target (root : Path) (config : InstallConfig) (processId nonce : ℕ) :
    ¬ temporaryPath root processId nonce <+: targetPath root config := by
  unfold temporaryPath targetPath versionsPath
  rw [List.append_assoc, List.append_assoc, List.prefix_append_right_inj]
  intro h
  exact temporaryName_ne (by decide) (List.cons_prefix_cons.mp h).1

theorem InPlace.of_below (h : InPlace root (targetPath root config) sha256 held fs) {fs' : FileSystem}
    (hbelow : Below (temporaryPath root processId nonce) fs fs') :
    InPlace root (targetPath root config) sha256 held fs' where
  directory := directory_of_below_temporary h.directory hbelow
  target := by
    obtain ⟨content, mode, hnode, hdigest⟩ := h.target
    refine ⟨content, mode, ?_, hdigest⟩
    rw [hbelow.1 _ (temporaryPath_apart_target root config processId nonce), hnode]
  held := (heldBytes_of_node (hbelow.1 _ (temporaryPath_apart root processId nonce))).trans h.held

/-- In addition, no link is at the temporary file. -/
def Recording (root : Path) (config : InstallConfig) (sha256 : String) (held : Option Bytes)
    (processId nonce : ℕ) (fs : FileSystem) : Prop :=
  InPlace root (targetPath root config) sha256 held fs ∧
    ∀ q, temporaryPath root processId nonce <+: q → fs.LinkFree q

theorem steady_recording (houtside : ¬ root <+: f)
    (hI : ∀ fs, InPlace root (targetPath root config) sha256 held fs → I fs) (processId nonce : ℕ) :
    Steady f (temporaryPath root processId nonce) I
      (Recording root config sha256 held processId nonce) where
  rewrites _ _ h hrewrites :=
    ⟨h.1.of_rewrites houtside (prefix_targetPath root config) hrewrites,
      fun q hq => hrewrites.linkFree (h.2 q hq)⟩
  below _ _ h hbelow := ⟨h.1.of_below hbelow, fun q hq => hbelow.linkFree (h.2 q hq)⟩
  linkFree _ h := h.2
  holds fs h := hI fs h.1

theorem beside_removeTemporary (houtside : ¬ root <+: f)
    (hI : ∀ fs, InPlace root (targetPath root config) sha256 held fs → I fs)
    (h : Recording root config sha256 held processId nonce fs) (e : UpdateError) :
    beside f fuel mayFail I (fun r fs' => I fs' ∧ r ≠ .ok ())
      (removeFile (temporaryPath root processId nonce) >>= fun _ => fail e :
        FileProgram UpdateError Unit) fs := by
  have hsteady := steady_recording houtside hI processId nonce
  have hordinary := ordinary_append (ordinary_of_directory h.1.directory)
    (ordinary_temporaryName processId nonce)
  have hkept : Kept f fuel mayFail I (Recording root config sha256 held processId nonce)
      (removeFile (temporaryPath root processId nonce) : FileProgram UpdateError Bool) :=
    hsteady.entry rfl (List.prefix_refl _) hordinary fun _ => hsteady.done _
  apply beside_bind
  apply beside_mono (hkept fs h)
  intro r fs₁ h₁
  cases r with
  | ok _ =>
    intro fs₂ hfs₂
    exact ⟨hI fs₂ (hsteady.rewrites fs₁ fs₂ h₁ hfs₂).1, fun hok => by cases hok⟩
  | error e' => exact ⟨hI fs₁ h₁.1, fun hok => by cases hok⟩

theorem Recording.of_rename {mode : ℕ} (h : Recording root config sha256 held processId nonce fs)
    (hfile : fs.node (temporaryPath root processId nonce) = some (.file (toVec state) mode))
    {fs' : FileSystem} (hrename : fs.renameEntry (temporaryPath root processId nonce)
      (activationPath root) = some fs') :
    Recording root config sha256 (some (toVec state)) processId nonce fs' := by
  have hne := temporaryPath_ne root processId nonce
  obtain ⟨-, hnode⟩ := renameEntry_file_eq_some hfile hne hrename
  have hroot : fs'.Directory root := by
    have hactivation : root ≠ activationPath root := by simp [activationPath]
    have htemporary : root ≠ temporaryPath root processId nonce := by simp [temporaryPath]
    rw [directory_iff, hnode, if_neg hactivation, if_neg htemporary, ← directory_iff]
    exact h.1.directory
  refine ⟨⟨hroot, ?_, ?_⟩, linkFree_of_none hroot.real.linkFree ?_⟩
  · obtain ⟨content, mode, htarget, hdigest⟩ := h.1.target
    refine ⟨content, mode, ?_, hdigest⟩
    have hactivation : targetPath root config ≠ activationPath root := by
      intro heq
      have hlen := congrArg List.length heq
      simp [targetPath, versionsPath, activationPath] at hlen
    have htemporary : targetPath root config ≠ temporaryPath root processId nonce := by
      intro heq
      have hlen := congrArg List.length heq
      simp [targetPath, versionsPath, temporaryPath] at hlen
    rw [hnode, if_neg hactivation, if_neg htemporary, htarget]
  · rw [heldBytes, hnode, if_pos rfl]
  · change fs'.node (temporaryPath root processId nonce) = none
    rw [hnode, if_neg hne, if_pos rfl]

section

variable (houtside : ¬ root <+: f)
  (hold : ∀ fs, InPlace root (targetPath root config) sha256 held fs → I fs)
  (hnew : ∀ fs, InPlace root (targetPath root config) sha256 (some (toVec state)) fs → I fs)

include houtside hold hnew

/-- The state is in place at the end, or the temporary file may still be there. -/
theorem beside_replaceActivationState {mode : ℕ}
    (h : Recording root config sha256 held processId nonce fs)
    (hfile : fs.node (temporaryPath root processId nonce) = some (.file [] mode)) :
    beside f fuel mayFail I (fun r fs' =>
      Recording root config sha256 (some (toVec state)) processId nonce fs' ∨
        (∃ e, r = .error e) ∧ Recording root config sha256 held processId nonce fs')
      (replaceActivationState root (toVec state) (temporaryPath root processId nonce)) fs := by
  have hsteady := steady_recording houtside hold processId nonce
  have hsteady' := steady_recording houtside hnew processId nonce
  have hne : temporaryPath root processId nonce ≠ f := by
    rintro rfl
    exact houtside (List.prefix_append _ _)
  have herror : ∀ (e : UpdateError) fs₁, Recording root config sha256 held processId nonce fs₁ →
      beside f fuel mayFail I (fun r fs' =>
        Recording root config sha256 (some (toVec state)) processId nonce fs' ∨
          (∃ e, r = .error e) ∧ Recording root config sha256 held processId nonce fs')
        (done (.error e) : FileProgram UpdateError Unit) fs₁ :=
    fun e fs₁ h₁ fs₂ hfs₂ => .inr ⟨⟨e, rfl⟩, hsteady.rewrites fs₁ fs₂ h₁ hfs₂⟩
  unfold replaceActivationState
  apply beside_call (.append _ _) id
  intro fs₁ hfs₁
  have h₁ := hsteady.rewrites fs fs₁ h hfs₁
  obtain ⟨fs₂, happend, hcontent⟩ :=
    perform_append_of_file ((hfs₁.node hne).trans hfile) (toVec state)
  have h₂ := hsteady.below fs₁ fs₂ h₁ (hcontent.below id)
  refine ⟨hold fs₁ h₁.1, ?_, herror _ fs₁ h₁⟩
  rw [show (FsOp.append _ _).perform fs₁ = _ from happend]
  change beside f fuel mayFail I _ (ensure UpdateError.installation (syncAll _) >>= _) fs₂
  apply beside_quiet (.syncAll _) id rfl
  intro fs₃ hfs₃
  have h₃ := hsteady.rewrites fs₂ fs₃ h₂ hfs₃
  refine ⟨hold fs₃ h₃.1, fun synced => ?_⟩
  cases synced with
  | false => exact herror _ fs₃ h₃
  | true =>
    change beside f fuel mayFail I _ (ensure UpdateError.installation (rename _ _) >>= _) fs₃
    apply beside_call (.rename _ _) id
    intro fs₄ hfs₄
    have h₄ := hsteady.rewrites fs₃ fs₄ h₃ hfs₄
    have hfile₄ := (hfs₄.node hne).trans ((hfs₃.node hne).trans hcontent.node)
    refine ⟨hold fs₄ h₄.1, ?_, herror _ fs₄ h₄⟩
    have hperform : (FsOp.rename (temporaryPath root processId nonce) (activationPath root)).perform
        fs₄ = committed fs₄ (fs₄.renameEntry (temporaryPath root processId nonce)
          (activationPath root)) :=
      perform_rename_append h₄.1.directory (ordinary_temporaryName ..) ordinary_activation
    rw [hperform]
    cases hrename : fs₄.renameEntry (temporaryPath root processId nonce) (activationPath root) with
    | none => exact herror _ fs₄ h₄
    | some fs₅ =>
      have h₅ := h₄.of_rename hfile₄ hrename
      have hlast : Kept f fuel mayFail I
          (Recording root config sha256 (some (toVec state)) processId nonce)
          (ensure .installation (syncAll root) : FileProgram UpdateError Unit) :=
        hsteady'.ensure (hsteady'.quiet rfl fun _ => hsteady'.done _)
      exact beside_mono (hlast fs₅ h₅) fun _ _ h => .inl h

/-- A write that is done has recorded the state; whatever happens, it is that state or the old one. -/
theorem beside_writeActivationState (h : InPlace root (targetPath root config) sha256 held fs) :
    beside f fuel mayFail I (fun r fs' => I fs' ∧ (r = .ok () →
      InPlace root (targetPath root config) sha256 (some (toVec state)) fs'))
      (writeActivationState root state now) fs := by
  have hkept : ∀ {fs fs'}, InPlace root (targetPath root config) sha256 held fs → Rewrites f fs fs' →
      InPlace root (targetPath root config) sha256 held fs' :=
    fun h hrewrites => h.of_rewrites houtside (prefix_targetPath root config) hrewrites
  have herror : ∀ {e : UpdateError} {fs fs'},
      InPlace root (targetPath root config) sha256 held fs → Rewrites f fs fs' → I fs' ∧
        ((.error e : Except UpdateError Unit) = .ok () →
          InPlace root (targetPath root config) sha256 (some (toVec state)) fs') :=
    fun h hfs' => ⟨hold _ (hkept h hfs'), fun hok => by cases hok⟩
  unfold writeActivationState
  apply beside_done_bind ?_ fun _ _ hfs' => herror h hfs'
  intro _ _
  apply beside_require_bind ?_ fun _ hfs' => herror h hfs'
  intro _
  apply beside_expect_done_bind ?_ fun _ hfs' => herror h hfs'
  intro nonce _
  have hne : temporaryPath root now.processId nonce ≠ f := by
    rintro rfl
    exact houtside (List.prefix_append _ _)
  have hsteady := steady_recording houtside hold now.processId nonce
  have hsteady' := steady_recording houtside hnew now.processId nonce
  apply beside_call (.createNew _) id
  intro fs₁ hfs₁
  have h₁ := hkept h hfs₁
  refine ⟨hold fs₁ h₁, ?_, fun _ hfs' => herror h₁ hfs'⟩
  rw [show (FsOp.createNew _).perform fs₁ = _ from
    perform_createNew_append h₁.directory (ordinary_temporaryName ..)]
  cases hcreate : fs₁.create (root ++ [temporaryName now.processId nonce]) (.file [] newFileMode) with
  | none => exact fun _ hfs' => herror h₁ hfs'
  | some fs₂ =>
    obtain ⟨hfree, -, hcreated⟩ := create_eq_some hcreate
    have hfile : WithNode (temporaryPath root now.processId nonce) (.file [] newFileMode) fs₁ fs₂ :=
      hcreated
    have hbelow := hfile.below id
    have h₂ : Recording root config sha256 held now.processId nonce fs₂ :=
      ⟨h₁.of_below hbelow, fun q hq =>
        hbelow.linkFree (linkFree_of_none h₁.directory.real.linkFree hfree q hq)⟩
    change beside f fuel mayFail I _ (ensure UpdateError.installation (setPermissions _ _) >>= _) fs₂
    apply beside_call (.setPermissions _ _) id
    intro fs₃ hfs₃
    have h₃ := hsteady.rewrites fs₂ fs₃ h₂ hfs₃
    obtain ⟨fs₄, hperm, hmode⟩ := perform_setPermissions_of_file
      ((hfs₃.node hne).trans hfile.node) 0o600
    refine ⟨hold fs₃ h₃.1, ?_, fun _ hfs' => herror h₃.1 hfs'⟩
    have hperform : (FsOp.setPermissions (root ++ [temporaryName now.processId nonce]) 0o600).perform
        fs₃ = (true, fs₄) := hperm
    rw [hperform]
    change beside f fuel mayFail I _ (attempt _ >>= _) fs₄
    apply beside_bind
    apply beside_attempt
    apply beside_mono (beside_replaceActivationState houtside hold hnew
      (hsteady.below fs₃ fs₄ h₃ (hmode.below id)) hmode.node)
    intro r fs₅ h₅
    rcases h₅ with h₅ | ⟨⟨e, rfl⟩, h₅⟩
    · cases r with
      | ok _ =>
        intro fs₆ hfs₆
        have h₆ := (hsteady'.rewrites fs₅ fs₆ h₅ hfs₆).1
        exact ⟨hnew fs₆ h₆, fun _ => h₆⟩
      | error e =>
        apply beside_mono (beside_removeTemporary houtside hnew h₅ e)
        exact fun _ _ h => ⟨h.1, fun hok => absurd hok h.2⟩
    · apply beside_mono (beside_removeTemporary houtside hold h₅ e)
      exact fun _ _ h => ⟨h.1, fun hok => absurd hok h.2⟩

end

/-! ## The whole installation -/

omit [Crates] in
/-- No link is at or below the directory of the version. -/
def Clear (root : Path) (version : String) (held : Option Bytes) (fs : FileSystem) : Prop :=
  (∀ q, versionsPath root ++ [version] <+: q → ∀ n ∈ fs.node q, ¬ n.IsSymlink) ∧
    heldBytes fs root = held

omit [Crates] in
theorem Clear.of_rewrites (houtside : ¬ root <+: f) (h : Clear root version held fs)
    {fs' : FileSystem} (hrewrites : Rewrites f fs fs') : Clear root version held fs' :=
  ⟨fun q hq => hrewrites.not_symlink (h.1 q hq), (heldBytes_of_rewrites houtside hrewrites).trans h.2⟩

omit [Crates] in
theorem Clear.of_made (h : Clear root version held fs) {fs' : FileSystem} (hmade : OnlyMade fs fs') :
    Clear root version held fs' := by
  refine ⟨fun q hq n hn => ?_, (heldBytes_of_made hmade).trans h.2⟩
  rcases hmade q with hsame | ⟨-, hnew⟩
  · exact h.1 q hq n (hsame ▸ hn)
  · rw [hnew, Option.mem_some_iff] at hn
    rw [← hn]
    exact id

/-- The call has recorded the digest, and the file is in place. -/
structure Recorded (root : Path) (config : InstallConfig) (sha256 : String) (installed : Path)
    (fs : FileSystem) : Prop where
  place : installed = targetPath root config
  state : ∃ state slot, heldBytes fs root = some (toVec state) ∧ state.pending = some slot ∧
    slot.sha256 = sha256
  target : HasDigest fs installed sha256

variable [SerdeJson] {later : Moment}

theorem beside_installInto {digest : String} (houtside : ¬ root <+: f)
    (hversion : safeComponent config.version) (hinstalled : safeComponent config.installedName)
    (h : Settled root config.version held fs) :
    beside f fuel mayFail (PendingOnly root held (installSlot config digest).sha256)
      (fun r fs' => PendingOnly root held (installSlot config digest).sha256 fs' ∧
        ∀ path, r = .ok path → Recorded root config (installSlot config digest).sha256 path fs')
      (do
        placeTarget source (versionsPath root) config (installSlot config digest).sha256 now
        verifySlot root (installSlot config digest)
        let state ← readActivationState ⟨true, root⟩
        writeActivationState root { state with pending := some (installSlot config digest) } later
        return targetPath root config) fs := by
  have hI : ∀ fs, Settled root config.version held fs →
      PendingOnly root held (installSlot config digest).sha256 fs := fun _ h => .inl h.held
  have hold : ∀ fs, InPlace root (targetPath root config) (installSlot config digest).sha256 held fs →
      PendingOnly root held (installSlot config digest).sha256 fs := fun _ h => .inl h.held
  have herror : ∀ {e : UpdateError} {fs}, PendingOnly root held (installSlot config digest).sha256 fs →
      PendingOnly root held (installSlot config digest).sha256 fs ∧ ∀ path,
        (.error e : Except UpdateError Path) = .ok path →
          Recorded root config (installSlot config digest).sha256 path fs :=
    fun h => ⟨h, fun _ hok => by cases hok⟩
  apply beside_bind
  apply beside_mono (beside_placeTarget houtside hI (safeComponent_ordinary hversion)
    (safeComponent_ordinary hinstalled) h)
  intro r fs₁ h₁
  cases r with
  | error e => exact herror (hI fs₁ h₁)
  | ok _ =>
    apply beside_bind
    apply beside_mono (beside_verifySlot houtside hI hversion hinstalled h₁)
    rintro r fs₂ ⟨h₂, hplace⟩
    cases r with
    | error e => exact herror (hI fs₂ h₂)
    | ok _ =>
      apply beside_bind
      apply beside_mono (beside_readOnly (readOnly_readActivationState _)
        (fun _ _ h hrewrites => h.of_rewrites houtside (prefix_targetPath root config) hrewrites)
        hold (hplace rfl))
      intro r fs₃ h₃
      cases r with
      | error e => exact herror (hold fs₃ h₃)
      | ok state =>
        apply beside_bind
        apply beside_mono (beside_writeActivationState houtside hold ?_ h₃)
        · rintro r fs₄ ⟨h₄, hrecorded⟩
          cases r with
          | error e => exact herror h₄
          | ok _ =>
            intro fs₅ hfs₅
            have h₅ := (hrecorded rfl).of_rewrites houtside (prefix_targetPath root config) hfs₅
            refine ⟨.inr ⟨_, _, h₅.held, rfl, rfl⟩, fun path hok => ?_⟩
            obtain rfl := Except.ok.inj hok
            exact ⟨rfl, ⟨_, _, h₅.held, rfl, rfl⟩, h₅.target⟩
        · exact fun fs₄ h₄ => .inr ⟨_, _, h₄.held, rfl, rfl⟩

/-- Whatever the digest is, nothing else becomes pending, and at the end the file has it. -/
theorem beside_installVerifiedTarget {digest : String} {fs₀ : FileSystem}
    (hsha256 : (installSlot config digest).sha256 = sha256) (houtside : ¬ root <+: f)
    (hroot : madeRoot fs₀ config.installRoot.names = some root)
    (hclear : Clear root config.version held fs₀) (h : Rewrites f fs₀ fs) :
    beside f fuel mayFail (PendingOnly root held sha256)
      (fun r fs' => PendingOnly root held sha256 fs' ∧
        ∀ path, r = .ok path → Recorded root config sha256 path fs')
      (installVerifiedTarget source config digest now later) fs := by
  subst hsha256
  have hI : ∀ {fs}, Clear root config.version held fs →
      PendingOnly root held (installSlot config digest).sha256 fs := fun h => .inl h.2
  have herror : ∀ {e : UpdateError} {fs}, Clear root config.version held fs →
      PendingOnly root held (installSlot config digest).sha256 fs ∧ ∀ path,
        (.error e : Except UpdateError Path) = .ok path →
          Recorded root config (installSlot config digest).sha256 path fs :=
    fun h => ⟨hI h, fun _ hok => by cases hok⟩
  have hkept : ∀ {fs fs'}, Clear root config.version held fs → Rewrites f fs fs' →
      Clear root config.version held fs' := fun h hrewrites => h.of_rewrites houtside hrewrites
  have hclear' := hkept hclear h
  unfold installVerifiedTarget
  apply beside_done_bind ?_ fun _ _ hfs' => herror (hkept hclear' hfs')
  intro _ hvalid
  obtain ⟨hversion, hinstalled, _⟩ := validateInstall_eq_ok hvalid
  apply beside_symlinkMetadata_bind (fun _ hfs' => hI (hkept hclear' hfs')) ?_
    fun _ hfs' => herror (hkept hclear' hfs')
  intro fs₁ _ hfs₁ _
  have h₁ := h.trans hfs₁
  apply beside_require_bind ?_ fun _ hfs' => herror (hkept hclear (h₁.trans hfs'))
  intro _
  apply beside_ensure_bind
  apply beside_mono (beside_createDirAll (J := OnlyMade fs₀) ?_ (wp_createDirAll_makes _ _ fs₀) h₁)
  swap
  · exact fun fs₂ fs₃ hmade hfs₃ => hI (hkept (hclear.of_made hmade) hfs₃)
  rintro (e | _ | _) fs₃ ⟨fs₂, hmakes, hfs₃⟩
  · exact hmakes.elim
  · exact fun fs₄ hfs₄ => herror (hkept (hclear.of_made hmakes.1) (hfs₃.trans hfs₄))
  obtain ⟨hmade, hundisturbed⟩ := hmakes
  rw [madeRoot, hundisturbed rfl] at hroot
  have hclear₃ := hkept (hclear.of_made hmade) hfs₃
  have hroot₃ : fs₃.canonicalize config.installRoot.names = some root :=
    (hfs₃.canonicalize _).trans hroot
  apply beside_symlinkMetadata_bind (fun _ hfs' => hI (hkept hclear₃ hfs')) ?_
    fun _ hfs' => herror (hkept hclear₃ hfs')
  intro fs₄ metadata hfs₄ hlook
  have hclear₄ := hkept hclear₃ hfs₄
  apply beside_require_bind ?_ fun _ hfs' => herror (hkept hclear₄ hfs')
  intro htype
  have hdirectory₄ : fs₄.Directory root :=
    (isInstallRoot_of_metadata hlook htype ((hfs₄.canonicalize _).trans hroot₃)).directory
  apply beside_canonicalize_bind (fun _ hfs' => hI (hkept hclear₄ hfs')) ?_
    fun _ hfs' => herror (hkept hclear₄ hfs')
  intro fs₅ root' hfs₅ hroot'
  rw [hfs₅.canonicalize, hfs₄.canonicalize, hroot₃, Option.some.injEq] at hroot'
  subst hroot'
  have hclear₅ := hkept hclear₄ hfs₅
  have hdirectory₅ := hfs₅.directory_iff.mpr hdirectory₄
  apply beside_ensure_bind
  apply beside_mono (beside_createDirAll (J := OnlyMade fs₅) ?_ (wp_createDirAll_makes _ _ fs₅)
    (.refl f fs₅))
  swap
  · exact fun _ _ hmade hfs' => hI (hkept (hclear₅.of_made hmade) hfs')
  rintro (e | _ | _) fs₇ ⟨fs₆, hmakes, hfs₇⟩
  · exact hmakes.elim
  · exact fun _ hfs' => herror (hkept (hclear₅.of_made hmakes.1) (hfs₇.trans hfs'))
  have hclear₇ := hkept (hclear₅.of_made hmakes.1) hfs₇
  apply beside_symlinkMetadata_bind (fun _ hfs' => hI (hkept hclear₇ hfs')) ?_
    fun _ hfs' => herror (hkept hclear₇ hfs')
  intro fs₈ metadata hfs₈ hlook
  have hclear₈ := hkept hclear₇ hfs₈
  apply beside_require_bind ?_ fun _ hfs' => herror (hkept hclear₈ hfs')
  intro htype
  have hdirectory₈ : fs₈.Directory root :=
    hfs₈.directory_iff.mpr (hfs₇.directory_iff.mpr (hmakes.1.directory hdirectory₅))
  have hversions : fs₈.Directory (versionsPath root) := by
    apply directory_of_metadata (e := .installation) hdirectory₈ (by decide) ?_ htype
    rw [eval_symlinkMetadata, Except.ofOption_eq_ok_iff]
    exact hlook
  exact beside_installInto houtside hversion hinstalled
    ⟨hdirectory₈, hversions, hclear₈.1, hclear₈.2⟩

end

end CertaelAgent.Updater
