import CertaelAgent.Updater.Reading

/-!
# Writing the activation state

Until the temporary file is renamed, nothing but the temporary file differs; with the rename the
whole new state is there. What can go wrong behind the rename leaves the new state in place.
-/

namespace CertaelAgent.Updater

open ProtoWire Protocol Files Files.FileSystem Program

theorem take_temporaryName (processId nonce : ℕ) :
    (temporaryName processId nonce).toList.take 2 = ['.', 'a'] := by
  simp [temporaryName]

theorem temporaryName_ne {processId nonce : ℕ} {name : String} (h : name.toList.take 2 ≠ ['.', 'a']) :
    temporaryName processId nonce ≠ name := by
  rintro rfl
  exact h (take_temporaryName processId nonce)

theorem ordinary_temporaryName (processId nonce : ℕ) : Ordinary (temporaryName processId nonce) :=
  ⟨temporaryName_ne (by decide), temporaryName_ne (by decide), temporaryName_ne (by decide)⟩

def temporaryPath (root : Path) (processId nonce : ℕ) : Path :=
  root ++ [temporaryName processId nonce]

theorem temporaryPath_ne (root : Path) (processId nonce : ℕ) :
    temporaryPath root processId nonce ≠ activationPath root := by
  intro h
  have hname : temporaryName processId nonce = "activation.json" := by
    simpa [temporaryPath, activationPath] using h
  exact temporaryName_ne (by decide) hname

/-- Nothing but temporary files of this process in the root differs. -/
def Staged (root : Path) (processId : ℕ) (fs fs' : FileSystem) : Prop :=
  ∃ nonce, Below (temporaryPath root processId nonce) fs fs'

/-- The system has the state in place of the one before. -/
def Published (root : Path) (state : ActivationState) (fs fs' : FileSystem) : Prop :=
  WithNode (activationPath root) (.file (toVec state) 0o600) fs fs'

/-- The process has a name for its next temporary file. -/
def TemporaryFree (fs : FileSystem) (root : Path) (now : Moment) : Prop :=
  ∃ nonce, now.sinceEpoch = some nonce ∧
    fs.node (temporaryPath root now.processId nonce) = none

/-- The state can be written: it is valid and not too large, the root takes new entries, and
neither the temporary name nor `activation.json` is in the way. -/
structure Publishable (fs : FileSystem) (root : Path) (state : ActivationState) (now : Moment) :
    Prop where
  valid : validateState state = .ok ()
  fits : toVec state ≠ [] ∧ (toVec state).length ≤ MAX_ACTIVATION_STATE_BYTES
  writable : fs.Writable root
  free : TemporaryFree fs root now
  target : ¬ fs.Directory (activationPath root)

variable {fs : FileSystem} {root : Path} {state : ActivationState} {now : Moment}
  {mayFail : FsOp → Bool} {I : FileSystem → Prop}

theorem Staged.refl (root : Path) (processId : ℕ) (fs : FileSystem) : Staged root processId fs fs :=
  ⟨0, .refl _ fs⟩

theorem linkFree_temporaryPath (hroot : fs.Directory root) {processId nonce : ℕ}
    (hfree : fs.node (temporaryPath root processId nonce) = none) :
    ∀ q, temporaryPath root processId nonce <+: q → fs.LinkFree q :=
  linkFree_of_none hroot.real.linkFree hfree

theorem ordinary_temporaryPath (hroot : ∀ name ∈ root, Ordinary name) (processId nonce : ℕ) :
    ∀ name ∈ temporaryPath root processId nonce, Ordinary name := by
  intro name hname
  rcases List.mem_append.mp hname with hname | hname
  · exact hroot name hname
  · rw [List.mem_singleton.mp hname]
    exact ordinary_temporaryName processId nonce

theorem temporaryPath_apart (root : Path) (processId nonce : ℕ) :
    ¬ temporaryPath root processId nonce <+: activationPath root := by
  intro h
  exact temporaryPath_ne root processId nonce (by simpa [temporaryPath, activationPath] using h)

theorem temporaryPath_apart_root (root : Path) (processId nonce : ℕ) :
    ¬ temporaryPath root processId nonce <+: root := by
  intro h
  have hlen := h.length_le
  simp [temporaryPath] at hlen

theorem directory_of_below_temporary (hroot : fs.Directory root) {processId nonce : ℕ}
    {fs' : FileSystem} (h : Below (temporaryPath root processId nonce) fs fs') :
    fs'.Directory root := by
  rwa [directory_iff, h.1 root (temporaryPath_apart_root root processId nonce), ← directory_iff]

theorem directory_of_published (hroot : fs.Directory root) {fs' : FileSystem}
    (h : Published root state fs fs') : fs'.Directory root := by
  have hne : root ≠ activationPath root := by simp [activationPath]
  rwa [directory_iff, h root, if_neg hne, ← directory_iff]

theorem published_of_rename {nonce : ℕ} {fs₂ fs₃ : FileSystem}
    (hfree : fs.node (temporaryPath root now.processId nonce) = none)
    (h : WithNode (temporaryPath root now.processId nonce) (.file (toVec state) 0o600) fs fs₂)
    (hmoved : ∀ p, fs₃.node p = if p = activationPath root then some (.file (toVec state) 0o600)
      else if p = temporaryPath root now.processId nonce then none else fs₂.node p) :
    Published root state fs fs₃ := by
  intro p
  rw [hmoved p]
  split_ifs with hp ht
  · rfl
  · rw [ht, hfree]
  · rw [h p, if_neg ht]

/-- Some operation may fail. -/
def Disturbed (mayFail : FsOp → Bool) : Prop := ∃ op, mayFail op = true

section

variable {nonce : ℕ} {R : Except UpdateError Unit → FileSystem → Prop}

/-- The four steps behind which the temporary file is removed if one of them fails. -/
theorem wp_replaceActivationState (hroot : fs.Directory root)
    (hfree : fs.node (temporaryPath root now.processId nonce) = none) {fs₁ : FileSystem}
    (h : WithNode (temporaryPath root now.processId nonce) (.file [] 0o600) fs fs₁)
    (hbefore : ∀ fs', Below (temporaryPath root now.processId nonce) fs fs' → I fs' ∧
      (Disturbed mayFail ∨ ¬ fs.Writable root ∨ fs.Directory (activationPath root) →
        ∀ e, R (.error e) fs'))
    (hafter : ¬ fs.Directory (activationPath root) → ∀ fs', Published root state fs fs' →
      I fs' ∧ R (.ok ()) fs' ∧ (mayFail (.syncAll root) → ∀ e, R (.error e) fs')) :
    wp device mayFail I R (replaceActivationState root (toVec state)
      (temporaryPath root now.processId nonce)) fs₁ := by
  have hstart := hbefore fs₁ (h.below (n := .file [] 0o600) id)
  obtain ⟨fs₂, happend, hcontent⟩ := perform_append_of_file h.node (toVec state)
  have hfile : WithNode (temporaryPath root now.processId nonce) (.file (toVec state) 0o600)
      fs fs₂ := h.again hcontent
  have hbelow := hfile.below (n := .file (toVec state) 0o600) id
  have hwritten := hbefore fs₂ hbelow
  have hsync : device.perform (.syncAll (temporaryPath root now.processId nonce)) fs₂ =
      (true, fs₂) := by
    rw [perform_syncAll, canonicalize_of_real (real_of_file hfile.node)]
    rfl
  unfold replaceActivationState
  refine wp_ensure_bind ⟨hstart.1, ?_, fun hf => hstart.2 (.inl ⟨_, hf⟩) _⟩
  rw [happend]
  refine wp_ensure_bind ⟨hwritten.1, ?_, fun hf => hwritten.2 (.inl ⟨_, hf⟩) _⟩
  rw [hsync]
  refine wp_ensure_bind ⟨hwritten.1, ?_, fun hf => hwritten.2 (.inl ⟨_, hf⟩) _⟩
  have hapart : ∀ p, ¬ temporaryPath root now.processId nonce <+: p →
      (fs₂.Directory p ↔ fs.Directory p) := by
    intro p hp
    rw [directory_iff, directory_iff, hbelow.1 p hp]
  have htemp := temporaryPath_apart root now.processId nonce
  have hroot₂ : fs₂.Directory root := directory_of_below_temporary hroot hbelow
  rw [temporaryPath, activationPath,
    perform_rename_append hroot₂ (ordinary_temporaryName ..) ordinary_activation]
  cases hrename : fs₂.renameEntry (root ++ [temporaryName now.processId nonce])
      (root ++ ["activation.json"]) with
  | none =>
    refine hwritten.2 (.inr ?_) _
    by_contra hcan
    rw [not_or, not_not] at hcan
    obtain ⟨hwritable, htarget⟩ := hcan
    have hwritable₂ : fs₂.Writable root := by
      unfold FileSystem.Writable
      rwa [hbelow.1 root (temporaryPath_apart_root root now.processId nonce)]
    obtain ⟨fs₃, hsome⟩ := renameEntry_file hfile.node hwritable₂ ordinary_activation
      (temporaryName_ne (by decide)) (mt (hapart _ htemp).mp htarget)
    rw [hsome] at hrename
    exact absurd hrename (by simp)
  | some fs₃ =>
    obtain ⟨htarget, hmoved⟩ :=
      renameEntry_file_eq_some hfile.node (temporaryPath_ne root now.processId nonce) hrename
    have hpublished : Published root state fs fs₃ := published_of_rename hfree hfile hmoved
    have hdone := hafter (mt (hapart _ htemp).mpr htarget) fs₃ hpublished
    rw [committed_some]
    refine wp_ensure ⟨hdone.1, ?_, fun hf => hdone.2.2 hf _⟩
    rw [perform_syncAll, canonicalize_of_real (directory_of_published hroot hpublished).real]
    exact hdone.2.1

end

theorem wp_removeTemporary {Q : Except UpdateError Unit → FileSystem → Prop} {nonce : ℕ}
    (hroot : ∀ name ∈ root, Ordinary name)
    (hlinks : ∀ q, temporaryPath root now.processId nonce <+: q → fs.LinkFree q) (e : UpdateError)
    (h : ∀ fs', Below (temporaryPath root now.processId nonce) fs fs' →
      I fs' ∧ ∀ e, Q (.error e) fs') :
    wp device mayFail I Q
      (removeFile (temporaryPath root now.processId nonce) >>= fun _ => fail e) fs := by
  have hconfined : Confined (temporaryPath root now.processId nonce)
      (removeFile (temporaryPath root now.processId nonce) : FileProgram UpdateError Bool) := by
    refine .entry (show (FsOp.removeFile (temporaryPath root now.processId nonce)).entry = some _
      from rfl) (List.prefix_refl _) (ordinary_temporaryPath hroot _ _) fun _ => ?_
    trivial
  refine wp_bind (hconfined.wp hlinks (fun fs' hb => (h fs' hb).1) fun r fs' hb => ?_)
  cases r with
  | ok _ => exact (h fs' hb).2 e
  | error e' => exact (h fs' hb).2 e'

/-- The specification of `write_activation_state`: without faults it succeeds exactly where the
state is publishable, and behind the rename only the sync of the root can still fail. -/
theorem wp_writeActivationState {Q : Except UpdateError Unit → FileSystem → Prop}
    (hroot : fs.Directory root)
    (hstaged : ∀ fs', Staged root now.processId fs fs' → I fs' ∧
      (Disturbed mayFail ∨ ¬ Publishable fs root state now → ∀ e, Q (.error e) fs'))
    (hpublished : Publishable fs root state now → ∀ fs₁, Published root state fs fs₁ →
      Q (.ok ()) fs₁ ∧ ∀ fs', Staged root now.processId fs₁ fs' → I fs' ∧
        (mayFail (.syncAll root) → ∀ e, Q (.error e) fs')) :
    wp device mayFail I Q (writeActivationState root state now) fs := by
  have hstart := hstaged fs (.refl root now.processId fs)
  have hunable : ¬ Publishable fs root state now → ∀ e, Q (.error e) fs :=
    fun h => hstart.2 (.inr h)
  unfold writeActivationState
  refine wp_done_bind (fun _ hvalid => ?_) fun e herror => hunable (fun h => ?_) e
  swap
  · rw [h.valid] at herror
    simp at herror
  refine wp_require_bind (fun hfits => ?_) fun hfits => hunable (fun h => hfits h.fits) _
  refine wp_expect_done_bind (fun nonce hclock => ?_) fun hclock => hunable (fun h => ?_) _
  swap
  · obtain ⟨nonce, hnonce, _⟩ := h.free
    simp [hclock] at hnonce
  refine wp_ensure_bind ⟨hstart.1, ?_, fun hf => hstart.2 (.inl ⟨_, hf⟩) _⟩
  rw [perform_createNew_append hroot (ordinary_temporaryName ..)]
  cases hcreate : fs.create (root ++ [temporaryName now.processId nonce])
      (.file [] newFileMode) with
  | none =>
    refine hunable (fun h => ?_) _
    obtain ⟨nonce', hnonce, hfree⟩ := h.free
    have heq : nonce' = nonce := by rw [hclock] at hnonce; exact (Option.some.inj hnonce).symm
    obtain ⟨fs', hsome⟩ := create_append (n := .file [] newFileMode) h.writable
      (ordinary_temporaryName now.processId nonce) (heq ▸ hfree)
    rw [hsome] at hcreate
    simp at hcreate
  | some fs₁ =>
    obtain ⟨hfree, hwritable, hnew⟩ := create_eq_some hcreate
    have hnew : WithNode (temporaryPath root now.processId nonce) (.file [] newFileMode) fs fs₁ :=
      hnew
    have hstaged' := fun fs' hb => hstaged fs' ⟨nonce, hb⟩
    have hpublishable : fs.Writable root → ¬ fs.Directory (activationPath root) →
        Publishable fs root state now :=
      fun hw htarget => ⟨hvalid, hfits, hw, ⟨nonce, hclock, hfree⟩, htarget⟩
    have hstart₁ := hstaged' fs₁ (hnew.below id)
    obtain ⟨fs₂, hperm, hmode⟩ := perform_setPermissions_of_file hnew.node 0o600
    have hlinks := linkFree_temporaryPath hroot hfree
    have hordinary := ordinary_of_directory hroot
    rw [committed_some]
    refine wp_ensure_bind ⟨hstart₁.1, ?_, fun hf => hstart₁.2 (.inl ⟨_, hf⟩) _⟩
    rw [show root ++ [temporaryName now.processId nonce] =
      temporaryPath root now.processId nonce from rfl, hperm]
    refine wp_bind (wp_attempt (wp_mono (Q := outcome (fun _ fs' => Q (.ok ()) fs')
      fun e fs' => wp device mayFail I Q
        (removeFile (temporaryPath root now.processId nonce) >>= fun _ => fail e) fs') ?_ ?_))
    · refine wp_replaceActivationState hroot hfree (hnew.again hmode) (fun fs' hb => ?_)
        fun htarget fs' hpub => ?_
      · refine ⟨(hstaged' fs' hb).1, fun hcause e => ?_⟩
        refine wp_removeTemporary hordinary (fun q hq => hb.linkFree (hlinks q hq)) e
          fun fs'' hb' => ?_
        have hrest := hstaged' fs'' (hb.trans hb')
        refine ⟨hrest.1, hrest.2 (hcause.imp_right ?_)⟩
        rintro (hw | htarget) hp
        · exact hw hp.writable
        · exact hp.target htarget
      · have hp := hpublished (hpublishable (by simpa using hwritable) htarget) fs' hpub
        have hrest := fun fs'' hb' => hp.2 fs'' ⟨nonce, hb'⟩
        refine ⟨(hrest fs' (.refl _ fs')).1, hp.1, fun hcause e => ?_⟩
        refine wp_removeTemporary hordinary (fun q hq => (hpub.below id).linkFree (hlinks q hq)) e
          fun fs'' hb' => ?_
        exact ⟨(hrest fs'' hb').1, (hrest fs'' hb').2 hcause⟩
    · intro r fs' h
      cases r with
      | ok _ => exact h
      | error e => exact h

theorem exec_writeActivationState (hroot : fs.Directory root)
    (h : Publishable fs root state now) :
    (exec device (writeActivationState root state now) fs).1 = .ok () ∧
      Published root state fs (exec device (writeActivationState root state now) fs).2 := by
  have hquiet : ¬ Disturbed fun _ => false := by
    rintro ⟨op, hop⟩
    simp at hop
  have hwp : wp device (fun _ => false) (fun _ => True)
      (fun r fs' => r = .ok () ∧ Published root state fs fs')
      (writeActivationState root state now) fs := by
    refine wp_writeActivationState hroot (fun fs' _ => ⟨trivial, fun hcause => ?_⟩)
      fun _ fs₁ hpub => ⟨⟨rfl, hpub⟩, fun fs' _ => ⟨trivial, by simp⟩⟩
    rcases hcause with hcause | hcause
    · exact absurd hcause hquiet
    · exact absurd h hcause
  exact wp_exec hwp

theorem exec_writeActivationState_ok (hroot : fs.Directory root)
    (h : (exec device (writeActivationState root state now) fs).1 = .ok ()) :
    Publishable fs root state now ∧
      Published root state fs (exec device (writeActivationState root state now) fs).2 := by
  have hwp : wp device (fun _ => false) (fun _ => True)
      (fun r fs' => r = .ok () → Publishable fs root state now ∧ Published root state fs fs')
      (writeActivationState root state now) fs := by
    refine wp_writeActivationState hroot (fun fs' _ => ⟨trivial, fun _ e => by simp⟩)
      fun hp fs₁ hpub => ⟨fun _ => ⟨hp, hpub⟩, fun fs' _ => ⟨trivial, fun _ e => by simp⟩⟩
  exact wp_exec hwp h

theorem eval_read_of_published [SerdeJson] {fs' : FileSystem} (hroot : fs.Directory root)
    (hpub : Publishable fs root state now) (h : Published root state fs fs') :
    eval device (readActivationState ⟨true, root⟩) fs' = .ok state := by
  refine (eval_readActivationState_iff (directory_of_published hroot h)).mpr (.inl ?_)
  exact ⟨toVec state, 0o600, h.node, hpub.fits.1, hpub.fits.2,
    SerdeJson.fromSlice_toVec state hpub.valid, hpub.valid⟩

end CertaelAgent.Updater
