import CertaelAgent.Updater.Reachability

/-!
# Somewhere to roll back to

Registration compares a slot with the active one, staging does not. A run in which only versions
are activated that are not active keeps the active and the previous slot apart; one that stages
the active version and activates it again loses the version before it.
-/

namespace CertaelAgent.Updater

open ProtoWire Protocol Files Files.FileSystem Program SlotMachine

section

variable [Crates] [SerdeJson] {fs fs' fs₀ : FileSystem} {root : Path} {path : PathBuf}
  {state new : ActivationState} {now : Moment} {mayFail : FsOp → Bool} {schedule : List Verdict}

/-- An activation only starts where the pending slot is not the active one. -/
def ActivatesFresh (root : Path) : Option Call → FileSystem → Prop
  | some (.activatePending _ _), fs => ∀ state,
    eval device (readActivationState ⟨true, root⟩) fs = .ok state → state.places.Fresh
  | _, _ => True

omit [Crates] [SerdeJson] in
theorem not_moves_default {action : Action ActivationSlot} (h : action = .promote ∨ action = .rollBack) :
    ¬ Moves (· = action) ActivationState.default new := by
  rintro ⟨_, rfl, hmove⟩
  rcases h with rfl | rfl
  · exact hmove.pending_of_promote rfl
  · obtain ⟨hprevious, hsome⟩ := hmove.active_of_rollBack
    exact hsome hprevious

omit [Crates] [SerdeJson] in
theorem apart_default : ActivationState.default.places.Apart := fun h => absurd rfl h

theorem Step.apart {call : Option Call} (h : Step root call fs fs') (hsound : Sound root fs)
    (hstate : Records fs root state) (hallowed : ActivatesFresh root call fs)
    (hapart : state.places.Apart) : ∃ new, Records fs' root new ∧ new.places.Apart := by
  obtain ⟨_, _, new, hnew, hdecided⟩ := h.evolved hsound hstate
  refine ⟨new, hnew, ?_⟩
  rcases hdecided with rfl | ⟨c, rfl, ⟨action, haction, hmove⟩ | ⟨action, haction, hmove⟩⟩
  · exact hapart
  · refine hmove.apart hapart fun hpromote => ?_
    subst hpromote
    cases c with
    | activatePending => exact hallowed state (hstate.eval_read hsound.directory)
    | installVerifiedTarget => obtain ⟨_, h⟩ := haction; simp at h
    | verifyStageAndInstallAutomatic => obtain ⟨_, h⟩ := haction; simp at h
    | rollback => simp [Call.actions] at haction
    | recover => simp [Call.actions] at haction
    | registerExistingVersion => obtain ⟨_, h⟩ := haction; simp at h
    | activeTarget => simp [Call.actions] at haction
  · exact hmove.apart apart_default fun _ h => absurd rfl h

theorem ReachesBy.apart (hreach : ReachesBy root (ActivatesFresh root) fs₀ fs)
    (hsound : Sound root fs₀) (hstate : Records fs₀ root state) (hapart : state.places.Apart) :
    ∃ new, Records fs root new ∧ new.places.Apart := by
  induction hreach with
  | refl => exact ⟨state, hstate, hapart⟩
  | tail hbefore hstep ih =>
    obtain ⟨call, hallowed, hstep⟩ := hstep
    obtain ⟨before, hrecords, hbeforeApart⟩ := ih
    exact hstep.apart (ReachesBy.sound hbefore hsound).1 hrecords hallowed hbeforeApart

theorem previous_of_activatePending (hsound : Sound root fs) (hstate : Records fs root state)
    (hpath : fs.canonicalize path.names = some root)
    (hrun : run device mayFail (activatePending path now) schedule fs = .finished (.ok new) fs') :
    new.previous = state.active ∧ (state.places.Fresh → new.active ≠ new.previous) := by
  have hwp : (run device mayFail (activatePending path now) schedule fs).Satisfies _ _ :=
    wp_sound (wp_activatePending hsound hstate hpath) schedule
  rw [hrun] at hwp
  rcases (hwp.2 new rfl).2 with ⟨_, rfl, hmove⟩ | hdefault
  · exact Move.previous_of_promote hmove
  · exact absurd hdefault (not_moves_default (.inl rfl))

theorem active_of_rollback (hsound : Sound root fs) (hstate : Records fs root state)
    (hpath : fs.canonicalize path.names = some root)
    (hrun : run device mayFail (rollback path now) schedule fs = .finished (.ok new) fs') :
    new.active = state.previous ∧ new.active ≠ none := by
  have hwp : (run device mayFail (rollback path now) schedule fs).Satisfies _ _ :=
    wp_sound (wp_rollback hsound hstate hpath) schedule
  rw [hrun] at hwp
  rcases (hwp.2 new rfl).2 with ⟨_, rfl, hmove⟩ | hdefault
  · exact Move.active_of_rollBack hmove
  · exact absurd hdefault (not_moves_default (.inr rfl))

/-- In a run that activates only versions that are not active, active and previous differ, a
rollback that succeeds changes the active slot, and an activation keeps the version that was
active beside another one. -/
theorem rollback_leads_elsewhere (hempty : EmptyRoot root fs₀)
    (hreach : ReachesBy root (ActivatesFresh root) fs₀ fs)
    (hread : eval device (readActivationState ⟨true, root⟩) fs = .ok state) :
    (∀ a b, state.active = some a → state.previous = some b → a ≠ b) ∧
      ∀ path now mayFail schedule new fs', fs.canonicalize path.names = some root →
        (run device mayFail (rollback path now) schedule fs = .finished (.ok new) fs' →
          new.active ≠ state.active) ∧
        (run device mayFail (activatePending path now) schedule fs = .finished (.ok new) fs' →
          state.places.Fresh → new.previous = state.active ∧ new.active ≠ new.previous) := by
  have hsound := (hreach.sound hempty.sound).1
  have hdefault : Records fs₀ root ActivationState.default := .inl ⟨hempty.empty _, rfl⟩
  obtain ⟨state', hrecords, hapart⟩ := hreach.apart hempty.sound hdefault apart_default
  rw [hrecords.eval_read hsound.directory, Except.ok.injEq] at hread
  subst hread
  refine ⟨fun a b => Places.Apart.ne hapart, fun path now mayFail schedule new fs' hpath => ⟨?_, ?_⟩⟩
  · intro hrun heq
    obtain ⟨hprevious, hsome⟩ := active_of_rollback hsound hrecords hpath hrun
    have hthere : state'.previous ≠ none := fun hnone => hsome (hprevious.trans hnone)
    exact (hapart hthere).2 (heq.symm.trans hprevious)
  · intro hrun hfresh
    obtain ⟨hprevious, hne⟩ := previous_of_activatePending hsound hrecords hpath hrun
    exact ⟨hprevious, hne hfresh⟩

end

namespace Sample

theorem activatesFresh {state : ActivationState} {fs : FileSystem} (h : At state fs)
    (hfresh : state.places.Fresh) :
    ActivatesFresh root (some (.activatePending path (moment 0))) fs := by
  intro state' hread
  rw [h.records.eval_read h.directory, Except.ok.injEq] at hread
  rwa [← hread]

end Sample

open Updater.Sample in
theorem rollback_leads_elsewhere_sample : ∃ fs, ReachesBy root (ActivatesFresh root) empty fs ∧
    At ⟨1, some second, some first, none⟩ fs ∧ second ≠ first := by
  have hreach₀ : ReachesBy root (ActivatesFresh root) empty populated :=
    .single ⟨none, trivial, .outside preserves_populated⟩
  obtain ⟨fs₁, hreach₁, hat₁⟩ := reaches_first trivial hreach₀ at_populated
    (fits_of_length (by decide +kernel) rfl (by decide +kernel))
  obtain ⟨fs₂, hreach₂, hat₂⟩ := reaches_activate (activatesFresh hat₁ (by decide +kernel)) hreach₁
    hat₁ rfl installed_first fits_activeFirst
  obtain ⟨fs₃, hreach₃, hat₃⟩ := reaches_second trivial hreach₂ hat₂
    (fits_of_length (by decide +kernel) rfl (by decide +kernel))
  obtain ⟨fs₄, hreach₄, hat₄⟩ := reaches_activate (activatesFresh hat₃ (by decide +kernel)) hreach₃
    hat₃ rfl installed_second (fits_of_length (by decide +kernel) rfl (by decide +kernel))
  exact ⟨fs₄, hreach₄, hat₄, (rollback_leads_elsewhere emptyRoot_empty hreach₄
    (hat₄.records.eval_read hat₄.directory)).1 second first rfl rfl⟩

open Updater.Sample in
/-- The active version is installed and activated once more. -/
theorem not_rollback_leads_elsewhere : ¬ ∀ (root : Path) (fs₀ fs : FileSystem)
    (state : ActivationState) (a b : ActivationSlot), EmptyRoot root fs₀ → Reaches root fs₀ fs →
    eval device (readActivationState ⟨true, root⟩) fs = .ok state → state.active = some a →
    state.previous = some b → a ≠ b := by
  intro h
  obtain ⟨fs₁, hreach₁, hat₁⟩ := reaches_activeFirst
  obtain ⟨fs₂, hreach₂, hat₂⟩ := reaches_first trivial hreach₁ hat₁
    (fits_of_length (by decide +kernel) rfl (by decide +kernel))
  obtain ⟨fs₃, hreach₃, hat₃⟩ := reaches_activate trivial hreach₂ hat₂ rfl installed_first
    (fits_of_length (by decide +kernel) rfl (by decide +kernel))
  exact h root empty fs₃ _ first first emptyRoot_empty hreach₃
    (hat₃.records.eval_read hat₃.directory) rfl rfl rfl

end CertaelAgent.Updater
