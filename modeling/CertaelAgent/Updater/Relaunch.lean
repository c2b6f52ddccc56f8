import CertaelAgent.Updater.Reachability

/-!
# Relaunching with a staged version

The launcher recovers the installation and starts its active slot. No part of a start looks at
the pending slot, so a staged version only runs where it is the active one already.
-/

namespace CertaelAgent.Updater

open ProtoWire Protocol Files Files.FileSystem Program

section

variable [Crates] [SerdeJson] {fs fs₀ : FileSystem} {root target : Path} {path : PathBuf}
  {state : ActivationState} {pending : ActivationSlot} {now : Moment}

/-- A start that succeeds returns the file of the active slot, and has written the state. -/
theorem active_of_exec_activeTarget (hsound : Sound root fs) (hstate : Records fs root state)
    (hroot : IsInstallRoot fs path root)
    (hok : (exec device (activeTarget path now) fs).1 = .ok target) :
    fs.Writable root ∧ TemporaryFree fs root now ∧
      ∃ active, state.active = some active ∧ target = root ++ pathNames active.relativePath := by
  rcases hexec : exec device (activeTarget path now) fs with ⟨r, fs'⟩
  rw [hexec] at hok
  subst hok
  obtain ⟨new, hrecover, hresolve⟩ := exec_activeTarget_ok hroot hexec
  obtain ⟨state', hread, hrepair, hpub, hpublished⟩ :=
    exec_recover_ok (isInstallRoot_self hsound.directory) hrecover
  rw [hstate.eval_read hsound.directory, Except.ok.injEq] at hread
  subst hread
  rw [repaired_of_sound fun slot hslot => (hsound.installed hstate slot hslot).verifies,
    Except.ok.injEq] at hrepair
  subst hrepair
  obtain ⟨active, hactive, _, hcanonical⟩ := eval_resolveActive_iff.mp hresolve
  have hslot : active ∈ state.slots := ActivationState.mem_slots.mpr (.inl hactive)
  have hinstalled := (hsound.installed hstate active hslot).of_keeps (keeps_of_published hpublished)
  rw [hinstalled.canonicalize, Option.some.injEq] at hcanonical
  exact ⟨hpub.writable, hpub.free, active, hactive, hcanonical.symm⟩

/-- The next start of an installation with a pending slot returns its file exactly if the start can
write and the active slot names the same file. -/
theorem activeTarget_takes_pending_iff (hempty : EmptyRoot root fs₀) (hreach : Reaches root fs₀ fs)
    (hroot : IsInstallRoot fs path root)
    (hread : eval device (readActivationState ⟨true, root⟩) fs = .ok state)
    (_hpending : state.pending = some pending) :
    (exec device (activeTarget path now) fs).1 = .ok (root ++ pathNames pending.relativePath) ↔
      fs.Writable root ∧ TemporaryFree fs root now ∧
        ∃ active, state.active = some active ∧ active.relativePath = pending.relativePath := by
  have hsound := (ReachesBy.sound hreach hempty.sound).1
  have hstate := records_of_read hsound hread
  constructor
  · intro hok
    obtain ⟨hwritable, hfree, active, hactive, hsame⟩ :=
      active_of_exec_activeTarget hsound hstate hroot hok
    exact ⟨hwritable, hfree, active, hactive,
      pathNames_injective (List.append_cancel_left hsame).symm⟩
  · rintro ⟨hwritable, hfree, active, hactive, hsame⟩
    rw [← hsame]
    exact exec_activeTarget_of_sound hsound hstate hroot hactive hwritable hfree

end

namespace Sample

theorem reaches_staged : ∃ fs, Reaches root empty fs ∧
    At { activeFirst with pending := some second } fs := by
  obtain ⟨fs, hreach, hat⟩ := reaches_activeFirst
  exact reaches_second trivial hreach hat (fits_of_length (by decide +kernel) rfl (by decide +kernel))

theorem reaches_restaged : ∃ fs, Reaches root empty fs ∧
    At { activeFirst with pending := some first } fs := by
  obtain ⟨fs, hreach, hat⟩ := reaches_activeFirst
  exact reaches_first trivial hreach hat (fits_of_length (by decide +kernel) rfl (by decide +kernel))

end Sample

open Updater.Sample in
/-- With the active version staged the start takes it; with another one staged it does not. -/
theorem activeTarget_takes_pending_iff_sample :
    (∃ fs, Reaches root empty fs ∧ At { activeFirst with pending := some first } fs ∧
      (exec device (activeTarget path (moment 0)) fs).1 =
        .ok (Sample.root ++ pathNames first.relativePath)) ∧
    ∃ fs, Reaches root empty fs ∧ At { activeFirst with pending := some second } fs ∧
      (exec device (activeTarget path (moment 0)) fs).1 ≠
        .ok (Sample.root ++ pathNames second.relativePath) := by
  constructor
  · obtain ⟨fs, hreach, hat⟩ := reaches_restaged
    have hpub := hat.publishable fits_activeFirst 0
    refine ⟨fs, hreach, hat, ?_⟩
    apply (activeTarget_takes_pending_iff emptyRoot_empty hreach hat.isInstallRoot
      (hat.records.eval_read hat.directory) rfl).mpr
    exact ⟨hpub.writable, hpub.free, first, rfl, rfl⟩
  · obtain ⟨fs, hreach, hat⟩ := reaches_staged
    refine ⟨fs, hreach, hat, ?_⟩
    intro hok
    obtain ⟨-, -, active, hactive, hsame⟩ :=
      (activeTarget_takes_pending_iff emptyRoot_empty hreach hat.isInstallRoot
        (hat.records.eval_read hat.directory) rfl).mp hok
    obtain rfl := Option.some.inj hactive
    exact absurd hsame (by decide)

open Updater.Sample in
/-- The first version is started again though the second one waits and verifies. -/
theorem not_activeTarget_takes_pending : ¬ ∀ (root : Path) (fs₀ fs : FileSystem) (path : PathBuf)
    (now : Moment) (state : ActivationState) (pending : ActivationSlot), EmptyRoot root fs₀ →
    Reaches root fs₀ fs → IsInstallRoot fs path root →
    eval device (readActivationState ⟨true, root⟩) fs = .ok state → state.pending = some pending →
    Verifies fs root pending → fs.Writable root → TemporaryFree fs root now →
    (exec device (activeTarget path now) fs).1 = .ok (root ++ pathNames pending.relativePath) := by
  intro h
  obtain ⟨fs, hreach, hat⟩ := reaches_staged
  have hsound := (ReachesBy.sound hreach emptyRoot_empty.sound).1
  have hpub := hat.publishable fits_activeFirst 0
  have hok := h root empty fs path (moment 0) _ second emptyRoot_empty hreach hat.isInstallRoot
    (hat.records.eval_read hat.directory) rfl (hat.installed installed_second).verifies
    hpub.writable hpub.free
  obtain ⟨_, _, active, hactive, hsame⟩ :=
    active_of_exec_activeTarget hsound hat.records hat.isInstallRoot hok
  have hfirst : active = first := (Option.some.inj hactive).symm
  rw [hfirst] at hsame
  have hpath := pathNames_injective (List.append_cancel_left hsame)
  exact absurd hpath (by decide)

end CertaelAgent.Updater
