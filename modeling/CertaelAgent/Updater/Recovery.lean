import CertaelAgent.Updater.Writing

/-!
# Recovery

What recovery makes of a state is a function of which slots verify. A damaged active slot is
replaced by the previous one and by nothing else, and a state without damage stays as it is. The
launcher resolves the active slot of the state that recovery has written.
-/

namespace CertaelAgent.Updater

open ProtoWire Protocol Files Files.FileSystem Program

/-- There is a slot and the check fails on it. -/
def damaged (check : ActivationSlot → Except UpdateError Unit) (slot : Option ActivationSlot) :
    Bool :=
  match slot with
  | none => false
  | some slot =>
    match check slot with
    | .ok _ => false
    | .error _ => true

def repaired (check : ActivationSlot → Except UpdateError Unit) (state : ActivationState) :
    Except UpdateError ActivationState :=
  let pending := if damaged check state.pending then none else state.pending
  if damaged check state.active then
    match state.previous with
    | none => .error .invalidActivationState
    | some previous => do
      check previous
      return { state with active := some previous, previous := none, pending := pending }
  else if damaged check state.previous then
    .ok { state with previous := none, pending := pending }
  else .ok { state with pending := pending }

section

variable {check : ActivationSlot → Except UpdateError Unit} {state repairedState : ActivationState}

theorem damaged_eq_false_iff {slot : Option ActivationSlot} :
    damaged check slot = false ↔ ∀ s, slot = some s → check s = .ok () := by
  cases slot with
  | none => simp [damaged]
  | some slot =>
    unfold damaged
    cases hcheck : check slot <;> simp [hcheck]

theorem damaged_eq_true_iff {slot : Option ActivationSlot} :
    damaged check slot = true ↔ ∃ s, slot = some s ∧ check s ≠ .ok () := by
  rw [← Bool.not_eq_false, damaged_eq_false_iff]
  push Not
  rfl

theorem repaired_of_sound (h : ∀ slot ∈ state.slots, check slot = .ok ()) :
    repaired check state = .ok state := by
  have hactive : damaged check state.active = false :=
    damaged_eq_false_iff.mpr fun s hs => h s (ActivationState.mem_slots.mpr (.inl hs))
  have hprevious : damaged check state.previous = false :=
    damaged_eq_false_iff.mpr fun s hs => h s (ActivationState.mem_slots.mpr (.inr (.inl hs)))
  have hpending : damaged check state.pending = false :=
    damaged_eq_false_iff.mpr fun s hs => h s (ActivationState.mem_slots.mpr (.inr (.inr hs)))
  simp [repaired, hactive, hprevious, hpending]

/-- What recovery leaves of a state: of the pending slot what was there or nothing, and of the
other two either themselves, with a damaged previous slot dropped, or the previous slot as the
active one. -/
theorem repaired_eq_ok (h : repaired check state = .ok repairedState) :
    repairedState.formatVersion = state.formatVersion ∧
      repairedState.pending = (if damaged check state.pending then none else state.pending) ∧
      (damaged check state.active = false ∧ repairedState.active = state.active ∧
          repairedState.previous = (if damaged check state.previous then none else state.previous) ∨
        damaged check state.active = true ∧ ∃ previous, state.previous = some previous ∧
          check previous = .ok () ∧ repairedState.active = some previous ∧
          repairedState.previous = none) := by
  unfold repaired at h
  cases hactive : damaged check state.active with
  | false =>
    cases hprevious : damaged check state.previous with
    | false =>
      simp only [hactive, hprevious, Bool.false_eq_true, if_false, Except.ok.injEq] at h
      subst h
      exact ⟨rfl, rfl, .inl ⟨rfl, rfl, rfl⟩⟩
    | true =>
      simp only [hactive, hprevious, Bool.false_eq_true, if_false, if_true, Except.ok.injEq] at h
      subst h
      exact ⟨rfl, rfl, .inl ⟨rfl, rfl, rfl⟩⟩
  | true =>
    simp only [hactive, if_true] at h
    cases hprevious : state.previous with
    | none => simp [hprevious] at h
    | some previous =>
      simp only [hprevious] at h
      obtain ⟨_, hcheck, h⟩ := Except.bind_eq_ok_iff.mp h
      rw [← Except.ok.inj h]
      exact ⟨rfl, rfl, .inr ⟨rfl, previous, rfl, hcheck, rfl, rfl⟩⟩

theorem mem_slots_of_repaired (h : repaired check state = .ok repairedState)
    {slot : ActivationSlot} (hslot : slot ∈ repairedState.slots) :
    slot ∈ state.slots ∧ check slot = .ok () := by
  obtain ⟨_, hpending, hrest⟩ := repaired_eq_ok h
  have hkept : ∀ {o : Option ActivationSlot}, (if damaged check o then none else o) = some slot →
      o = some slot ∧ check slot = .ok () := by
    intro o ho
    split_ifs at ho with hdamaged
    exact ⟨ho, damaged_eq_false_iff.mp (by simpa using hdamaged) slot ho⟩
  rw [ActivationState.mem_slots] at hslot ⊢
  rcases hslot with hslot | hslot | hslot
  · rcases hrest with ⟨hactive, hsame, _⟩ | ⟨_, previous, hprevious, hcheck, hsame, _⟩
    · rw [hsame] at hslot
      exact ⟨.inl hslot, damaged_eq_false_iff.mp hactive slot hslot⟩
    · rw [hsame, Option.some.injEq] at hslot
      exact ⟨.inr (.inl (hslot ▸ hprevious)), hslot ▸ hcheck⟩
  · rcases hrest with ⟨_, _, hsame⟩ | ⟨_, _, _, _, _, hsame⟩
    · rw [hsame] at hslot
      exact ⟨.inr (.inl (hkept hslot).1), (hkept hslot).2⟩
    · simp [hsame] at hslot
  · rw [hpending] at hslot
    exact ⟨.inr (.inr (hkept hslot).1), (hkept hslot).2⟩

theorem repaired_error (hactive : damaged check state.active = true)
    (hprevious : ∀ s, state.previous = some s → check s ≠ .ok ()) :
    ∃ e, repaired check state = .error e := by
  cases h : repaired check state with
  | error e => exact ⟨e, rfl⟩
  | ok repairedState =>
    rcases (repaired_eq_ok h).2.2 with ⟨hsound, _⟩ | ⟨_, previous, hsome, hcheck, _⟩
    · simp [hactive] at hsound
    · exact absurd hcheck (hprevious previous hsome)

end

/-! ## The program -/

section

variable [Crates] {fs : FileSystem} {root : Path} {state : ActivationState}

theorem readOnly_isDamaged (root : Path) (slot : Option ActivationSlot) :
    ReadOnly device (isDamaged root slot) := by
  cases slot with
  | none => trivial
  | some slot =>
    refine (cautious_verifySlot root slot).readOnly.attempt.bind fun r => ?_
    cases r <;> trivial

theorem eval_isDamaged (root : Path) (slot : Option ActivationSlot) (fs : FileSystem) :
    eval device (isDamaged root slot) fs =
      .ok (damaged (fun slot => eval device (verifySlot root slot) fs) slot) := by
  cases slot with
  | none => rfl
  | some slot =>
    unfold isDamaged damaged
    rw [(cautious_verifySlot root slot).readOnly.attempt.eval_bind, eval_attempt, Except.ok_bind]
    simp only
    cases eval device (verifySlot root slot) fs <;> rfl

theorem readOnly_repair (root : Path) (state : ActivationState) :
    ReadOnly device (repair root state) := by
  unfold repair
  refine (readOnly_isDamaged _ _).bind fun pendingDamaged => ?_
  refine (readOnly_isDamaged _ _).bind fun activeDamaged => ?_
  cases activeDamaged with
  | true =>
    refine (Cautious.expect_done _ _).readOnly.bind fun previous => ?_
    exact (cautious_verifySlot root previous).readOnly.bind fun _ => trivial
  | false =>
    refine (readOnly_isDamaged _ _).bind fun previousDamaged => ?_
    cases previousDamaged <;> trivial

theorem eval_repair (root : Path) (state : ActivationState) (fs : FileSystem) :
    eval device (repair root state) fs =
      repaired (fun slot => eval device (verifySlot root slot) fs) state := by
  unfold repair repaired
  rw [(readOnly_isDamaged _ _).eval_bind, eval_isDamaged, Except.ok_bind]
  simp only
  rw [(readOnly_isDamaged _ _).eval_bind, eval_isDamaged, Except.ok_bind]
  cases damaged (fun slot => eval device (verifySlot root slot) fs) state.active with
  | true =>
    simp only [if_true]
    rw [pure_eq_done, (Cautious.expect_done _ _).readOnly.eval_bind, eval_expect_done]
    cases state.previous with
    | none => rfl
    | some previous =>
      rw [Except.ofOption, Except.ok_bind, (cautious_verifySlot root previous).readOnly.eval_bind]
      rfl
  | false =>
    simp only [Bool.false_eq_true, if_false]
    rw [(readOnly_isDamaged _ _).eval_bind, eval_isDamaged, Except.ok_bind]
    cases damaged (fun slot => eval device (verifySlot root slot) fs) state.previous <;> rfl

variable [SerdeJson] {path : PathBuf} {now : Moment} {repairedState : ActivationState}

theorem exec_recover (hroot : IsInstallRoot fs path root) :
    exec device (recover path now) fs =
      match eval device (readActivationState ⟨true, root⟩) fs with
      | .error e => (.error e, fs)
      | .ok state =>
        match repaired (fun slot => eval device (verifySlot root slot) fs) state with
        | .error e => (.error e, fs)
        | .ok repairedState =>
          match exec device (writeActivationState root repairedState now) fs with
          | (.ok (), fs') => (.ok repairedState, fs')
          | (.error e, fs') => (.error e, fs') := by
  unfold recover
  rw [(cautious_canonicalInstallRoot path).readOnly.exec_bind, hroot]
  simp only
  rw [(readOnly_readActivationState _).exec_bind]
  cases eval device (readActivationState ⟨true, root⟩) fs with
  | error e => rfl
  | ok state =>
    simp only
    rw [(readOnly_repair root state).exec_bind, eval_repair]
    cases repaired (fun slot => eval device (verifySlot root slot) fs) state with
    | error e => rfl
    | ok repairedState =>
      simp only
      rw [exec_bind]
      rcases exec device (writeActivationState root repairedState now) fs with ⟨r, fs'⟩
      cases r <;> rfl

theorem exec_recover_of_publishable (hroot : IsInstallRoot fs path root)
    (hread : eval device (readActivationState ⟨true, root⟩) fs = .ok state)
    (hrepair : repaired (fun slot => eval device (verifySlot root slot) fs) state =
      .ok repairedState) (hpub : Publishable fs root repairedState now) :
    ∃ fs', exec device (recover path now) fs = (.ok repairedState, fs') ∧
      Published root repairedState fs fs' := by
  obtain ⟨hok, hpublished⟩ := exec_writeActivationState hroot.directory hpub
  rw [exec_recover hroot, hread]
  simp only [hrepair]
  rcases hwrite : exec device (writeActivationState root repairedState now) fs with ⟨r, fs'⟩
  rw [hwrite] at hok hpublished
  subst hok
  exact ⟨fs', rfl, hpublished⟩

theorem exec_recover_ok {fs' : FileSystem} (hroot : IsInstallRoot fs path root)
    (h : exec device (recover path now) fs = (.ok repairedState, fs')) :
    ∃ state, eval device (readActivationState ⟨true, root⟩) fs = .ok state ∧
      repaired (fun slot => eval device (verifySlot root slot) fs) state = .ok repairedState ∧
      Publishable fs root repairedState now ∧ Published root repairedState fs fs' := by
  rw [exec_recover hroot] at h
  cases hread : eval device (readActivationState ⟨true, root⟩) fs with
  | error e => simp [hread] at h
  | ok state =>
    simp only [hread] at h
    cases hrepair : repaired (fun slot => eval device (verifySlot root slot) fs) state with
    | error e => simp [hrepair] at h
    | ok repairedState' =>
      simp only [hrepair] at h
      rcases hwrite : exec device (writeActivationState root repairedState' now) fs with ⟨r, fs₁⟩
      rw [hwrite] at h
      cases r with
      | error e => simp at h
      | ok _ =>
        rw [Prod.mk.injEq, Except.ok.injEq] at h
        obtain ⟨rfl, rfl⟩ := h
        have hok := exec_writeActivationState_ok hroot.directory (congrArg Prod.fst hwrite)
        rw [hwrite] at hok
        exact ⟨state, rfl, hrepair, hok.1, hok.2⟩

/-! ## The active target -/

/-- What is done with the recovered state. -/
def resolveActive (root : Path) (state : ActivationState) : FileProgram UpdateError Path := do
  let active ← expect .invalidActivationState (pure state.active)
  verifySlot root active
  expect .invalidActivationState (canonicalize (join root active.relativePath))

omit [SerdeJson] in
theorem readOnly_resolveActive (root : Path) (state : ActivationState) :
    ReadOnly device (resolveActive root state) := by
  unfold resolveActive
  refine (Cautious.expect_done _ _).readOnly.bind fun active => ?_
  refine (cautious_verifySlot root active).readOnly.bind fun _ => ?_
  exact (cautious_canonicalize _ _).readOnly

omit [SerdeJson] in
theorem eval_resolveActive_iff {target : Path} :
    eval device (resolveActive root state) fs = .ok target ↔ ∃ active, state.active = some active ∧
      Verifies fs root active ∧
      fs.canonicalize (root ++ pathNames active.relativePath) = some target := by
  unfold resolveActive
  rw [pure_eq_done, (Cautious.expect_done _ _).readOnly.eval_bind, eval_expect_done,
    Except.bind_eq_ok_iff]
  constructor
  · rintro ⟨active, hactive, h⟩
    rw [(cautious_verifySlot root active).readOnly.eval_bind] at h
    obtain ⟨_, hverify, h⟩ := Except.bind_eq_ok_iff.mp h
    rw [eval_canonicalize, Except.ofOption_eq_ok_iff,
      join_of_validateSlot (verifies_iff.mp hverify).1] at h
    exact ⟨active, Except.ofOption_eq_ok_iff.mp hactive, hverify, h⟩
  · rintro ⟨active, hactive, hverify, h⟩
    refine ⟨active, Except.ofOption_eq_ok_iff.mpr hactive, ?_⟩
    rw [(cautious_verifySlot root active).readOnly.eval_bind, hverify, Except.ok_bind,
      eval_canonicalize, join_of_validateSlot (verifies_iff.mp hverify).1, h]
    rfl

theorem exec_activeTarget (hroot : IsInstallRoot fs path root) :
    exec device (activeTarget path now) fs =
      match exec device (recover ⟨true, root⟩ now) fs with
      | (.ok state, fs') => (eval device (resolveActive root state) fs', fs')
      | (.error e, fs') => (.error e, fs') := by
  have hdef : activeTarget path now = canonicalInstallRoot path >>= fun root =>
      recover ⟨true, root⟩ now >>= resolveActive root := rfl
  rw [hdef, (cautious_canonicalInstallRoot path).readOnly.exec_bind, hroot]
  simp only
  rw [exec_bind]
  rcases exec device (recover ⟨true, root⟩ now) fs with ⟨r, fs'⟩
  cases r with
  | error e => rfl
  | ok state => exact (readOnly_resolveActive root state).exec_eq fs'

theorem exec_activeTarget_ok {target : Path} {fs' : FileSystem} (hroot : IsInstallRoot fs path root)
    (h : exec device (activeTarget path now) fs = (.ok target, fs')) :
    ∃ state, exec device (recover ⟨true, root⟩ now) fs = (.ok state, fs') ∧
      eval device (resolveActive root state) fs' = .ok target := by
  rw [exec_activeTarget hroot] at h
  rcases hrecover : exec device (recover ⟨true, root⟩ now) fs with ⟨r, fs₁⟩
  rw [hrecover] at h
  cases r with
  | error e => simp at h
  | ok state =>
    rw [Prod.mk.injEq] at h
    obtain ⟨htarget, rfl⟩ := h
    exact ⟨state, rfl, htarget⟩

end

end CertaelAgent.Updater
