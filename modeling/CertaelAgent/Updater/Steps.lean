import CertaelAgent.Foundation.SlotMachine
import CertaelAgent.Updater.Invariant

/-!
# What an operation can do

Whatever fails and wherever an operation is cut off, it leaves a sound installation with every
file below `versions`, and the recorded state is the one before or one that the operation decided
on. It decides on the recorded state, or on the default one if the look for the file failed.
-/

namespace CertaelAgent.Updater

open ProtoWire Protocol Files Files.FileSystem Program SlotMachine

variable [Crates] [SerdeJson] {fs fs' : FileSystem} {root : Path} {path : PathBuf}
  {state new : ActivationState} {now : Moment} {mayFail : FsOp → Bool} {I : FileSystem → Prop}
  {α : Type} {decides : ActivationState → ActivationState → Prop}

omit [SerdeJson] in
/-- The installation is sound and complete, and its state is the old one or a decided one. -/
def Evolved (root : Path) (decides : ActivationState → ActivationState → Prop) (fs : FileSystem)
    (state : ActivationState) (fs' : FileSystem) : Prop :=
  Sound root fs' ∧ Keeps root fs fs' ∧ ∃ new, Records fs' root new ∧
    (new = state ∨ decides state new ∨ decides ActivationState.default new)

omit [SerdeJson] in
/-- A state that is returned has been decided on and recorded. -/
def Answered (root : Path) (decides : ActivationState → ActivationState → Prop) (fs : FileSystem)
    (state : ActivationState) (r : Except UpdateError ActivationState) (fs' : FileSystem) : Prop :=
  Evolved root decides fs state fs' ∧ ∀ new, r = .ok new →
    Records fs' root new ∧ (decides state new ∨ decides ActivationState.default new)

omit [SerdeJson] in
theorem Evolved.of_preserves (hsound : Sound root fs) (hstate : Records fs root state)
    (h : Preserves root fs fs') : Evolved root decides fs state fs' :=
  ⟨hsound.of_preserves h, h.keeps, state, hstate.of_same h.activation, .inl rfl⟩

omit [SerdeJson] in
theorem Evolved.refl (hsound : Sound root fs) (hstate : Records fs root state) :
    Evolved root decides fs state fs :=
  .of_preserves hsound hstate hsound.refl_preserves

omit [SerdeJson] in
theorem Answered.of_error (h : Evolved root decides fs state fs') (e : UpdateError) :
    Answered root decides fs state (.error e) fs' :=
  ⟨h, fun new hnew => by simp at hnew⟩

/-! ## The parts of the operations -/

omit [Crates] [SerdeJson] in
theorem wp_canonicalInstallRoot_bind {Q : Except UpdateError α → FileSystem → Prop}
    {f : Path → FileProgram UpdateError α} (hpath : fs.canonicalize path.names = some root)
    (hI : I fs) (h : wp device mayFail I Q (f root) fs) (herror : ∀ e, Q (.error e) fs) :
    wp device mayFail I Q (canonicalInstallRoot path >>= f) fs := by
  refine (cautious_canonicalInstallRoot path).wp_bind hI (fun root' hroot' => ?_) herror
  have hsame : root' = root :=
    Option.some.inj ((IsInstallRoot.canonicalize hroot').symm.trans hpath)
  rwa [hsame]

omit [Crates] in
theorem wp_readActivationStateCanonical (hroot : fs.Directory root) (hstate : Records fs root state)
    (hI : I fs) : wp device mayFail I
      (fun r fs' => fs' = fs ∧ ∀ read, r = .ok read → read = state ∨ read = ActivationState.default)
      (readActivationStateCanonical root) fs := by
  rw [readActivationStateCanonical_eq]
  refine wp_read (show device.reads (.pathExists (activationPath root)) from rfl) hI fun found => ?_
  cases found with
  | false =>
    exact ⟨rfl, fun read hread => .inr (Except.ok.inj hread).symm⟩
  | true =>
    refine (cautious_loadActivationState root).wp_eval hI (fun read hread => ?_)
      fun e => ⟨rfl, fun read hread => by simp at hread⟩
    refine ⟨rfl, fun read' hread' => .inl ?_⟩
    have hholds := (eval_loadActivationState_iff hroot).mp hread
    have hread'' := (eval_readActivationState_iff hroot).mpr (.inl hholds)
    rw [hstate.eval_read hroot, Except.ok.injEq] at hread''
    rw [hread'', Except.ok.inj hread']

omit [Crates] in
theorem wp_readActivationStateCanonical_bind {Q : Except UpdateError α → FileSystem → Prop}
    {f : ActivationState → FileProgram UpdateError α} (hroot : fs.Directory root)
    (hstate : Records fs root state) (hI : I fs)
    (h : ∀ read, read = state ∨ read = ActivationState.default → wp device mayFail I Q (f read) fs)
    (herror : ∀ e, Q (.error e) fs) :
    wp device mayFail I Q (readActivationStateCanonical root >>= f) fs := by
  refine wp_bind (wp_mono (wp_readActivationStateCanonical hroot hstate hI) ?_)
  rintro r fs' ⟨rfl, hread⟩
  cases r with
  | ok read => exact h read (hread read rfl)
  | error e => exact herror e

omit [Crates] in
theorem wp_readActivationState_bind {Q : Except UpdateError α → FileSystem → Prop}
    {f : ActivationState → FileProgram UpdateError α} (hroot : fs.Directory root)
    (hstate : Records fs root state) (hI : I fs)
    (h : ∀ read, read = state ∨ read = ActivationState.default → wp device mayFail I Q (f read) fs)
    (herror : ∀ e, Q (.error e) fs) :
    wp device mayFail I Q (readActivationState ⟨true, root⟩ >>= f) fs := by
  have hself : fs.canonicalize root = some root := canonicalize_of_real hroot.real
  refine wp_bind (wp_canonicalInstallRoot_bind hself hI
    (wp_mono (wp_readActivationStateCanonical hroot hstate hI) ?_) herror)
  rintro r fs' ⟨rfl, hread⟩
  cases r with
  | ok read => exact h read (hread read rfl)
  | error e => exact herror e

theorem installed_of_read (hsound : Sound root fs) (hstate : Records fs root state)
    {read : ActivationState} (hread : read = state ∨ read = ActivationState.default) :
    ∀ slot ∈ read.slots, Installed fs root slot := by
  rcases hread with rfl | rfl
  · exact hsound.installed hstate
  · intro slot hslot
    simp at hslot

omit [SerdeJson] in
theorem wp_writeDecided (hsound : Sound root fs) (hstate : Records fs root state)
    (hdecides : decides state new ∨ decides ActivationState.default new)
    (hslots : ∀ slot ∈ new.slots, Installed fs root slot) :
    wp device mayFail (Evolved root decides fs state) (fun r fs' => Evolved root decides fs state fs' ∧
      (r = .ok () → Records fs' root new)) (writeActivationState root new now) fs := by
  refine wp_writeActivationState hsound.directory (fun fs' hstaged => ?_) fun hpub fs₁ hpublished => ?_
  · have hevolved : Evolved root decides fs state fs' :=
      .of_preserves hsound hstate (hsound.preserves_of_staged hstaged)
    exact ⟨hevolved, fun _ e => ⟨hevolved, by simp⟩⟩
  · obtain ⟨hsound₁, hkeeps, hrecords⟩ := hsound.of_published hpub hpublished hslots
    refine ⟨⟨⟨hsound₁, hkeeps, new, hrecords, .inr hdecides⟩, fun _ => hrecords⟩,
      fun fs' hstaged => ?_⟩
    have hpreserves := hsound₁.preserves_of_staged hstaged
    have hevolved : Evolved root decides fs state fs' :=
      ⟨hsound₁.of_preserves hpreserves, hkeeps.trans hpreserves.keeps, new,
        hrecords.of_same hpreserves.activation, .inr hdecides⟩
    exact ⟨hevolved, fun _ e => ⟨hevolved, by simp⟩⟩

omit [SerdeJson] in
theorem wp_write_return (hsound : Sound root fs) (hstate : Records fs root state)
    (hdecides : decides state new ∨ decides ActivationState.default new)
    (hslots : ∀ slot ∈ new.slots, Installed fs root slot) :
    wp device mayFail (Evolved root decides fs state) (Answered root decides fs state)
      (writeActivationState root new now >>= fun _ => done (.ok new)) fs := by
  refine wp_bind (wp_mono (wp_writeDecided hsound hstate hdecides hslots) fun r fs' h => ?_)
  cases r with
  | error e => exact .of_error h.1 e
  | ok _ =>
    refine ⟨h.1, fun new' hnew' => ?_⟩
    rw [← Except.ok.inj hnew']
    exact ⟨h.2 rfl, hdecides⟩

/-! ## The operations on the state -/

omit [Crates] [SerdeJson] in
def ActivationState.places (state : ActivationState) : Places ActivationSlot :=
  ⟨state.active, state.previous, state.pending⟩

omit [Crates] [SerdeJson] in
/-- The state is the result of one of the moves. -/
def Moves (actions : Action ActivationSlot → Prop) (state new : ActivationState) : Prop :=
  ∃ action, actions action ∧ Move action state.places new.places

omit [Crates] [SerdeJson] in
theorem decides_of_read {read : ActivationState}
    (hread : read = state ∨ read = ActivationState.default) (h : decides read new) :
    decides state new ∨ decides ActivationState.default new := by
  rcases hread with rfl | rfl
  · exact .inl h
  · exact .inr h

section

variable (hsound : Sound root fs) (hstate : Records fs root state)
  (hpath : fs.canonicalize path.names = some root)

include hsound hstate hpath

theorem wp_activatePending : wp device mayFail (Evolved root (Moves (· = .promote)) fs state)
    (Answered root (Moves (· = .promote)) fs state) (activatePending path now) fs := by
  have hrefl : Evolved root (Moves (· = .promote)) fs state fs := .refl hsound hstate
  have herror := fun e => Answered.of_error hrefl e
  unfold activatePending
  refine wp_canonicalInstallRoot_bind hpath hrefl ?_ herror
  refine wp_readActivationState_bind hsound.directory hstate hrefl (fun read hread => ?_) herror
  refine wp_expect_done_bind (fun pending hpending => ?_) fun _ => herror _
  refine (cautious_verifySlot root pending).wp_bind hrefl (fun _ _ => ?_) herror
  refine wp_write_return hsound hstate (decides_of_read hread ⟨_, rfl, .promote hpending⟩)
    fun slot hslot => installed_of_read hsound hstate hread slot ?_
  rw [ActivationState.mem_slots] at hslot ⊢
  rcases hslot with hslot | hslot | hslot
  · exact .inr (.inr (hslot ▸ hpending))
  · exact .inl hslot
  · simp at hslot

theorem wp_rollback : wp device mayFail (Evolved root (Moves (· = .rollBack)) fs state)
    (Answered root (Moves (· = .rollBack)) fs state) (rollback path now) fs := by
  have hrefl : Evolved root (Moves (· = .rollBack)) fs state fs := .refl hsound hstate
  have herror := fun e => Answered.of_error hrefl e
  unfold rollback
  refine wp_canonicalInstallRoot_bind hpath hrefl ?_ herror
  refine wp_readActivationState_bind hsound.directory hstate hrefl (fun read hread => ?_) herror
  refine wp_expect_done_bind (fun previous hprevious => ?_) fun _ => herror _
  refine (cautious_verifySlot root previous).wp_bind hrefl (fun _ _ => ?_) herror
  refine wp_write_return hsound hstate (decides_of_read hread ⟨_, rfl, .rollBack hprevious⟩)
    fun slot hslot => installed_of_read hsound hstate hread slot ?_
  rw [ActivationState.mem_slots] at hslot ⊢
  rcases hslot with hslot | hslot | hslot
  · exact .inr (.inl (hslot ▸ hprevious))
  · exact .inl hslot
  · simp at hslot

end

omit [Crates] [SerdeJson] in
theorem mem_slots_of_places {slot : ActivationSlot} (h : slot ∈ new.slots)
    (hactive : new.active = state.active ∨ new.active = state.previous)
    (hprevious : new.previous = state.previous ∨ new.previous = none)
    (hpending : new.pending = state.pending ∨ new.pending = none) : slot ∈ state.slots := by
  rw [ActivationState.mem_slots] at h ⊢
  rcases h with h | h | h
  · rcases hactive with heq | heq
    · exact .inl (heq ▸ h)
    · exact .inr (.inl (heq ▸ h))
  · rcases hprevious with heq | heq
    · exact .inr (.inl (heq ▸ h))
    · simp [heq] at h
  · rcases hpending with heq | heq
    · exact .inr (.inr (heq ▸ h))
    · simp [heq] at h

omit [SerdeJson] in
/-- However the checks come out, recovery only drops slots or falls back to the previous one. -/
theorem wp_repair_bind {Q : Except UpdateError α → FileSystem → Prop} {read : ActivationState}
    {f : ActivationState → FileProgram UpdateError α} (hI : I fs)
    (h : ∀ new, Move .repair read.places new.places → (∀ slot ∈ new.slots, slot ∈ read.slots) →
      wp device mayFail I Q (f new) fs) (herror : ∀ e, Q (.error e) fs) :
    wp device mayFail I Q (repair root read >>= f) fs := by
  refine wp_bind ?_
  unfold repair
  refine (readOnly_isDamaged _ _).wp_bind hI (fun lost => ?_) herror
  have hpending : ∀ lost : Bool, (if lost = true then none else read.pending) = read.pending ∨
      (if lost = true then none else read.pending) = none := by
    intro lost
    cases lost <;> simp
  refine (readOnly_isDamaged _ _).wp_bind hI (fun damaged => ?_) herror
  cases damaged with
  | true =>
    refine wp_expect_done_bind (fun previous hprevious => ?_) fun _ => herror _
    refine (cautious_verifySlot root previous).readOnly.wp_bind hI (fun _ => ?_) herror
    exact h _ (.fallBack hprevious (hpending lost))
      fun slot hslot => mem_slots_of_places hslot (.inr hprevious.symm) (.inr rfl) (hpending lost)
  | false =>
    refine (readOnly_isDamaged _ _).wp_bind hI (fun damaged => ?_) herror
    cases damaged with
    | true =>
      exact h _ (.drop (.inr rfl) (hpending lost))
        fun slot hslot => mem_slots_of_places hslot (.inl rfl) (.inr rfl) (hpending lost)
    | false =>
      exact h _ (.drop (.inl rfl) (hpending lost))
        fun slot hslot => mem_slots_of_places hslot (.inl rfl) (.inl rfl) (hpending lost)

section

variable (hsound : Sound root fs) (hstate : Records fs root state)
  (hpath : fs.canonicalize path.names = some root)

include hsound hstate hpath

theorem wp_recover : wp device mayFail (Evolved root (Moves (· = .repair)) fs state)
    (Answered root (Moves (· = .repair)) fs state) (recover path now) fs := by
  have hrefl : Evolved root (Moves (· = .repair)) fs state fs := .refl hsound hstate
  have herror := fun e => Answered.of_error hrefl e
  unfold recover
  refine wp_canonicalInstallRoot_bind hpath hrefl ?_ herror
  refine wp_readActivationState_bind hsound.directory hstate hrefl (fun read hread => ?_) herror
  refine wp_repair_bind hrefl (fun new hmove hslots => ?_) herror
  exact wp_write_return hsound hstate (decides_of_read hread ⟨_, rfl, hmove⟩)
    fun slot hslot => installed_of_read hsound hstate hread slot (hslots slot hslot)

/-- Where only changes fail, recovery returns the recorded state. -/
theorem wp_recover_of_reliable (hreliable : ∀ op, mayFail op → ¬ op.reads) :
    wp device mayFail (fun _ => True) (fun r _ => ∀ new, r = .ok new → new = state)
      (recover path now) fs := by
  unfold recover
  refine wp_canonicalInstallRoot_bind hpath trivial ?_ fun e new hnew => by simp at hnew
  refine (readOnly_readActivationState _).wp_eval_bind hreliable trivial (fun read hread => ?_)
    fun e _ new hnew => by simp at hnew
  rw [hstate.eval_read hsound.directory, Except.ok.injEq] at hread
  subst hread
  refine (readOnly_repair root state).wp_eval_bind hreliable trivial (fun repaired hrepaired => ?_)
    fun e _ new hnew => by simp at hnew
  rw [eval_repair, repaired_of_sound fun slot hslot => (hsound.installed hstate slot hslot).verifies,
    Except.ok.injEq] at hrepaired
  subst hrepaired
  refine wp_bind (wp_writeActivationState hsound.directory (fun fs' _ => ⟨trivial, fun _ e => ?_⟩)
    fun _ fs₁ _ => ⟨fun new hnew => (Except.ok.inj hnew).symm, fun fs' _ => ⟨trivial, fun _ e => ?_⟩⟩)
  · exact fun new hnew => by simp at hnew
  · exact fun new hnew => by simp at hnew

theorem wp_activeTarget : wp device mayFail (Evolved root (Moves (· = .repair)) fs state)
    (fun _ => Evolved root (Moves (· = .repair)) fs state) (activeTarget path now) fs := by
  have hrefl : Evolved root (Moves (· = .repair)) fs state fs := .refl hsound hstate
  have hself : fs.canonicalize root = some root := canonicalize_of_real hsound.directory.real
  refine wp_canonicalInstallRoot_bind hpath hrefl ?_ fun e => hrefl
  refine wp_bind (wp_mono (wp_recover hsound hstate hself) fun r fs' h => ?_)
  cases r with
  | ok new => exact (readOnly_resolveActive root new).wp_any h.1 fun _ => h.1
  | error e => exact h.1

end

omit [Crates] [SerdeJson] in
theorem move_registered (slot : ActivationSlot) (activate : Bool) :
    Move (.register slot activate) state.places (registered state slot activate).places := by
  unfold registered
  split_ifs with hnone hsame hactivate
  · exact .first hnone
  · exact .same hsame
  · obtain ⟨active, hactive⟩ := Option.ne_none_iff_exists'.mp hnone
    rw [hactivate]
    exact .replace hactive fun heq => hsame (heq ▸ hactive)
  · obtain ⟨active, hactive⟩ := Option.ne_none_iff_exists'.mp hnone
    rw [Bool.not_eq_true] at hactivate
    rw [hactivate]
    exact .queue hactive fun heq => hsame (heq ▸ hactive)

omit [Crates] [SerdeJson] in
theorem mem_slots_registered {slot other : ActivationSlot} {activate : Bool}
    (h : other ∈ (registered state slot activate).slots) : other = slot ∨ other ∈ state.slots := by
  unfold registered at h
  rw [ActivationState.mem_slots] at h ⊢
  split_ifs at h <;> simp_all <;> grind

omit [SerdeJson] in
/-- A file that was hashed at the path of a version is no link. -/
theorem installed_of_hashFile (hsound : Sound root fs) {version name digest : String}
    (hversion : safeComponent version) (hname : safeComponent name)
    (hdigest : eval device (hashFile (join root (slotPath version name))) fs = .ok digest)
    (hverify : Verifies fs root ⟨version, slotPath version name, digest⟩) :
    Installed fs root ⟨version, slotPath version name, digest⟩ := by
  rw [join_slotPath hversion hname] at hdigest
  have hlocate : ∀ q, fs.locate (root ++ ["versions", version, name]) = some q →
      q = root ++ ["versions", version, name] := by
    intro q hq
    refine eq_of_locate (fun x hx => ?_) ?_ hq
    · rcases List.mem_append.mp hx with hx | hx
      · exact ordinary_of_directory hsound.directory x hx
      · simp only [List.mem_cons, List.not_mem_nil, or_false] at hx
        rcases hx with rfl | rfl | rfl
        · decide
        · exact safeComponent_ordinary hversion
        · exact safeComponent_ordinary hname
    · have hparent : (root ++ ["versions", version, name]).dropLast =
          versionsPath root ++ [version] := by
        simp [versionsPath, List.dropLast_append_of_ne_nil]
      rw [hparent]
      exact hsound.links version
  obtain ⟨content, mode, hnode, rfl⟩ := file_of_eval_hashFile hlocate hdigest
  have hnames : pathNames (slotPath version name) = ["versions", version, name] :=
    pathNames_slotPath hversion hname
  refine ⟨(verifies_iff.mp hverify).1, ?_, content, mode, ?_, rfl⟩
  · simp [versionsPath, hnames]
  · simpa [hnames] using hnode

theorem wp_registerExistingVersion (hsound : Sound root fs) (hstate : Records fs root state)
    (hpath : fs.canonicalize path.names = some root) {version name : String} {activate : Bool} :
    wp device mayFail
      (Evolved root (Moves fun action => ∃ slot, action = .register slot activate) fs state)
      (Answered root (Moves fun action => ∃ slot, action = .register slot activate) fs state)
      (registerExistingVersion path version name activate now) fs := by
  have hrefl : Evolved root (Moves fun action => ∃ slot, action = .register slot activate) fs state
    fs := .refl hsound hstate
  have herror := fun e => Answered.of_error hrefl e
  unfold registerExistingVersion
  refine wp_canonicalInstallRoot_bind hpath hrefl ?_ herror
  refine wp_require_bind (fun hsafe => ?_) fun _ => herror _
  refine (cautious_hashFile _).wp_bind hrefl (fun digest hdigest => ?_) herror
  refine (cautious_verifySlot root _).wp_bind hrefl (fun _ hverify => ?_) herror
  have hinstalled := installed_of_hashFile hsound hsafe.1 hsafe.2 hdigest hverify
  refine wp_readActivationStateCanonical_bind hsound.directory hstate hrefl (fun read hread => ?_)
    herror
  refine wp_write_return hsound hstate
    (decides_of_read hread ⟨_, ⟨_, rfl⟩, move_registered _ activate⟩) fun slot hslot => ?_
  rcases mem_slots_registered hslot with rfl | hslot
  · exact hinstalled
  · exact installed_of_read hsound hstate hread slot hslot

end CertaelAgent.Updater
