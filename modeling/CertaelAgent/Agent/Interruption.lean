import CertaelAgent.Agent.FailedCalls

/-!
# Updates that are cut off

An update may be cut off between any two of its steps, and so may be each recovery after it. At
every point a complete registration is in its place, or else in its backup with nothing in its
place. Recovery can tell the two apart, and so a recovery that ends well leaves a complete
registration in its place and no backup.
-/

namespace CertaelAgent.Agent

open ProtoWire Protocol Files Files.FileSystem Program

/-- What an update may leave at any point. A link under the name of the backup has been there
before. -/
structure Recoverable (complete : (Path → Option Node) → Prop) (d : Path) (names : List String)
    (registrationId : String) (fs₀ fs : FileSystem) : Prop where
  elsewhere : Elsewhere d names fs₀ fs
  kept : complete (fs.tree (d ++ [registrationId])) ∨ fs.node (d ++ [registrationId]) = none ∧
    complete (fs.tree (d ++ [backupName registrationId]))
  links : ∀ n ∈ fs.node (d ++ [backupName registrationId]), n.IsSymlink →
    fs₀.node (d ++ [backupName registrationId]) = some n

/-- What a recovery that ends well leaves. -/
structure Recovered (complete : (Path → Option Node) → Prop) (d : Path) (registrationId : String)
    (fs₀ fs : FileSystem) : Prop where
  complete : complete (fs.tree (d ++ [registrationId]))
  backup : ∀ n ∈ fs.node (d ++ [backupName registrationId]), n.IsSymlink ∧
    fs₀.node (d ++ [backupName registrationId]) = some n

section

variable {complete : (Path → Option Node) → Prop} {mayFail : FsOp → Bool} {p d : Path}
  {names others : List String} {registrationId temporary source : String}
  {fs₀ fs fs' : FileSystem} {now : Moment}

namespace Recoverable

theorem of_elsewhere (h : Recoverable complete d names registrationId fs₀ fs)
    (hsame : Elsewhere d others fs fs') (hsub : others ⊆ names) (hid : registrationId ∉ others)
    (hbackup : backupName registrationId ∉ others) :
    Recoverable complete d names registrationId fs₀ fs' := by
  refine ⟨h.elsewhere.trans (hsame.mono hsub), ?_, ?_⟩
  · rw [hsame.tree hid, hsame.node hid, hsame.tree hbackup]
    exact h.kept
  · rw [hsame.node hbackup]
    exact h.links

theorem of_pruned (h : Recoverable complete d names registrationId fs₀ fs)
    (hcomplete : complete (fs.tree (d ++ [registrationId])))
    (hpruned : Pruned (d ++ [backupName registrationId]) fs fs')
    (hbackup : backupName registrationId ∈ names) :
    Recoverable complete d names registrationId fs₀ fs' ∧
      complete (fs'.tree (d ++ [registrationId])) := by
  have hsame : complete (fs'.tree (d ++ [registrationId])) := by
    rwa [hpruned.elsewhere.tree (by simpa using (backupName_ne registrationId).symm)]
  refine ⟨⟨?_, .inl hsame, ?_⟩, hsame⟩
  · exact h.elsewhere.trans (hpruned.elsewhere.mono (by simpa using hbackup))
  · intro n hn hlink
    rcases hpruned (d ++ [backupName registrationId]) with hkept | ⟨-, hgone⟩
    · exact h.links n (hkept ▸ hn) hlink
    · rw [hgone] at hn
      cases hn

theorem of_placed (h : Recoverable complete d names registrationId fs₀ fs)
    (hmoved : Moved d source registrationId fs fs') (hcomplete : complete (fs.tree (d ++ [source])))
    (hsource : source ∈ names) (hid : registrationId ∈ names) (hne : source ≠ registrationId) :
    Recoverable complete d names registrationId fs₀ fs' ∧
      complete (fs'.tree (d ++ [registrationId])) := by
  have hplaced : complete (fs'.tree (d ++ [registrationId])) := by
    rwa [hmoved.tree]
  refine ⟨⟨?_, .inl hplaced, ?_⟩, hplaced⟩
  · exact h.elsewhere.trans (hmoved.elsewhere.mono (by simp [hsource, hid]))
  · intro n hn hlink
    by_cases hbackup : source = backupName registrationId
    · have hgone := congrFun (hmoved.gone hne) []
      rw [FileSystem.tree, List.append_nil, hbackup] at hgone
      rw [hgone] at hn
      cases hn
    · rw [hmoved.elsewhere.node (by simp [backupName_ne, Ne.symm hbackup])] at hn
      exact h.links n hn hlink

theorem of_retired (h : Recoverable complete d names registrationId fs₀ fs)
    (hroot : ∀ tree, complete tree → ∃ writable, tree [] = some (.directory writable))
    (hmoved : Moved d registrationId (backupName registrationId) fs fs')
    (hcomplete : complete (fs.tree (d ++ [registrationId])))
    (hid : registrationId ∈ names) (hbackup : backupName registrationId ∈ names) :
    Recoverable complete d names registrationId fs₀ fs' ∧
      complete (fs'.tree (d ++ [backupName registrationId])) := by
  have hretired : complete (fs'.tree (d ++ [backupName registrationId])) := by
    rwa [hmoved.tree]
  have hgone := congrFun (hmoved.gone (backupName_ne registrationId).symm) []
  rw [FileSystem.tree, List.append_nil] at hgone
  refine ⟨⟨?_, .inr ⟨hgone, hretired⟩, ?_⟩, hretired⟩
  · exact h.elsewhere.trans (hmoved.elsewhere.mono (by simp [hid, hbackup]))
  · intro n hn hlink
    obtain ⟨writable, hdirectory⟩ := hroot _ hretired
    rw [FileSystem.tree, List.append_nil, hn] at hdirectory
    obtain rfl := Option.some.inj hdirectory
    exact hlink.elim

end Recoverable

theorem perform_pathExists_entry {name : String} (hp : Leads names p d fs) (hname : Ordinary name)
    (hlink : ∀ n ∈ fs.node (d ++ [name]), ¬ n.IsSymlink) :
    (device.perform (FsOp.pathExists (p ++ [name])) fs).1 = (fs.node (d ++ [name])).isSome := by
  simp only [device, FsOp.perform, hp.canonicalize_entry hname hlink, Option.isSome_map]

/-- Recovery keeps a complete registration at every point, and in the end it is in its place. -/
theorem wp_recoverRegistration_recoverable (hp : Leads names p d fs₀)
    (h : Recoverable complete d names registrationId fs₀ fs)
    (hroot : ∀ tree, complete tree → ∃ writable, tree [] = some (.directory writable))
    (hordinary : Ordinary registrationId) (hid : registrationId ∈ names)
    (hbackup : backupName registrationId ∈ names)
    (hreliable : ∀ op, mayFail op → ¬ device.reads op) :
    wp device mayFail (Recoverable complete d names registrationId fs₀)
      (fun r fs' => Recoverable complete d names registrationId fs₀ fs' ∧
        (r = .ok () → Recovered complete d registrationId fs₀ fs'))
      (recoverRegistration (p ++ [registrationId]) (p ++ [backupName registrationId])) fs := by
  have hp' := hp.after h.elsewhere
  have hquiet : ∀ path, ¬ mayFail (FsOp.pathExists path) := fun path hfails => hreliable _ hfails rfl
  have hnode : ∀ name, complete (fs.tree (d ++ [name])) →
      ∃ writable, fs.node (d ++ [name]) = some (.directory writable) := by
    intro name hcomplete
    obtain ⟨writable, htree⟩ := hroot _ hcomplete
    exact ⟨writable, by rwa [FileSystem.tree, List.append_nil] at htree⟩
  unfold recoverRegistration
  apply wp_read_of_quiet rfl (hquiet _) h
  rcases h.kept with hcomplete | ⟨hnone, hcomplete⟩
  · -- The registration is in its place, and what there is of a backup goes.
    obtain ⟨writable, hdirectory⟩ := hnode _ hcomplete
    rw [perform_pathExists_entry hp' hordinary (by simp [hdirectory, Node.IsSymlink]), hdirectory]
    apply wp_read_of_quiet rfl (hquiet _) h
    cases hreply : (device.perform (FsOp.pathExists (p ++ [backupName registrationId])) fs).1 with
    | false =>
      refine ⟨h, fun _ => ⟨hcomplete, fun n hn => ?_⟩⟩
      have hlink : n.IsSymlink := by
        by_contra hlink
        rw [perform_pathExists_entry hp' (ordinary_backupName registrationId)] at hreply
        · rw [hn] at hreply
          cases hreply
        · rw [hn]
          rintro n ⟨⟩
          exact hlink
      exact ⟨hlink, h.links n hn hlink⟩
    | true =>
      apply wp_ensure
      apply wp_removeTree (hp'.mono (by simpa using hbackup)) (ordinary_backupName registrationId)
      · exact fun fs' hpruned => (h.of_pruned hcomplete hpruned hbackup).1
      · intro removed fs' hpruned hgone
        obtain ⟨hrecoverable, hcomplete'⟩ := h.of_pruned hcomplete hpruned hbackup
        cases removed with
        | false =>
          refine ⟨hrecoverable, fun hok => ?_⟩
          cases hok
        | true =>
          refine ⟨hrecoverable, fun _ => ⟨hcomplete', fun n hn => ?_⟩⟩
          rw [hgone rfl] at hn
          cases hn
  · -- The registration is in its backup only, and is moved back.
    obtain ⟨writable, hdirectory⟩ := hnode _ hcomplete
    rw [perform_pathExists_entry hp' hordinary (by simp [hnone]), hnone]
    apply wp_read_of_quiet rfl (hquiet _) h
    rw [perform_pathExists_entry hp' (ordinary_backupName registrationId)
      (by simp [hdirectory, Node.IsSymlink]), hdirectory]
    apply wp_ensure
    change wp device mayFail _ _ (.call (FsOp.rename _ _) fun renamed => .done (.ok renamed)) fs
    apply wp_rename_entry hp' h
    · refine ⟨h, fun hok => ?_⟩
      cases hok
    · intro fs' hrename
      have hmoved := moved_of_renameEntry hrename
      have hne := backupName_ne registrationId
      obtain ⟨hrecoverable, hcomplete'⟩ := h.of_placed hmoved hcomplete hbackup hid hne
      refine ⟨hrecoverable, fun _ => ⟨hcomplete', fun n hn => ?_⟩⟩
      have hgone := congrFun (hmoved.gone hne) []
      rw [FileSystem.tree, List.append_nil] at hgone
      rw [hgone] at hn
      cases hn

/-- Between the renames the registration is in its backup, before and behind them in its place. -/
theorem wp_activate_recoverable (hp : Leads names p d fs₀)
    (h : Recoverable complete d names registrationId fs₀ fs)
    (hroot : ∀ tree, complete tree → ∃ writable, tree [] = some (.directory writable))
    (hold : complete (fs.tree (d ++ [registrationId])))
    (hnew : complete (fs.tree (d ++ [temporary]))) (hid : registrationId ∈ names)
    (hbackup : backupName registrationId ∈ names) (htemporary : temporary ∈ names)
    (hapart : temporary ≠ registrationId) (hfree : temporary ≠ backupName registrationId) :
    wp device mayFail (Recoverable complete d names registrationId fs₀)
      (fun _ => Recoverable complete d names registrationId fs₀)
      (activate true (p ++ [temporary]) (p ++ [registrationId])
        (p ++ [backupName registrationId])) fs := by
  have hne := backupName_ne registrationId
  unfold activate
  simp only [if_true]
  apply wp_ensure_bind
  change wp device mayFail _ _ (.call (FsOp.rename _ _) fun renamed => .done (.ok renamed)) fs
  apply wp_rename_entry (hp.after h.elsewhere) h
  · exact h
  intro fs₁ hrename₁
  have haway := moved_of_renameEntry hrename₁
  obtain ⟨h₁, hold₁⟩ := h.of_retired hroot haway hold hid hbackup
  have hnew₁ : complete (fs₁.tree (d ++ [temporary])) := by
    rwa [haway.elsewhere.tree (by simp [hapart, hfree])]
  simp only [wp_done, perform_bind]
  apply wp_rename_entry (hp.after h₁.elsewhere) h₁
  · apply wp_rename_entry (hp.after h₁.elsewhere) h₁
    · exact h₁
    · intro fs₂ hback
      exact (h₁.of_placed (moved_of_renameEntry hback) hold₁ hbackup hid hne).1
  intro fs₂ hrename₂
  obtain ⟨h₂, hnew₂⟩ := h₁.of_placed (moved_of_renameEntry hrename₂) hnew₁ htemporary hid hapart
  apply wp_ensure
  apply wp_removeTree ((hp.after h₂.elsewhere).mono (by simpa using hbackup))
    (ordinary_backupName registrationId)
  · exact fun fs₃ hpruned => (h₂.of_pruned hnew₂ hpruned hbackup).1
  · intro removed fs₃ hpruned _
    cases removed <;> exact (h₂.of_pruned hnew₂ hpruned hbackup).1

variable [Codecs]

/-- An update keeps a complete registration at every point, the old one or the one that has been
prepared. -/
theorem wp_installPrepared_recoverable {registration : PreparedRegistration}
    (hp : Leads (workingNames now registration.claims.registrationId) p d fs)
    (hcomplete : complete (fs.tree (d ++ [registration.claims.registrationId])))
    (hroot : ∀ tree, complete tree → ∃ writable, tree [] = some (.directory writable))
    (hnew : complete (registrationTable registration).node)
    (hordinary : Ordinary registration.claims.registrationId)
    (hapart : registration.claims.registrationId ∉ stagingNames now)
    (hreliable : ∀ op, mayFail op → ¬ device.reads op) :
    wp device mayFail (Recoverable complete d (workingNames now registration.claims.registrationId)
        registration.claims.registrationId fs)
      (fun _ => Recoverable complete d (workingNames now registration.claims.registrationId)
        registration.claims.registrationId fs)
      (installPrepared p true now registration) fs := by
  generalize hregistration : registration.claims.registrationId = registrationId at *
  have hid : registrationId ∈ workingNames now registrationId := by simp [workingNames]
  have hbackup : backupName registrationId ∈ workingNames now registrationId := by
    simp [workingNames]
  have hstart : Recoverable complete d (workingNames now registrationId) registrationId fs fs :=
    ⟨.refl d _ fs, .inl hcomplete, fun n hn _ => hn⟩
  unfold installPrepared
  simp only [hregistration]
  apply wp_ensure_bind
  have hmade : ∀ fs₁, MadeAbove d fs fs₁ →
      Recoverable complete d (workingNames now registrationId) registrationId fs fs₁ := by
    intro fs₁ hmade
    obtain ⟨writable, hd⟩ := directory_iff.mp hp.directory
    have hsame : Elsewhere d [] fs fs₁ := fun q _ => hmade.node_of_isSome (by simp [hd]) q
    apply hstart.of_elsewhere hsame
    · exact List.nil_subset _
    · exact List.not_mem_nil
    · exact List.not_mem_nil
  apply wp_createDirAll (.inl hp) _ hmade
  rintro (_ | _) fs₁ hmade₁ -
  · exact hmade fs₁ hmade₁
  dsimp only
  apply wp_bind
  apply wp_mono (wp_recoverRegistration_recoverable hp (hmade fs₁ hmade₁) hroot hordinary hid
    hbackup hreliable)
  rintro (e | _) fs₂ ⟨h₂, hrecovered⟩
  · exact h₂
  have hold₂ := (hrecovered rfl).complete
  apply wp_read rfl h₂
  intro installed
  apply wp_require_bind _ fun _ => h₂
  intro _
  apply wp_read rfl h₂
  intro installed'
  apply wp_require_bind _ fun _ => h₂
  intro _
  apply wp_expect_done_bind _ fun _ => h₂
  intro nonce hnonce
  have htemporary : stagingName now.processId nonce ∈ workingNames now registrationId := by
    simp [workingNames, hnonce]
  have hapart' : stagingName now.processId nonce ≠ registrationId := by
    rintro rfl
    exact hapart (by simp [stagingNames, hnonce])
  have hfree := stagingName_ne_backupName now.processId nonce registrationId
  have htemporary' := ordinary_stagingName now.processId nonce
  generalize stagingName now.processId nonce = temporary at *
  -- What happens in the staging directory does not matter.
  have hstaged : ∀ {fs₃ fs₄}, Recoverable complete d (workingNames now registrationId)
      registrationId fs fs₃ → Elsewhere d [temporary] fs₃ fs₄ →
        Recoverable complete d (workingNames now registrationId) registrationId fs fs₄ := by
    intro fs₃ fs₄ h₃ hsame
    apply h₃.of_elsewhere hsame
    · simpa using htemporary
    · simpa using hapart'.symm
    · simpa using hfree.symm
  have hleads : ∀ {fs₃}, Recoverable complete d (workingNames now registrationId) registrationId fs
      fs₃ → Leads [temporary] p d fs₃ :=
    fun h₃ => (hp.after h₃.elsewhere).mono (by simpa using htemporary)
  apply wp_bind
  apply wp_makeDirectory (hp.after h₂.elsewhere) htemporary' h₂ h₂
  intro fs₃ hnode hnone
  have hsame₃ : Elsewhere d [temporary] fs₂ fs₃ := withNode_elsewhere hnode
  have h₃ := hstaged h₂ hsame₃
  apply wp_bind
  apply wp_attempt
  apply wp_bind
  apply wp_stage (hleads h₃) registration (tree_of_made hnode hnone)
  · exact fun fs₄ hsame₄ => hstaged h₃ hsame₄
  · intro e fs₄ hsame₄
    have h₄ := hstaged h₃ hsame₄
    apply wp_discard (hleads h₄) htemporary'
    · exact fun fs₅ hsame₅ => hstaged h₄ hsame₅
    · exact fun fs₅ hsame₅ => hstaged h₄ hsame₅
  intro fs₄ hsame₄ htree₄
  have h₄ := hstaged h₃ hsame₄
  have hold₄ : complete (fs₄.tree (d ++ [registrationId])) := by
    rwa [(hsame₃.trans hsame₄).tree (by simpa using hapart'.symm)]
  apply wp_mono (wp_activate_recoverable hp h₄ hroot hold₄ (htree₄ ▸ hnew) hid hbackup htemporary
    hapart' hfree)
  intro result fs₅ h₅
  cases result with
  | ok _ => exact h₅
  | error e =>
    apply wp_discard (hleads h₅) htemporary'
    · exact fun fs₆ hsame₆ => hstaged h₅ hsame₆
    · exact fun fs₆ hsame₆ => hstaged h₅ hsame₆

/-! ## Runs that are cut off -/

omit [Codecs] in
/-- The state after recoveries that have each been cut off, or have ended, by a schedule. -/
def afterRecoveries (mayFail : FsOp → Bool) (p : Path) (registrationId : String)
    (schedules : List (List Verdict)) (fs : FileSystem) : FileSystem :=
  schedules.foldl (fun fs schedule => (run device mayFail
    (recoverRegistration (p ++ [registrationId]) (p ++ [backupName registrationId])) schedule
      fs).state) fs

omit [Codecs] in
theorem recoverable_afterRecoveries (hp : Leads names p d fs₀)
    (h : Recoverable complete d names registrationId fs₀ fs)
    (hroot : ∀ tree, complete tree → ∃ writable, tree [] = some (.directory writable))
    (hordinary : Ordinary registrationId) (hid : registrationId ∈ names)
    (hbackup : backupName registrationId ∈ names)
    (hreliable : ∀ op, mayFail op → ¬ device.reads op) (schedules : List (List Verdict)) :
    Recoverable complete d names registrationId fs₀
      (afterRecoveries mayFail p registrationId schedules fs) := by
  induction schedules generalizing fs with
  | nil => exact h
  | cons schedule schedules ih =>
    apply ih
    apply Outcome.Satisfies.state
    apply wp_sound
    apply wp_mono (wp_recoverRegistration_recoverable hp h hroot hordinary hid hbackup hreliable)
    exact fun _ _ hfinished => hfinished.1

variable [Crates]

/-- The old registration, or the new one as the update prepares it. -/
def CompleteRegistration (rules : Platform.PathRules) (args : InstallRegistrationArgs)
    (now : Moment) (d : Path) (registrationId : String) (fs : FileSystem)
    (tree : Path → Option Node) : Prop :=
  tree = fs.tree (d ++ [registrationId]) ∨ ∃ registration,
    eval device (prepareRegistration rules args now) fs = .ok registration ∧
      tree = (registrationTable registration).node

theorem CompleteRegistration.root {rules : Platform.PathRules} {args : InstallRegistrationArgs}
    (hinstalled : fs.Directory (d ++ [registrationId])) {tree : Path → Option Node}
    (h : CompleteRegistration rules args now d registrationId fs tree) :
    ∃ writable, tree [] = some (.directory writable) := by
  rcases h with rfl | ⟨registration, -, rfl⟩
  · obtain ⟨writable, hnode⟩ := directory_iff.mp hinstalled
    exact ⟨writable, by rw [FileSystem.tree, List.append_nil, hnode]⟩
  · use true
    unfold registrationTable
    cases registration.branding with
    | none => rfl
    | some branding =>
      cases hhero : branding.hero <;> simp [brandingTable, hhero, Table.node, emptyDirectory]

/-- Wherever an update of a registration is cut off, and wherever recoveries after it are, the
next recovery that ends well leaves the whole old registration or the whole new one, and no
backup. -/
theorem recovers_after_interruptions {rules : Platform.PathRules} {args : InstallRegistrationArgs}
    (hroot : ∀ names, Reaches names args.registryRoot d fs)
    (hinstalled : fs.Directory (d ++ [registrationId]))
    (hcall : ∀ registration, eval device (prepareRegistration rules args now) fs = .ok registration →
      registration.claims.registrationId = registrationId)
    (hapart : registrationId ∉ stagingNames now)
    (hreliable : ∀ op, mayFail op → ¬ device.reads op)
    (schedule : List Verdict) (interrupted : List (List Verdict)) {last : List Verdict}
    (hlast : run device mayFail (recoverRegistration (args.registryRoot ++ [registrationId])
      (args.registryRoot ++ [backupName registrationId])) last
        (afterRecoveries mayFail args.registryRoot registrationId interrupted
          (run device mayFail (update rules args now) schedule fs).state) = .finished (.ok ()) fs') :
    Recovered (CompleteRegistration rules args now d registrationId fs) d registrationId fs fs' := by
  obtain ⟨writable, hnode⟩ := directory_iff.mp hinstalled
  have hordinary : Ordinary registrationId := fs.ordinary _ _ hnode registrationId (by simp)
  obtain ⟨writable', hd⟩ := directory_iff.mp (fs.parent _ _ _ hnode)
  have hp := (hroot (workingNames now registrationId)).leads (directory_iff.mpr ⟨writable', hd⟩)
  have hid : registrationId ∈ workingNames now registrationId := by simp [workingNames]
  have hbackup : backupName registrationId ∈ workingNames now registrationId := by
    simp [workingNames]
  have hdirectory : ∀ tree, CompleteRegistration rules args now d registrationId fs tree →
      ∃ writable, tree [] = some (.directory writable) := fun _ h => h.root hinstalled
  have hstart : Recoverable (CompleteRegistration rules args now d registrationId fs) d
      (workingNames now registrationId) registrationId fs fs :=
    ⟨.refl d _ fs, .inl (.inl rfl), fun n hn _ => hn⟩
  have hupdate : Recoverable (CompleteRegistration rules args now d registrationId fs) d
      (workingNames now registrationId) registrationId fs
        (run device mayFail (update rules args now) schedule fs).state := by
    apply Outcome.Satisfies.state
    apply wp_sound
    apply (cautious_prepareRegistration rules _ now).wp_bind hstart
    · intro registration hprepared
      obtain rfl := hcall registration hprepared
      exact wp_installPrepared_recoverable hp (.inl rfl) hdirectory
        (.inr ⟨registration, hprepared, rfl⟩) hordinary hapart hreliable
    · exact fun _ => hstart
  have hrecoveries := recoverable_afterRecoveries hp hupdate hdirectory hordinary hid hbackup
    hreliable interrupted
  have hfinished := wp_sound (wp_recoverRegistration_recoverable hp hrecoveries hdirectory hordinary
    hid hbackup hreliable) last
  rw [hlast] at hfinished
  exact hfinished.2 rfl

end

namespace SampleRegistry

/-- An update has been cut off while the old registration was removed, and so has a recovery. -/
def cutOff : FileSystem :=
  afterRecoveries (fun _ => false) ["registry"] "chess" [[.proceed, .proceed, .proceed, .crash]]
    (run device (fun _ => false) (update Sample.unix updateArgs moment)
      (List.replicate 38 .proceed ++ [.crash]) registry).state

/-- A recovery that nothing disturbs. -/
def recovery : AgentProgram Unit :=
  recoverRegistration (["registry"] ++ ["chess"]) (["registry"] ++ [backupName "chess"])

end SampleRegistry

open SampleRegistry in
theorem recovers_after_interruptions_sample :
    Recovered (CompleteRegistration Sample.unix updateArgs moment ["registry"] "chess" registry)
      ["registry"] "chess" registry (exec device recovery cutOff).2 := by
  have hok : (exec device recovery cutOff).1 = .ok () := by decide +kernel
  have hlast : run device (fun _ => false) recovery [] cutOff =
      .finished (.ok ()) (exec device recovery cutOff).2 := by
    rw [run_nil, hok]
  have hinstalled : registry.Directory (["registry"] ++ ["chess"]) :=
    directory_iff.mpr ⟨true, rfl⟩
  apply recovers_after_interruptions reaches_registry hinstalled
    (fun _ => registrationId_of_prepared) (by decide) _ _ _ hlast
  exact fun _ hfails => absurd hfails Bool.false_ne_true

end CertaelAgent.Agent
