import CertaelAgent.Agent.Interruption
import CertaelAgent.Agent.Reloading

/-!
# The registry over whole runs

Games are registered and updated one after the other, and any call may fail or be cut off between
two of its steps. Whatever happens, a registration is complete in its place, or complete in its
backup with nothing in its place, or not there; nothing that a call was working on is ever found in
the place of a registration. So what is listed are registrations that a call has prepared.
-/

namespace CertaelAgent.Agent

open ProtoWire Protocol Files Files.FileSystem Program

/-- How a registration is found between calls. Whether it may be missing is said apart. -/
structure Intact (complete : (Path → Option Node) → Prop) (missing : Prop) (d : Path)
    (registrationId : String) (fs : FileSystem) : Prop where
  kept : complete (fs.tree (d ++ [registrationId])) ∨ fs.node (d ++ [registrationId]) = none ∧
    (complete (fs.tree (d ++ [backupName registrationId])) ∨
      fs.node (d ++ [backupName registrationId]) = none ∧ missing)
  links : ∀ n ∈ fs.node (d ++ [backupName registrationId]), ¬ n.IsSymlink

/-- What a call finds and leaves at any point. -/
structure Underway (complete : (Path → Option Node) → Prop) (missing : Prop) (d : Path)
    (names : List String) (registrationId : String) (fs₀ fs : FileSystem) : Prop where
  elsewhere : Elsewhere d names fs₀ fs
  intact : Intact complete missing d registrationId fs

section

variable {complete complete' : (Path → Option Node) → Prop} {missing : Prop}
  {mayFail : FsOp → Bool} {p d : Path}
  {names others : List String} {registrationId temporary : String} {fs₀ fs fs' : FileSystem}
  {now : Moment}

namespace Intact

theorem mono (h : Intact complete missing d registrationId fs)
    (hsub : ∀ tree, complete tree → complete' tree) : Intact complete' missing d registrationId fs where
  kept := h.kept.imp (hsub _) (And.imp_right (Or.imp_left (hsub _)))
  links := h.links

theorem congr (h : Intact complete missing d registrationId fs)
    (hid : fs'.tree (d ++ [registrationId]) = fs.tree (d ++ [registrationId]))
    (hbackup : fs'.tree (d ++ [backupName registrationId]) =
      fs.tree (d ++ [backupName registrationId])) : Intact complete missing d registrationId fs' := by
  have hnode : fs'.node (d ++ [registrationId]) = fs.node (d ++ [registrationId]) := by
    simpa [FileSystem.tree] using congrFun hid []
  have hbackupNode : fs'.node (d ++ [backupName registrationId]) =
      fs.node (d ++ [backupName registrationId]) := by
    simpa [FileSystem.tree] using congrFun hbackup []
  refine ⟨?_, ?_⟩
  · rw [hid, hnode, hbackup, hbackupNode]
    exact h.kept
  · rw [hbackupNode]
    exact h.links

theorem of_elsewhere (h : Intact complete missing d registrationId fs) (hsame : Elsewhere d others fs fs')
    (hid : registrationId ∉ others) (hbackup : backupName registrationId ∉ others) :
    Intact complete missing d registrationId fs' :=
  h.congr (hsame.tree hid) (hsame.tree hbackup)

theorem of_made (h : Intact complete missing d registrationId fs) (hmade : MadeAbove d fs fs') :
    Intact complete missing d registrationId fs' :=
  h.congr (hmade.tree _) (hmade.tree _)

theorem of_recoverable (h : Recoverable complete d names registrationId fs₀ fs)
    (hlinks : ∀ n ∈ fs₀.node (d ++ [backupName registrationId]), ¬ n.IsSymlink) :
    Intact complete missing d registrationId fs where
  kept := h.kept.imp_right (And.imp_right .inl)
  links n hn hlink := hlinks n (h.links n hn hlink) hlink

theorem recoverable (hkept : complete (fs.tree (d ++ [registrationId])) ∨
      fs.node (d ++ [registrationId]) = none ∧
        complete (fs.tree (d ++ [backupName registrationId]))) (names : List String) :
    Recoverable complete d names registrationId fs fs where
  elsewhere := .refl d names fs
  kept := hkept
  links _ hn _ := hn

end Intact

theorem Underway.of_elsewhere (h : Underway complete missing d names registrationId fs₀ fs)
    (hsame : Elsewhere d others fs fs') (hsub : others ⊆ names) (hid : registrationId ∉ others)
    (hbackup : backupName registrationId ∉ others) :
    Underway complete missing d names registrationId fs₀ fs' :=
  ⟨h.elsewhere.trans (hsame.mono hsub), h.intact.of_elsewhere hsame hid hbackup⟩

theorem wp_recoverRegistration_intact (hp : Leads names p d fs₀)
    (h : Underway complete missing d names registrationId fs₀ fs)
    (hroot : ∀ tree, complete tree → ∃ writable, tree [] = some (.directory writable))
    (hordinary : Ordinary registrationId) (hid : registrationId ∈ names)
    (hbackup : backupName registrationId ∈ names)
    (hreliable : ∀ op, mayFail op → ¬ device.reads op) :
    wp device mayFail (Underway complete missing d names registrationId fs₀)
      (fun r fs' => Underway complete missing d names registrationId fs₀ fs' ∧
        (r = .ok () → complete (fs'.tree (d ++ [registrationId])) ∨
          fs'.node (d ++ [registrationId]) = none ∧
            fs'.node (d ++ [backupName registrationId]) = none))
      (recoverRegistration (p ++ [registrationId]) (p ++ [backupName registrationId])) fs := by
  have hp' := hp.after h.elsewhere
  have hkept : (complete (fs.tree (d ++ [registrationId])) ∨ fs.node (d ++ [registrationId]) = none ∧
      complete (fs.tree (d ++ [backupName registrationId]))) ∨
      fs.node (d ++ [registrationId]) = none ∧ fs.node (d ++ [backupName registrationId]) = none := by
    rcases h.intact.kept with hin | ⟨hnone, hbackup | ⟨hbackup, -⟩⟩
    · exact .inl (.inl hin)
    · exact .inl (.inr ⟨hnone, hbackup⟩)
    · exact .inr ⟨hnone, hbackup⟩
  rcases hkept with hkept | ⟨hnone, hbackupNone⟩
  · have hunderway : ∀ fs', Recoverable complete d names registrationId fs fs' →
        Underway complete missing d names registrationId fs₀ fs' := fun fs' h' =>
      ⟨h.elsewhere.trans h'.elsewhere, .of_recoverable h' h.intact.links⟩
    apply wp_weaken (wp_recoverRegistration_recoverable hp' (Intact.recoverable hkept names) hroot
      hordinary hid hbackup hreliable) hunderway
    exact fun r fs' ⟨h', hrecovered⟩ => ⟨hunderway fs' h', fun hok => .inl (hrecovered hok).complete⟩
  · -- There is nothing to recover.
    have hquiet : ∀ path, ¬ mayFail (FsOp.pathExists path) :=
      fun path hfails => hreliable _ hfails rfl
    unfold recoverRegistration
    apply wp_read_of_quiet rfl (hquiet _) h
    rw [perform_pathExists_entry hp' hordinary (by simp [hnone]), hnone]
    apply wp_read_of_quiet rfl (hquiet _) h
    rw [perform_pathExists_entry hp' (ordinary_backupName registrationId) (by simp [hbackupNone]),
      hbackupNone]
    exact ⟨h, fun _ => .inr ⟨hnone, hbackupNone⟩⟩

theorem wp_activate_first (hp : Leads names p d fs₀)
    (h : Underway complete missing d names registrationId fs₀ fs)
    (hnew : complete (fs.tree (d ++ [temporary]))) (hid : registrationId ∈ names)
    (htemporary : temporary ∈ names) (hfree : temporary ≠ backupName registrationId) :
    wp device mayFail (Underway complete missing d names registrationId fs₀)
      (fun _ => Underway complete missing d names registrationId fs₀)
      (activate false (p ++ [temporary]) (p ++ [registrationId])
        (p ++ [backupName registrationId])) fs := by
  unfold activate
  simp only [Bool.false_eq_true, if_false]
  apply wp_ensure
  change wp device mayFail _ _ (.call (FsOp.rename _ _) fun renamed => .done (.ok renamed)) fs
  apply wp_rename_entry (hp.after h.elsewhere) h
  · exact h
  intro fs' hrename
  have hmoved := moved_of_renameEntry hrename
  refine ⟨h.elsewhere.trans (hmoved.elsewhere.mono (by simp [htemporary, hid])), .inl ?_, ?_⟩
  · rwa [hmoved.tree]
  · rw [hmoved.elsewhere.node (by simp [Ne.symm hfree, backupName_ne])]
    exact h.intact.links

variable [Codecs]

/-- A registration or an update leaves the registration as it finds it or puts the new one into its
place. -/
theorem wp_installPrepared_intact {replace : Bool} {registration : PreparedRegistration}
    (hreach : Reaches (workingNames now registration.claims.registrationId) p d fs)
    (h : Intact complete missing d registration.claims.registrationId fs)
    (hroot : ∀ tree, complete tree → ∃ writable, tree [] = some (.directory writable))
    (hnew : complete (registrationTable registration).node)
    (hordinary : Ordinary registration.claims.registrationId)
    (hapart : registration.claims.registrationId ∉ stagingNames now)
    (hreliable : ∀ op, mayFail op → ¬ device.reads op) :
    wp device mayFail
      (fun fs' => ∃ fs₁, MadeAbove d fs fs₁ ∧
        Underway complete missing d (workingNames now registration.claims.registrationId)
          registration.claims.registrationId fs₁ fs')
      (fun _ fs' => ∃ fs₁, MadeAbove d fs fs₁ ∧
        Underway complete missing d (workingNames now registration.claims.registrationId)
          registration.claims.registrationId fs₁ fs')
      (installPrepared p replace now registration) fs := by
  generalize hregistration : registration.claims.registrationId = registrationId at *
  have hid : registrationId ∈ workingNames now registrationId := by simp [workingNames]
  have hbackup : backupName registrationId ∈ workingNames now registrationId := by
    simp [workingNames]
  unfold installPrepared
  simp only [hregistration]
  apply wp_ensure_bind
  have hmade : ∀ fs₁, MadeAbove d fs fs₁ → Underway complete missing d (workingNames now registrationId)
      registrationId fs₁ fs₁ := by
    exact fun fs₁ hmade => ⟨.refl d _ fs₁, h.of_made hmade⟩
  apply wp_createDirAll hreach _ fun fs₁ hmade₁ => ⟨fs₁, hmade₁, hmade fs₁ hmade₁⟩
  rintro (_ | _) fs₁ hmade₁ hleads
  · exact ⟨fs₁, hmade₁, hmade fs₁ hmade₁⟩
  have hp := hleads rfl
  have h₁ := hmade fs₁ hmade₁
  apply wp_weaken (J := fun fs' => ∃ fs₁, MadeAbove d fs fs₁ ∧ Underway complete missing d _ _ fs₁ fs') _
    (fun fs' h' => ⟨fs₁, hmade₁, h'⟩) fun _ fs' h' => ⟨fs₁, hmade₁, h'⟩
  apply wp_bind
  apply wp_mono (wp_recoverRegistration_intact hp h₁ hroot hordinary hid hbackup hreliable)
  rintro (e | _) fs₂ ⟨h₂, hrecovered⟩
  · exact h₂
  have hquiet : ∀ path, ¬ mayFail (FsOp.pathExists path) := fun path hfails => hreliable _ hfails rfl
  have hfound : (device.perform (FsOp.pathExists (p ++ [registrationId])) fs₂).1 =
      (fs₂.node (d ++ [registrationId])).isSome := by
    apply perform_pathExists_entry (hp.after h₂.elsewhere) hordinary
    rcases hrecovered rfl with hcomplete | ⟨hnone, -⟩
    · obtain ⟨writable, htree⟩ := hroot _ hcomplete
      rw [FileSystem.tree, List.append_nil] at htree
      simp [htree, Node.IsSymlink]
    · simp [hnone]
  apply wp_read_of_quiet rfl (hquiet _) h₂
  rw [hfound]
  apply wp_require_bind _ fun _ => h₂
  intro hfirst
  apply wp_read_of_quiet rfl (hquiet _) h₂
  rw [hfound]
  apply wp_require_bind _ fun _ => h₂
  intro hagain
  -- Either there is a complete registration and it is replaced, or there is none.
  have hcase : replace = true ∧ complete (fs₂.tree (d ++ [registrationId])) ∨ replace = false := by
    cases replace with
    | false => exact .inr rfl
    | true =>
      refine .inl ⟨rfl, (hrecovered rfl).resolve_right ?_⟩
      rintro ⟨hnone, -⟩
      exact hagain ⟨by simp [hnone], rfl⟩
  apply wp_expect_done_bind _ fun _ => h₂
  intro nonce hnonce
  have htemporary : stagingName now.processId nonce ∈ workingNames now registrationId := by
    simp [workingNames, hnonce]
  have hapart' : stagingName now.processId nonce ≠ registrationId := by
    rintro rfl
    exact hapart (by simp [stagingNames, hnonce])
  have hfree := stagingName_ne_backupName now.processId nonce registrationId
  have htemporary' := ordinary_stagingName now.processId nonce
  generalize stagingName now.processId nonce = temporary at *
  have hstaged : ∀ {fs₃ fs₄}, Underway complete missing d (workingNames now registrationId)
      registrationId fs₁ fs₃ → Elsewhere d [temporary] fs₃ fs₄ →
        Underway complete missing d (workingNames now registrationId) registrationId fs₁ fs₄ := by
    intro fs₃ fs₄ h₃ hsame
    apply h₃.of_elsewhere hsame
    · simpa using htemporary
    · simpa using hapart'.symm
    · simpa using hfree.symm
  have hleads : ∀ {fs₃}, Underway complete missing d (workingNames now registrationId) registrationId fs₁
      fs₃ → Leads [temporary] p d fs₃ :=
    fun h₃ => (hp.after h₃.elsewhere).mono (by simpa using htemporary)
  apply wp_bind
  apply wp_makeDirectory (hp.after h₂.elsewhere) htemporary' h₂ h₂
  intro fs₃ hnode hnone
  have hsame₃ : Elsewhere d [temporary] fs₂ fs₃ := withNode_elsewhere hnode
  have h₃ := hstaged h₂ hsame₃
  apply wp_bind
  apply wp_attempt
  apply wp_bind
  apply wp_stage (hleads h₃) registration (tree_of_made hnode hnone)
  · exact fun fs₄ hsame₄ => hstaged h₃ hsame₄
  · intro e fs₄ hsame₄
    have h₄ := hstaged h₃ hsame₄
    apply wp_discard (hleads h₄) htemporary'
    · exact fun fs₅ hsame₅ => hstaged h₄ hsame₅
    · exact fun fs₅ hsame₅ => hstaged h₄ hsame₅
  intro fs₄ hsame₄ htree₄
  have h₄ := hstaged h₃ hsame₄
  have hnew₄ : complete (fs₄.tree (d ++ [temporary])) := htree₄ ▸ hnew
  have hactivated : wp device mayFail
      (Underway complete missing d (workingNames now registrationId) registrationId fs₁)
      (fun _ => Underway complete missing d (workingNames now registrationId) registrationId fs₁)
      (activate replace (p ++ [temporary]) (p ++ [registrationId])
        (p ++ [backupName registrationId])) fs₄ := by
    rcases hcase with ⟨rfl, hold⟩ | rfl
    · have hold₄ : complete (fs₄.tree (d ++ [registrationId])) := by
        rwa [(hsame₃.trans hsame₄).tree (by simpa using hapart'.symm)]
      have hunderway : ∀ fs', Recoverable complete d (workingNames now registrationId)
          registrationId fs₄ fs' → Underway complete missing d _ registrationId fs₁ fs' := fun fs' h' =>
        ⟨h₄.elsewhere.trans h'.elsewhere, .of_recoverable h' h₄.intact.links⟩
      exact wp_weaken (wp_activate_recoverable (hp.after h₄.elsewhere)
        (Intact.recoverable (.inl hold₄) _) hroot hold₄ hnew₄ hid hbackup htemporary hapart'
          hfree) hunderway fun _ => hunderway
    · exact wp_activate_first hp h₄ hnew₄ hid htemporary hfree
  apply wp_mono hactivated
  intro result fs₅ h₅
  cases result with
  | ok _ => exact h₅
  | error e =>
    apply wp_discard (hleads h₅) htemporary'
    · exact fun fs₆ hsame₆ => hstaged h₅ hsame₆
    · exact fun fs₆ hsame₆ => hstaged h₅ hsame₆

end

/-! ## Names of registrations -/

/-- An id that may be listed: working names all begin with a dot. -/
structure Plain (name : String) : Prop where
  ordinary : Ordinary name
  head : name.toList.head? ≠ some '.'

theorem head_backupName (registrationId : String) :
    (backupName registrationId).toList.head? = some '.' := by
  simp [backupName]

theorem head_stagingName (processId nonce : ℕ) :
    (stagingName processId nonce).toList.head? = some '.' := by
  simp [stagingName]

theorem backupName_injective {a b : String} (h : backupName a = backupName b) : a = b := by
  have hlist := congrArg String.toList h
  simp only [backupName, String.toList_append, List.append_cancel_left_eq] at hlist
  exact String.toList_inj.mp hlist

theorem Plain.not_mem_stagingNames {name : String} (h : Plain name) (now : Moment) :
    name ∉ stagingNames now := by
  intro hmem
  obtain ⟨nonce, -, rfl⟩ : ∃ nonce, now.sinceEpoch = some nonce ∧
      stagingName now.processId nonce = name := by
    simpa [stagingNames] using hmem
  exact h.head (head_stagingName now.processId nonce)

theorem Plain.apart {a b : String} (ha : Plain a) (hb : Plain b) (hne : a ≠ b) (now : Moment) :
    a ∉ workingNames now b ∧ backupName a ∉ workingNames now b := by
  constructor
  · intro hmem
    rcases List.mem_cons.mp hmem with hmem | hmem
    · exact hne hmem
    rcases List.mem_cons.mp hmem with rfl | hmem
    · exact ha.head (head_backupName b)
    · exact ha.not_mem_stagingNames now hmem
  · intro hmem
    rcases List.mem_cons.mp hmem with rfl | hmem
    · exact hb.head (head_backupName a)
    rcases List.mem_cons.mp hmem with hmem | hmem
    · exact hne (backupName_injective hmem)
    · obtain ⟨nonce, -, hname⟩ : ∃ nonce, now.sinceEpoch = some nonce ∧
          stagingName now.processId nonce = backupName a := by
        simpa using hmem
      exact stagingName_ne_backupName now.processId nonce a hname

theorem plain_of_listed {name : String} (h : listed name) : Plain name := by
  simp only [listed, safeId, Bool.and_eq_true, bne_iff_ne] at h
  obtain ⟨⟨⟨hne, -⟩, -⟩, hhead⟩ := h
  refine ⟨⟨hne, ?_, ?_⟩, hhead⟩
  · rintro rfl
    exact hhead rfl
  · rintro rfl
    exact hhead rfl

/-! ## Runs -/

section

variable [Codecs]

/-- The tree is what one of the registrations with the id is staged as. -/
def Complete (made : Set PreparedRegistration) (registrationId : String)
    (tree : Path → Option Node) : Prop :=
  ∃ registration ∈ made, registration.claims.registrationId = registrationId ∧
    tree = (registrationTable registration).node

theorem Complete.root {made : Set PreparedRegistration} {registrationId : String}
    {tree : Path → Option Node} (h : Complete made registrationId tree) :
    ∃ writable, tree [] = some (.directory writable) := by
  obtain ⟨registration, -, -, rfl⟩ := h
  use true
  unfold registrationTable
  cases registration.branding with
  | none => rfl
  | some branding =>
    cases hhero : branding.hero <;> simp [brandingTable, hhero, Table.node, emptyDirectory]

/-- The path leads to the registry, and every registration is intact. -/
structure RegistrySound (p d : Path) (made : Set PreparedRegistration) (missing : String → Prop)
    (fs : FileSystem) : Prop where
  reaches : ∀ names, Reaches names p d fs
  intact : ∀ registrationId, Plain registrationId →
    Intact (Complete made registrationId) (missing registrationId) d registrationId fs

variable {p d : Path} {made made' : Set PreparedRegistration} {missing : String → Prop}
  {fs fs₁ fs' : FileSystem} {names : List String} {registrationId : String} {now : Moment}

omit [Codecs] in
theorem reaches_mono {more : List String} (h : Reaches more p d fs) (hsub : names ⊆ more) :
    Reaches names p d fs :=
  h.imp_left fun hleads => hleads.mono hsub

theorem RegistrySound.mono (h : RegistrySound p d made missing fs) (hsub : made ⊆ made') :
    RegistrySound p d made' missing fs where
  reaches := h.reaches
  intact id hid := (h.intact id hid).mono fun _ ⟨registration, hmem, hrest⟩ =>
    ⟨registration, hsub hmem, hrest⟩

theorem RegistrySound.of_underway (h : RegistrySound p d made missing fs) (hplain : Plain registrationId)
    (hmade : MadeAbove d fs fs₁)
    (hunderway : Underway (Complete made registrationId) (missing registrationId) d
      (workingNames now registrationId) registrationId fs₁ fs') : RegistrySound p d made missing fs' where
  reaches names := by
    have hreaches := (h.reaches (names ++ workingNames now registrationId)).made hmade
    exact reaches_mono (hreaches.after (hunderway.elsewhere.mono (List.subset_append_right ..)))
      (List.subset_append_left ..)
  intact other hother := by
    by_cases hsame : other = registrationId
    · subst hsame
      exact hunderway.intact
    · obtain ⟨hid, hbackup⟩ := hother.apart hplain hsame now
      exact ((h.intact other hother).of_made hmade).of_elsewhere hunderway.elsewhere hid hbackup

variable [Crates]

/-- What the call verifies, if it verifies anything. -/
def Prepares (rules : Platform.PathRules) (args : InstallRegistrationArgs) (now : Moment)
    (fs : FileSystem) : Set PreparedRegistration :=
  {registration | eval device (prepareRegistration rules args now) fs = .ok registration}

/-- The registrations that have been prepared and the files, after any number of calls. Each call
may have any of its changes fail and may be cut off anywhere; in between anything may happen
outside of the registry. -/
inductive RegistryRuns (rules : Platform.PathRules) (p d : Path) (made₀ : Set PreparedRegistration)
    (fs₀ : FileSystem) : Set PreparedRegistration → FileSystem → Prop
  | start : RegistryRuns rules p d made₀ fs₀ made₀ fs₀
  | call {made : Set PreparedRegistration} {fs : FileSystem}
      (h : RegistryRuns rules p d made₀ fs₀ made fs) (args : InstallRegistrationArgs) (now : Moment)
      (mayFail : FsOp → Bool) (schedule : List Verdict) (hroot : args.registryRoot = p)
      (hreliable : ∀ op, mayFail op → ¬ device.reads op)
      (hplain : ∀ registration ∈ Prepares rules args now fs,
        Plain registration.claims.registrationId) :
      RegistryRuns rules p d made₀ fs₀ (made ∪ Prepares rules args now fs)
        (run device mayFail (installRegistration rules args now) schedule fs).state
  | outside {made : Set PreparedRegistration} {fs fs' : FileSystem}
      (h : RegistryRuns rules p d made₀ fs₀ made fs) (hkept : ∀ q, d <+: q → fs'.node q = fs.node q)
      (hreaches : ∀ names, Reaches names p d fs') : RegistryRuns rules p d made₀ fs₀ made fs'

variable {rules : Platform.PathRules} {made₀ : Set PreparedRegistration} {fs₀ fs₂ : FileSystem}

theorem RegistrySound.call (h : RegistrySound p d made missing fs) {args : InstallRegistrationArgs}
    {mayFail : FsOp → Bool} (schedule : List Verdict) (hroot : args.registryRoot = p)
    (hreliable : ∀ op, mayFail op → ¬ device.reads op)
    (hplain : ∀ registration ∈ Prepares rules args now fs,
      Plain registration.claims.registrationId) :
    RegistrySound p d (made ∪ Prepares rules args now fs) missing
      (run device mayFail (installRegistration rules args now) schedule fs).state := by
  have hstart : RegistrySound p d (made ∪ Prepares rules args now fs) missing fs :=
    h.mono Set.subset_union_left
  apply Outcome.Satisfies.state (I := RegistrySound p d (made ∪ Prepares rules args now fs) missing)
  apply wp_sound
  apply (cautious_prepareRegistration rules args now).wp_bind hstart
  · intro registration hprepared
    have hplain' := hplain registration hprepared
    have hnew : Complete (made ∪ Prepares rules args now fs) registration.claims.registrationId
        (registrationTable registration).node :=
      ⟨registration, .inr hprepared, rfl, rfl⟩
    subst hroot
    exact wp_weaken (wp_installPrepared_intact (hstart.reaches _) (hstart.intact _ hplain')
        (fun _ hcomplete => hcomplete.root) hnew hplain'.ordinary (hplain'.not_mem_stagingNames now)
        hreliable)
      (fun _ ⟨_, hmade, hunderway⟩ => hstart.of_underway hplain' hmade hunderway)
      fun _ _ ⟨_, hmade, hunderway⟩ => hstart.of_underway hplain' hmade hunderway
  · exact fun _ => hstart

theorem RegistrySound.runs (hstart : RegistrySound p d made₀ missing fs₀)
    (h : RegistryRuns rules p d made₀ fs₀ made fs) : RegistrySound p d made missing fs := by
  induction h with
  | start => exact hstart
  | call h args now mayFail schedule hroot hreliable hplain ih =>
    exact ih.call schedule hroot hreliable hplain
  | outside h hkept hreaches ih =>
    refine ⟨hreaches, fun registrationId hplain => (ih.intact registrationId hplain).congr ?_ ?_⟩
    · funext rest
      exact hkept _ ⟨registrationId :: rest, by simp⟩
    · funext rest
      exact hkept _ ⟨backupName registrationId :: rest, by simp⟩

/-- The registration is in its place or in its backup. -/
def Present (d : Path) (registrationId : String) (fs : FileSystem) : Prop :=
  (fs.node (d ++ [registrationId])).isSome ∨ (fs.node (d ++ [backupName registrationId])).isSome

omit [Crates] in
theorem registrySound_of_empty (hreaches : ∀ names, Reaches names p d fs)
    (hempty : ∀ name, fs.node (d ++ [name]) = none) :
    RegistrySound p d made (fun _ => True) fs := by
  refine ⟨hreaches, fun registrationId _ => ⟨.inr ⟨hempty _, .inr ⟨hempty _, trivial⟩⟩, ?_⟩⟩
  simp [hempty]

omit [Crates] in
/-- Only what is missing may be missing later. -/
theorem RegistrySound.present (h : RegistrySound p d made missing fs) :
    RegistrySound p d made (fun registrationId => ¬ Present d registrationId fs) fs where
  reaches := h.reaches
  intact registrationId hplain := by
    obtain ⟨hkept, hlinks⟩ := h.intact registrationId hplain
    refine ⟨hkept.imp_right ?_, hlinks⟩
    rintro ⟨hnone, hbackup | ⟨hbackup, -⟩⟩
    · exact ⟨hnone, .inl hbackup⟩
    · exact ⟨hnone, .inr ⟨hbackup, by simp [Present, hnone, hbackup]⟩⟩

omit [Crates] [Codecs] in
theorem not_directory_of_canonicalize (h : fs.canonicalize p = none) :
    ((fs.metadataAt p).any fun metadata => metadata.fileType = .directory) = false := by
  rw [FileSystem.metadataAt]
  cases hlocate : fs.locate p with
  | none => rfl
  | some q =>
    rw [Option.bind_some]
    cases hnode : fs.node q with
    | none => rfl
    | some n =>
      cases n with
      | file content mode => rfl
      | symlink absolute target => rfl
      | directory writable =>
        have hq := canonicalize_of_locate hlocate ⟨_, hnode, id⟩
        rw [h] at hq
        cases hq

omit [Crates] in
/-- In a sound registry those registrations are listed that are there, and all are complete. -/
theorem RegistrySound.mem_list_iff (h : RegistrySound p d made missing fs)
    (hlist : eval device (list p) fs = .ok names) : registrationId ∈ names ↔
      listed registrationId ∧ Complete made registrationId (fs.tree (d ++ [registrationId])) := by
  constructor
  · intro hmem
    have hname := listed_of_mem_list hlist hmem
    have hplain := plain_of_listed hname
    refine ⟨hname, (h.intact registrationId hplain).kept.resolve_right ?_⟩
    rintro ⟨hnone, -⟩
    have hmissing := (h.reaches []).canonicalize_eq_none hplain.ordinary hnone
    rw [eval_list_iff] at hlist
    split_ifs at hlist
    · obtain ⟨entries, -, rfl⟩ := hlist
      rw [(List.mergeSort_perm _ _).mem_iff, List.mem_filter, List.mem_filter] at hmem
      rw [not_directory_of_canonicalize hmissing] at hmem
      cases hmem.1.2
    · rw [hlist] at hmem
      cases hmem
  · rintro ⟨hname, hcomplete⟩
    obtain ⟨writable, hroot⟩ := hcomplete.root
    rw [FileSystem.tree, List.append_nil] at hroot
    have hdirectory : fs.Directory (d ++ [registrationId]) := directory_iff.mpr ⟨writable, hroot⟩
    have hleads := (h.reaches []).leads (fs.parent _ _ _ hroot)
    obtain ⟨names', hlist', hmem⟩ := exists_list hleads hdirectory hname
    obtain rfl := Except.ok.inj (hlist.symm.trans hlist')
    exact hmem

/-- Calls that began with an empty registry list those registrations that are there, each with all
that one of them has verified; and what has been there before is there, or in its backup. -/
theorem registry_runs {made₁ made₂ : Set PreparedRegistration}
    (hreaches : ∀ names, Reaches names p d fs₀) (hempty : ∀ name, fs₀.node (d ++ [name]) = none)
    (hbefore : RegistryRuns rules p d ∅ fs₀ made₁ fs₁)
    (hafter : RegistryRuns rules p d made₁ fs₁ made₂ fs₂) :
    (∀ names, eval device (list p) fs₂ = .ok names → ∀ registrationId, registrationId ∈ names ↔
      listed registrationId ∧ Complete made₂ registrationId (fs₂.tree (d ++ [registrationId]))) ∧
    ∀ registrationId, Plain registrationId → Present d registrationId fs₁ →
      Complete made₂ registrationId (fs₂.tree (d ++ [registrationId])) ∨
        fs₂.node (d ++ [registrationId]) = none ∧
          Complete made₂ registrationId (fs₂.tree (d ++ [backupName registrationId])) := by
  have hsound := ((registrySound_of_empty hreaches hempty).runs hbefore).present.runs hafter
  refine ⟨fun names hlist registrationId => hsound.mem_list_iff hlist, ?_⟩
  intro registrationId hplain hpresent
  apply (hsound.intact registrationId hplain).kept.imp_right
  rintro ⟨hnone, hbackup | ⟨-, hmissing⟩⟩
  · exact ⟨hnone, hbackup⟩
  · exact absurd hpresent hmissing

end

namespace SampleRegistry

/-- The registry is empty, and the beta registration is at hand. -/
def emptyRegistry : FileSystem :=
  FileSystem.ofTable
    [([], .directory true), (["game"], .directory true),
      (["game", "chess.bin"], .file [103, 97, 109, 101] 0o755), (["input"], .directory true),
      (["input", "registration.bin"], .file betaBytes 0o644),
      (["input", "trust-store.json"], .file trustBytes 0o644),
      (["input", "update-root.json"], .file updateBytes 0o644), (["registry"], .directory true)]
    (by decide) (by decide)

def registerArgs : InstallRegistrationArgs := { updateArgs with replace := false }

/-- The game has been registered. -/
def registeredOnce : FileSystem :=
  (run device (fun _ => false) (installRegistration Sample.unix registerArgs moment) []
    emptyRegistry).state

/-- Then an update has been cut off. -/
def cutOffUpdate : FileSystem :=
  (run device (fun _ => false) (installRegistration Sample.unix updateArgs moment)
    (List.replicate 38 .proceed ++ [.crash]) registeredOnce).state

theorem plain_of_prepares {args : InstallRegistrationArgs} {fs : FileSystem}
    (h : (eval device (prepareRegistration Sample.unix args moment) fs).map
      (fun registration => registration.claims.registrationId) = .ok "chess") :
    ∀ registration ∈ Prepares Sample.unix args moment fs,
      Plain registration.claims.registrationId := by
  intro registration hprepared
  rw [Prepares, Set.mem_ofPred_eq] at hprepared
  rw [hprepared] at h
  have hid : registration.claims.registrationId = "chess" := Except.ok.inj h
  rw [hid]
  exact ⟨by decide, by decide⟩

end SampleRegistry

open SampleRegistry in
theorem registry_runs_sample : ∃ made,
    RegistryRuns Sample.unix ["registry"] ["registry"] ∅ emptyRegistry made cutOffUpdate ∧
      Complete made "chess" (cutOffUpdate.tree ["registry", "chess"]) := by
  have hreliable : ∀ op, (fun _ => false : FsOp → Bool) op → ¬ device.reads op :=
    fun _ hfails => absurd hfails Bool.false_ne_true
  have hreaches : ∀ names, Reaches names ["registry"] ["registry"] emptyRegistry := by
    intro names
    have hreal : emptyRegistry.Real ["registry"] := ⟨_, rfl, id⟩
    apply reaches_of_linkFree names (by decide) hreal.linkFree
    intro hnil
    cases hnil
  have hempty : ∀ name, emptyRegistry.node (["registry"] ++ [name]) = none := by
    intro name
    simp [emptyRegistry, FileSystem.ofTable, FileSystem.node, Table.node]
  have hlist : eval device (list ["registry"]) cutOffUpdate = .ok ["chess"] := by decide +kernel
  have hstart : RegistryRuns Sample.unix ["registry"] ["registry"] ∅ emptyRegistry ∅
      emptyRegistry := .start
  have honce := hstart.call registerArgs moment _ [] rfl hreliable
    (plain_of_prepares (by decide +kernel))
  have hcut := honce.call updateArgs moment _ (List.replicate 38 .proceed ++ [.crash]) rfl hreliable
    (plain_of_prepares (by decide +kernel))
  refine ⟨_, hcut, ?_⟩
  exact (((registry_runs hreaches hempty hcut .start).1 _ hlist "chess").mp (by simp)).2

end CertaelAgent.Agent
