import CertaelAgent.Agent.FailedCalls

/-!
# Registrations beside each other

A call works on the directory of its registration, on the backup of that directory and on its
staging directory, and all three are entries of the registry. Another registration is left alone,
however the call ends and wherever it is cut off, as long as its own directory is none of them.
A registration id may begin with a dot, so it may be the name of a backup, and then the directory
of one registration is taken for the old state of another one.
-/

namespace CertaelAgent.Agent

open ProtoWire Protocol Files Files.FileSystem Program

variable {fs fs' : FileSystem} {mayFail : FsOp → Bool} {p d : Path} {names : List String}
  {now : Moment} {registrationId other temporary : String}

/-- However the program ends or is cut off, nothing but the entries changes. -/
def Keeps {α : Type} (mayFail : FsOp → Bool) (d : Path) (names : List String)
    (program : AgentProgram α) (fs : FileSystem) : Prop :=
  wp device mayFail (Elsewhere d names fs) (fun _ => Elsewhere d names fs) program fs

namespace Keeps

variable {α β : Type} {program : AgentProgram α}

theorem after (h : Keeps mayFail d names program fs') (hsame : Elsewhere d names fs fs') :
    wp device mayFail (Elsewhere d names fs) (fun _ => Elsewhere d names fs) program fs' :=
  wp_weaken h (fun _ hnext => hsame.trans hnext) fun _ _ hnext => hsame.trans hnext

theorem done (result : Anyhow.Result α) : Keeps mayFail d names (.done result) fs :=
  Elsewhere.refl d names fs

theorem bind {f : α → AgentProgram β} (h : Keeps mayFail d names program fs)
    (hf : ∀ a fs', Elsewhere d names fs fs' → Keeps mayFail d names (f a) fs') :
    Keeps mayFail d names (program >>= f) fs := by
  apply wp_bind
  apply wp_mono h
  intro r fs' hsame
  cases r with
  | ok a => exact (hf a fs' hsame).after hsame
  | error e => exact hsame

theorem attempt (h : Keeps mayFail d names program fs) :
    Keeps mayFail d names (Program.attempt program) fs :=
  wp_attempt h

theorem require_bind {P : Prop} [Decidable P] {e : Anyhow.Error} {f : Unit → AgentProgram β}
    (h : Keeps mayFail d names (f ()) fs) : Keeps mayFail d names (require e P >>= f) fs :=
  wp_require_bind (fun _ => h) fun _ => .refl d names fs

theorem read_bind {op : FsOp} {f : op.Reply → AgentProgram β} (hreads : device.reads op)
    (h : ∀ reply, Keeps mayFail d names (f reply) fs) :
    Keeps mayFail d names (perform op >>= f) fs :=
  wp_read hreads (.refl d names fs) h

theorem ensure {program : AgentProgram Bool} {e : Anyhow.Error}
    (h : Keeps mayFail d names program fs) : Keeps mayFail d names (Program.ensure e program) fs := by
  apply h.bind
  intro succeeded fs' _
  cases succeeded <;> exact done _

end Keeps

/-! ## The steps of a call -/

theorem keeps_rename {source target : String} (hp : Leads names p d fs) (hsource : source ∈ names)
    (htarget : target ∈ names) :
    Keeps mayFail d names (rename (p ++ [source]) (p ++ [target]) : AgentProgram Bool) fs := by
  have hsame := Elsewhere.refl d names fs
  change wp device mayFail _ _ (.call (FsOp.rename _ _) fun renamed => .done (.ok renamed)) fs
  apply wp_rename_entry hp hsame
  · exact hsame
  intro fs' hrename
  apply (moved_of_renameEntry hrename).elsewhere.mono
  simp [hsource, htarget]

theorem keeps_removeTree {name : String} (hp : Leads names p d fs) (hname : name ∈ names)
    (hordinary : Ordinary name) :
    Keeps mayFail d names (removeTree (p ++ [name]) : AgentProgram Bool) fs := by
  have hsub : [name] ⊆ names := by simpa using hname
  apply wp_removeTree (hp.mono hsub) hordinary
  · exact fun fs' h => h.elsewhere.mono hsub
  · exact fun _ fs' h _ => h.elsewhere.mono hsub

theorem keeps_recoverRegistration (hp : Leads names p d fs) (hid : registrationId ∈ names)
    (hbackup : backupName registrationId ∈ names) :
    Keeps mayFail d names
      (recoverRegistration (p ++ [registrationId]) (p ++ [backupName registrationId])) fs := by
  unfold recoverRegistration
  apply Keeps.read_bind rfl
  intro installed
  apply Keeps.read_bind rfl
  intro interrupted
  cases installed with
  | false =>
    cases interrupted with
    | false => exact .done _
    | true => exact (keeps_rename hp hbackup hid).ensure
  | true =>
    cases interrupted with
    | false => exact .done _
    | true => exact (keeps_removeTree hp hbackup (ordinary_backupName _)).ensure

theorem keeps_activate (replace : Bool) (hp : Leads names p d fs) (hid : registrationId ∈ names)
    (hbackup : backupName registrationId ∈ names) (htemporary : temporary ∈ names) :
    Keeps mayFail d names (activate replace (p ++ [temporary]) (p ++ [registrationId])
      (p ++ [backupName registrationId])) fs := by
  unfold activate
  cases replace with
  | false => exact (keeps_rename hp htemporary hid).ensure
  | true =>
    apply (keeps_rename hp hid hbackup).ensure.bind
    intro _ fs₁ hsame₁
    apply (keeps_rename (hp.after hsame₁) htemporary hid).bind
    intro renamed fs₂ hsame₂
    have hp₂ := (hp.after hsame₁).after hsame₂
    cases renamed with
    | true => exact (keeps_removeTree hp₂ hbackup (ordinary_backupName _)).ensure
    | false => exact (keeps_rename hp₂ hbackup hid).bind fun _ _ _ => .done _

section

variable [Codecs]

theorem keeps_stage {registration : PreparedRegistration} (hp : Leads names p d fs)
    (htemporary : temporary ∈ names)
    (htree : fs.tree (d ++ [temporary]) = emptyDirectory.node) :
    Keeps mayFail d names (stage (p ++ [temporary]) registration) fs := by
  have hsub : [temporary] ⊆ names := by simpa using htemporary
  apply wp_stage (hp.mono hsub) registration htree
  · exact fun fs' h => h.mono hsub
  · exact fun _ fs' h => h.mono hsub
  · exact fun fs' h _ => h.mono hsub

/-- Behind the directories on the way to the registry, a call changes its three entries only. -/
theorem keeps_installPrepared (replace : Bool) {registration : PreparedRegistration}
    (hroot : Reaches (workingNames now registration.claims.registrationId) p d fs) :
    wp device mayFail
      (fun fs' => ∃ fs₁, MadeAbove d fs fs₁ ∧
        Elsewhere d (workingNames now registration.claims.registrationId) fs₁ fs')
      (fun _ fs' => ∃ fs₁, MadeAbove d fs fs₁ ∧
        Elsewhere d (workingNames now registration.claims.registrationId) fs₁ fs')
      (installPrepared p replace now registration) fs := by
  generalize hid : registration.claims.registrationId = registrationId at *
  unfold installPrepared
  simp only [hid]
  apply wp_ensure_bind
  apply wp_createDirAll hroot
  · exact fun fs₁ hmade => ⟨fs₁, hmade, .refl d _ fs₁⟩
  rintro (_ | _) fs₁ hmade hleads
  · exact ⟨fs₁, hmade, .refl d _ fs₁⟩
  have hp := hleads rfl
  apply wp_weaken (J := fun fs' => ∃ fs₁, MadeAbove d fs fs₁ ∧ Elsewhere d _ fs₁ fs') _
    (fun fs' hsame => ⟨fs₁, hmade, hsame⟩) fun _ fs' hsame => ⟨fs₁, hmade, hsame⟩
  have hmem : registrationId ∈ workingNames now registrationId := by simp [workingNames]
  have hbackup : backupName registrationId ∈ workingNames now registrationId := by
    simp [workingNames]
  apply Keeps.bind (keeps_recoverRegistration hp hmem hbackup)
  intro _ fs₂ hsame₂
  have hp₂ := hp.after hsame₂
  apply Keeps.read_bind rfl
  intro installed
  apply Keeps.require_bind
  apply Keeps.read_bind rfl
  intro installed'
  apply Keeps.require_bind
  cases hclock : now.sinceEpoch with
  | none => exact .done _
  | some nonce =>
    have htemporary : stagingName now.processId nonce ∈ workingNames now registrationId := by
      simp [workingNames, hclock]
    have hordinary := ordinary_stagingName now.processId nonce
    change Keeps mayFail d _ (makeDirectory _ (p ++ [stagingName now.processId nonce]) >>= _) fs₂
    generalize stagingName now.processId nonce = temporary at *
    apply wp_bind
    apply wp_makeDirectory hp₂ hordinary (.refl d _ fs₂) (.refl d _ fs₂)
    intro fs₃ hnode hnone
    have hsame₃ : Elsewhere d (workingNames now registrationId) fs₂ fs₃ :=
      (withNode_elsewhere hnode).mono (by simpa using htemporary)
    have hp₃ := hp₂.after hsame₃
    apply Keeps.after _ hsame₃
    apply Keeps.bind
    · apply Keeps.attempt
      apply (keeps_stage hp₃ htemporary (tree_of_made hnode hnone)).bind
      intro _ fs₄ hsame₄
      exact keeps_activate replace (hp₃.after hsame₄) hmem hbackup htemporary
    · intro result fs₄ hsame₄
      cases result with
      | ok _ => exact .done _
      | error e =>
        apply (keeps_removeTree (hp₃.after hsame₄) htemporary hordinary).bind
        exact fun _ _ _ => .done _

/-! ## Two registrations -/

omit [Codecs] in
/-- Where the directory of a registration is, by its id. -/
def registrationDirectory (d : Path) (registrationId : String) : Path :=
  if registrationId = "." then d
  else if registrationId = ".." then d.dropLast
  else d ++ [registrationId]

variable [Crates]

/-- A call for one registration and the directory of another one: its tree stays as it is, and so
does everything outside the registry, apart from the directories that are made on the way there;
what the call sets aside is not put into it. -/
structure Isolated (rules : Platform.PathRules) (args : InstallRegistrationArgs) (now : Moment)
    (mayFail : FsOp → Bool) (d : Path) (registrationId other : String) (fs : FileSystem) : Prop where
  kept : ∀ schedule q, registrationDirectory d other <+: q →
    (run device mayFail (installRegistration rules args now) schedule fs).state.node q = fs.node q
  outside : ∀ schedule q, ¬ d <+: q →
    (run device mayFail (installRegistration rules args now) schedule fs).state.node q = fs.node q ∨
      q <+: d ∧ fs.node q = none ∧
        (run device mayFail (installRegistration rules args now) schedule fs).state.node q =
          some (.directory true)
  apart : ∀ name ∈ backupName registrationId :: stagingNames now,
    ¬ registrationDirectory d other <+: d ++ [name]

variable (mayFail) in
theorem installRegistration_keeps {rules : Platform.PathRules} {args : InstallRegistrationArgs}
    (hroot : ∀ names, Reaches names args.registryRoot d fs)
    (hcall : ∀ registration, eval device (prepareRegistration rules args now) fs = .ok registration →
      registration.claims.registrationId = registrationId) (schedule : List Verdict) :
    ∃ fs₁, MadeAbove d fs fs₁ ∧ Elsewhere d (workingNames now registrationId) fs₁
      (run device mayFail (installRegistration rules args now) schedule fs).state := by
  have hstart : ∃ fs₁, MadeAbove d fs fs₁ ∧ Elsewhere d (workingNames now registrationId) fs₁ fs :=
    ⟨fs, .refl d fs, .refl d _ fs⟩
  apply Outcome.Satisfies.state (I := fun fs' => ∃ fs₁, MadeAbove d fs fs₁ ∧
    Elsewhere d (workingNames now registrationId) fs₁ fs')
  apply wp_sound
  apply (cautious_prepareRegistration rules args now).wp_bind hstart
  · intro registration hprepared
    obtain rfl := hcall registration hprepared
    exact keeps_installPrepared args.replace (hroot _)
  · exact fun _ => hstart

/-- One registration is isolated from the calls for another one if its directory is no other name
for the registry and no entry that such a call sets aside. -/
theorem isolated_iff {rules : Platform.PathRules} {args : InstallRegistrationArgs}
    (hroot : ∀ names, Reaches names args.registryRoot d fs)
    (hcall : ∀ registration, eval device (prepareRegistration rules args now) fs = .ok registration →
      registration.claims.registrationId = registrationId)
    (hother : identifier other) (hne : other ≠ registrationId) :
    Isolated rules args now mayFail d registrationId other fs ↔
      other ≠ "." ∧ other ≠ ".." ∧ other ∉ backupName registrationId :: stagingNames now := by
  constructor
  · rintro ⟨-, -, hapart⟩
    have hbackup := hapart _ (List.mem_cons_self ..)
    refine ⟨?_, ?_, ?_⟩
    · rintro rfl
      exact hbackup (List.prefix_append d _)
    · rintro rfl
      exact hbackup ((List.dropLast_prefix d).trans (List.prefix_append d _))
    · intro hmem
      apply hapart other hmem
      unfold registrationDirectory
      split_ifs
      · exact List.prefix_append d _
      · exact (List.dropLast_prefix d).trans (List.prefix_append d _)
      · exact List.prefix_refl _
  · rintro ⟨hself, hup, hfree⟩
    have hdirectory : registrationDirectory d other = d ++ [other] := by
      rw [registrationDirectory, if_neg hself, if_neg hup]
    have hworking : other ∉ workingNames now registrationId := by
      intro hmem
      rcases List.mem_cons.mp hmem with hsame | hmem
      · exact hne hsame
      · exact hfree hmem
    constructor
    · rintro schedule q hq
      rw [hdirectory] at hq
      obtain ⟨rest, rfl⟩ := hq
      obtain ⟨fs₁, hmade, hsame⟩ := installRegistration_keeps mayFail hroot hcall schedule
      exact (congrFun (hsame.tree hworking) rest).trans (congrFun (hmade.tree other) rest)
    · intro schedule q hq
      obtain ⟨fs₁, hmade, hsame⟩ := installRegistration_keeps mayFail hroot hcall schedule
      rw [hsame.outside hq]
      exact hmade q
    · intro name hname hcut
      rw [hdirectory, List.prefix_append_right_inj, List.cons_prefix_cons] at hcut
      exact hfree (hcut.1 ▸ hname)

end

open SampleRegistry in
theorem isolated_sample : Isolated Sample.unix updateArgs moment (fun _ => true) ["registry"]
    "chess" "checkers" registry := by
  apply (isolated_iff reaches_registry (fun _ => registrationId_of_prepared) (by decide)
    (by decide)).mpr
  decide +kernel

namespace SampleRegistry

/-- Another game is registered under the name of a backup. -/
def neighbours : FileSystem :=
  FileSystem.ofTable
    ((["registry", ".backup-chess", "registration.json"], .file [] 0o644) ::
      (["registry", ".backup-chess"], .directory true) :: registry.table)
    (by decide) (by decide)

end SampleRegistry

open SampleRegistry in
/-- An update takes the directory of the other game for the old state of its own one. -/
theorem not_isolated : ¬ ∀ other, identifier other → other ≠ "chess" →
    Isolated Sample.unix updateArgs moment (fun _ => false) ["registry"] "chess" other
      neighbours := by
  intro h
  have hkept := (h ".backup-chess" (by decide) (by decide)).kept []
    ["registry", ".backup-chess", "registration.json"] ⟨["registration.json"], rfl⟩
  rw [run_nil] at hkept
  have hbefore : (neighbours.node ["registry", ".backup-chess", "registration.json"]).isSome := rfl
  have hafter : (exec device (installRegistration Sample.unix updateArgs moment) neighbours).2.node
      ["registry", ".backup-chess", "registration.json"] = none := by decide +kernel
  rw [← hkept] at hbefore
  exact absurd hbefore (by rw [Outcome.state, hafter]; simp)

end CertaelAgent.Agent
