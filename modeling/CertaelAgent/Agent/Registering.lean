import CertaelAgent.Agent.Isolation

/-!
# What a call puts into the registry

A call that ends well has renamed its staging directory into the place of the registration. The
tree there is the one that was staged.
-/

namespace CertaelAgent.Agent

open ProtoWire Protocol Files Files.FileSystem Program Anyhow

section

variable {mayFail : FsOp → Bool} {p d : Path} {names : List String} {replace : Bool}
  {registrationId temporary : String} {fs fs' : FileSystem} {now : Moment}

/-- Activating that ends well moves the staging directory into its place. -/
theorem wp_activate_placed (hp : Leads names p d fs) (hid : registrationId ∈ names)
    (hbackup : backupName registrationId ∈ names) (htemporary : temporary ∈ names)
    (hapart : temporary ≠ registrationId) (hfree : temporary ≠ backupName registrationId) :
    wp device mayFail (fun _ => True)
      (outcome (fun _ fs' => Elsewhere d names fs fs' ∧
        fs'.tree (d ++ [registrationId]) = fs.tree (d ++ [temporary])) fun _ fs' =>
          Elsewhere d names fs fs')
      (activate replace (p ++ [temporary]) (p ++ [registrationId])
        (p ++ [backupName registrationId])) fs := by
  have hrefl := Elsewhere.refl d names fs
  unfold activate
  cases replace with
  | false =>
    simp only [Bool.false_eq_true, if_false]
    apply wp_ensure
    change wp device mayFail _ _ (.call (FsOp.rename _ _) fun renamed => .done (.ok renamed)) fs
    apply wp_rename_entry hp trivial
    · exact hrefl
    · intro fs₁ hrename
      have hmoved := moved_of_renameEntry hrename
      exact ⟨hmoved.elsewhere.mono (by simp [htemporary, hid]), hmoved.tree⟩
  | true =>
    simp only [if_true]
    apply wp_ensure_bind
    change wp device mayFail _ _ (.call (FsOp.rename _ _) fun renamed => .done (.ok renamed)) fs
    apply wp_rename_entry hp trivial
    · exact hrefl
    intro fs₁ hrename₁
    have haway := moved_of_renameEntry hrename₁
    have hsame₁ : Elsewhere d names fs fs₁ := haway.elsewhere.mono (by simp [hid, hbackup])
    simp only [wp_done, perform_bind]
    apply wp_rename_entry (hp.after hsame₁) trivial
    · apply wp_rename_entry (hp.after hsame₁) trivial
      · exact hsame₁
      · intro fs₂ hrename₂
        exact hsame₁.trans ((moved_of_renameEntry hrename₂).elsewhere.mono (by simp [hid, hbackup]))
    intro fs₂ hrename₂
    have hplaced := moved_of_renameEntry hrename₂
    have hsame₂ : Elsewhere d names fs fs₂ :=
      hsame₁.trans (hplaced.elsewhere.mono (by simp [htemporary, hid]))
    have hnew : fs₂.tree (d ++ [registrationId]) = fs.tree (d ++ [temporary]) := by
      rw [hplaced.tree]
      exact haway.elsewhere.tree (by simp [hapart, hfree])
    apply wp_ensure
    apply wp_removeTree ((hp.after hsame₂).mono (by simpa using hbackup))
      (ordinary_backupName registrationId)
    · exact fun _ _ => trivial
    · intro removed fs₃ hpruned _
      have hsame₃ : Elsewhere d names fs fs₃ :=
        hsame₂.trans (hpruned.elsewhere.mono (by simpa using hbackup))
      cases removed with
      | false => exact hsame₃
      | true =>
        refine ⟨hsame₃, ?_⟩
        rw [hpruned.elsewhere.tree (by simpa using (backupName_ne registrationId).symm), hnew]

variable [Codecs]

/-- What a call that ends well leaves in the registry. -/
structure Registered (p d : Path) (now : Moment) (registration : PreparedRegistration)
    (fs fs' : FileSystem) : Prop where
  leads : Leads (workingNames now registration.claims.registrationId) p d fs'
  elsewhere : ∃ fs₁, MadeAbove d fs fs₁ ∧
    Elsewhere d (workingNames now registration.claims.registrationId) fs₁ fs'
  tree : fs'.tree (d ++ [registration.claims.registrationId]) = (registrationTable registration).node

theorem wp_installPrepared_registered {registration : PreparedRegistration}
    (hroot : Reaches (workingNames now registration.claims.registrationId) p d fs)
    (hapart : registration.claims.registrationId ∉ stagingNames now) :
    wp device mayFail (fun _ => True)
      (outcome (fun claims fs' => claims = registration.claims ∧
        Registered p d now registration fs fs') fun _ _ => True)
      (installPrepared p replace now registration) fs := by
  have hreturn : ∀ {fs₁ fs'}, MadeAbove d fs fs₁ →
      Elsewhere d (workingNames now registration.claims.registrationId) fs₁ fs' →
      Leads (workingNames now registration.claims.registrationId) p d fs' →
      fs'.tree (d ++ [registration.claims.registrationId]) = (registrationTable registration).node →
        Registered p d now registration fs fs' :=
    fun hmade hsame hleads htree => ⟨hleads, ⟨_, hmade, hsame⟩, htree⟩
  generalize hregistration : registration.claims.registrationId = registrationId at *
  have hid : registrationId ∈ workingNames now registrationId := by simp [workingNames]
  have hbackup : backupName registrationId ∈ workingNames now registrationId := by
    simp [workingNames]
  unfold installPrepared
  simp only [hregistration]
  apply wp_ensure_bind
  apply wp_createDirAll hroot
  · exact fun _ _ => trivial
  rintro (_ | _) fs₁ hmade hleads
  · trivial
  have hp := hleads rfl
  dsimp only
  apply wp_bind
  apply wp_weaken (keeps_recoverRegistration hp hid hbackup) fun _ _ => trivial
  rintro (e | _) fs₂ hsame₂
  · trivial
  have hp₂ := hp.after hsame₂
  apply wp_read rfl trivial
  intro installed
  apply wp_require_bind _ fun _ => trivial
  intro _
  apply wp_read rfl trivial
  intro installed'
  apply wp_require_bind _ fun _ => trivial
  intro _
  apply wp_expect_done_bind _ fun _ => trivial
  intro nonce hnonce
  have htemporary : stagingName now.processId nonce ∈ workingNames now registrationId := by
    simp [workingNames, hnonce]
  have hapart' : stagingName now.processId nonce ≠ registrationId := by
    rintro rfl
    exact hapart (by simp [stagingNames, hnonce])
  have hfree := stagingName_ne_backupName now.processId nonce registrationId
  have htemporary' := ordinary_stagingName now.processId nonce
  generalize stagingName now.processId nonce = temporary at *
  apply wp_bind
  apply wp_makeDirectory hp₂ htemporary' trivial trivial
  intro fs₃ hnode hnone
  have hsub : [temporary] ⊆ workingNames now registrationId := by simpa using htemporary
  have hsame₃ := hsame₂.trans ((withNode_elsewhere hnode).mono hsub)
  have hp₃ := hp.after hsame₃
  apply wp_bind
  apply wp_attempt
  apply wp_bind
  apply wp_stage (hp₃.mono hsub) registration (tree_of_made hnode hnone)
  · exact fun _ _ => trivial
  · intro e fs₄ hsame₄
    apply wp_discard ((hp₃.after (hsame₄.mono hsub)).mono hsub) htemporary'
    · exact fun _ _ => trivial
    · exact fun _ _ => trivial
  intro fs₄ hsame₄ htree₄
  have hsame₄' := hsame₃.trans (hsame₄.mono hsub)
  apply wp_mono (wp_activate_placed (hp.after hsame₄') hid hbackup htemporary hapart' hfree)
  intro result fs₅ hactivated
  cases result with
  | ok _ =>
    obtain ⟨hsame₅, htree₅⟩ := hactivated
    have hsame := hsame₄'.trans hsame₅
    exact ⟨rfl, hreturn hmade hsame (hp.after hsame) (htree₅.trans htree₄)⟩
  | error e =>
    have hsame : Elsewhere d (workingNames now registrationId) fs₄ fs₅ := hactivated
    apply wp_discard (((hp.after hsame₄').after hsame).mono hsub) htemporary'
    · exact fun _ _ => trivial
    · exact fun _ _ => trivial

theorem wp_installPrepared_claims (registration : PreparedRegistration) :
    wp device mayFail (fun _ => True)
      (outcome (fun claims _ => claims = registration.claims) fun _ _ => True)
      (installPrepared p replace now registration) fs := by
  have hafter : ∀ {α : Type} {part : AgentProgram α}
      {next : α → AgentProgram GameRegistrationClaimsV1} {fs},
      (∀ a fs, wp device mayFail (fun _ => True)
        (outcome (fun claims _ => claims = registration.claims) fun _ _ => True) (next a) fs) →
      wp device mayFail (fun _ => True)
        (outcome (fun claims _ => claims = registration.claims) fun _ _ => True)
        (part >>= next) fs :=
    fun hnext => wp_any_bind (fun _ => trivial) hnext fun _ _ => trivial
  unfold installPrepared
  apply hafter
  intro _ _
  dsimp only
  apply hafter
  intro _ _
  apply hafter
  intro _ _
  apply hafter
  intro _ _
  apply hafter
  intro _ _
  apply hafter
  intro _ _
  apply hafter
  intro _ _
  apply hafter
  intro _ _
  apply hafter
  intro result _
  cases result with
  | ok _ => rfl
  | error e => exact hafter fun _ _ => trivial

end

end CertaelAgent.Agent
