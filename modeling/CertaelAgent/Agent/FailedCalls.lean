import CertaelAgent.Agent.Activation
import CertaelAgent.Foundation.Avoidance
import CertaelAgent.Foundation.Deletion
import CertaelAgent.Foundation.Hex
import Mathlib.Logic.Encodable.Basic
import Mathlib.Logic.Equiv.List

/-!
# Calls that fail

A call that cannot register or update a game returns an error. Up to the renames nothing but the
staging directory has changed, a second rename that fails is undone, and then the registration is
loaded as before. What is not undone is an update whose old registration cannot be removed.
-/

namespace CertaelAgent.Agent

open ProtoWire Protocol Files Files.FileSystem Program

/-- The staging directory of a call. -/
def stagingNames (now : Moment) : List String :=
  (now.sinceEpoch.map (stagingName now.processId)).toList

/-- An update of the registration can be undone: it has no backup, its directory is not the
staging directory, and the rename back does not fail. -/
structure Undoable (mayFail : FsOp → Bool) (replace : Bool) (p d : Path) (now : Moment)
    (registrationId : String) (fs : FileSystem) : Prop where
  apart : registrationId ∉ stagingNames now
  settled : fs.node (d ++ [backupName registrationId]) = none
  undo : replace = true → ¬ mayFail (.rename (p ++ [backupName registrationId]) (p ++ [registrationId]))

/-- The old registration can be removed. -/
structure Retirable (mayFail : FsOp → Bool) (p : Path) (registrationId : String)
    (tree : Path → Option Node) : Prop where
  quiet : ∀ op, op.Removing (p ++ [backupName registrationId]) → ¬ mayFail op
  noFile : ∀ content mode, tree [] ≠ some (.file content mode)
  deletable : Deletable maxDepth tree

/-! ## Reading the arguments -/

section

variable [Codecs] [Crates]

omit [Codecs] [Crates] in
theorem cautious_resolveGame (rules : Platform.PathRules) (gameRoot : Path)
    (claims : GameRegistrationClaimsV1) (missing unsafe' : Anyhow.Error) :
    Cautious device (resolveGame rules gameRoot claims missing unsafe') := by
  apply (cautious_canonicalize _ _).bind
  intro game
  change Cautious device (symlinkMetadata game >>= fun metadata =>
    require unsafe' (gameRoot <+: game ∧
      (metadata.any fun metadata => decide (metadata.fileType = .file)) = true) >>= fun _ =>
    done (.ok game))
  exact Cautious.checked rfl (fun h => Bool.false_ne_true h.2) trivial

theorem cautious_prepareBranding (rules : Platform.PathRules) (args : InstallRegistrationArgs)
    (keys : VerificationKeyRing) (claims : GameRegistrationClaimsV1) (nowUnix : Int64) :
    Cautious device (prepareBranding rules args keys claims nowUnix) := by
  unfold prepareBranding
  cases args.brandingManifest with
  | none => cases args.brandingRoot <;> trivial
  | some manifest =>
    cases args.brandingRoot with
    | none => trivial
    | some root => exact (cautious_verifyInstall rules manifest root keys _ _ _).bind fun _ => trivial

/-- Whatever fails, what has been prepared is what is prepared undisturbed. -/
theorem cautious_prepareRegistration (rules : Platform.PathRules) (args : InstallRegistrationArgs)
    (now : Moment) : Cautious device (prepareRegistration rules args now) := by
  have hdone : ∀ {α : Type} (result : Anyhow.Result α),
      Cautious device (done result : AgentProgram α) := fun _ => trivial
  apply (cautious_withContext (cautious_readRegular _ _)).bind
  intro registrationBytes
  apply (hdone _).bind
  intro signed
  apply (cautious_loadTrustStore _).bind
  intro keys
  apply (hdone _).bind
  intro nowUnix
  apply (hdone _).bind
  intro claims
  apply (cautious_withContext (cautious_readRegular _ _)).bind
  intro trustBytes
  apply (cautious_withContext (cautious_readRegular _ _)).bind
  intro updateBytes
  apply (Cautious.require _ _).bind
  intro _
  apply (cautious_canonicalize _ _).bind
  intro gameRoot
  apply Cautious.checked rfl Bool.false_ne_true
  apply (cautious_resolveGame rules gameRoot _ _ _).bind
  intro game
  exact (cautious_prepareBranding rules args keys _ _).bind fun _ => trivial

end

/-! ## The swap -/

section

variable {fs : FileSystem} {mayFail : FsOp → Bool} {p d : Path} {now : Moment} {replace : Bool}
  {registrationId temporary : String}

/-- After a call that fails only its staging directory has changed, or the old registration could
not be removed and the new one is in its place. -/
def Reverted (mayFail : FsOp → Bool) (replace : Bool) (p d : Path) (registrationId : String)
    (names : List String) (tree : Path → Option Node) (fs fs' : FileSystem) : Prop :=
  Elsewhere d names fs fs' ∨ (replace = true ∧
    ¬ Retirable mayFail p registrationId (fs.tree (d ++ [registrationId])) ∧
    fs'.tree (d ++ [registrationId]) = tree)

theorem wp_activate {Q : Except Anyhow.Error Unit → FileSystem → Prop}
    (hp : Leads [registrationId, backupName registrationId, temporary] p d fs)
    (hapart : temporary ≠ registrationId) (hbackup : temporary ≠ backupName registrationId)
    (hsettled : fs.node (d ++ [backupName registrationId]) = none)
    (hundo : replace = true →
      ¬ mayFail (.rename (p ++ [backupName registrationId]) (p ++ [registrationId])))
    (hok : ∀ fs', Q (.ok ()) fs')
    (herror : ∀ e fs', Elsewhere d [registrationId, backupName registrationId, temporary] fs fs' →
      Reverted mayFail replace p d registrationId [temporary] (fs.tree (d ++ [temporary])) fs fs' →
      Q (.error e) fs') :
    wp device mayFail (fun _ => True) Q (activate replace (p ++ [temporary])
      (p ++ [registrationId]) (p ++ [backupName registrationId])) fs := by
  have hne := backupName_ne registrationId
  have hstart : ∀ e, Q (.error e) fs := fun e => herror e fs (.refl _ _ fs) (.inl (.refl _ _ fs))
  unfold activate
  cases replace with
  | false =>
    simp only [Bool.false_eq_true, if_false]
    apply wp_ensure
    change wp device mayFail _ _ (.call (FsOp.rename _ _) fun renamed => done (.ok renamed)) fs
    apply wp_rename_entry hp trivial
    · exact hstart _
    · exact fun fs' _ => hok fs'
  | true =>
    simp only [if_true]
    apply wp_ensure_bind
    change wp device mayFail _ _ (.call (FsOp.rename _ _) fun renamed => done (.ok renamed)) fs
    apply wp_rename_entry hp trivial
    · exact hstart _
    intro fs₁ hrename₁
    have haway := moved_of_renameEntry hrename₁
    obtain ⟨hwritable, hsome, hordinary, -⟩ := writable_of_renameEntry hne.symm hrename₁
    have hsame₁ : Elsewhere d [registrationId, backupName registrationId, temporary] fs fs₁ :=
      haway.elsewhere.mono (by simp)
    have hp₁ := hp.after hsame₁
    have hwritable₁ : fs₁.Writable d := (hsame₁.node_self).trans hwritable
    have hkept : fs₁.tree (d ++ [backupName registrationId]) = fs.tree (d ++ [registrationId]) :=
      haway.tree
    have hnode₁ : fs₁.node (d ++ [backupName registrationId]) = fs.node (d ++ [registrationId]) := by
      simpa [FileSystem.tree] using congrFun hkept []
    simp only [wp_done, perform_bind]
    apply wp_rename_entry hp₁ trivial
    · -- The second rename has failed, so the first one is undone.
      simp only [Bool.false_eq_true, if_false]
      apply wp_rename_vacant hp₁ hwritable₁ (hnode₁ ▸ hsome) hordinary _ (hundo rfl) trivial
      · intro fs₂ hback
        have hundone : ∀ q, fs₂.node q = fs.node q := haway.undo hback hne.symm hsettled
        apply herror
        · exact fun q _ => hundone q
        · exact .inl fun q _ => hundone q
      · simpa [FileSystem.tree] using congrFun (haway.gone hne.symm) []
    · intro fs₂ hrename₂
      have hplaced := moved_of_renameEntry hrename₂
      have hsame₂ : Elsewhere d [registrationId, backupName registrationId, temporary] fs fs₂ :=
        hsame₁.trans (hplaced.elsewhere.mono (by simp))
      have hp₂ : Leads [backupName registrationId] p d fs₂ := (hp.after hsame₂).mono (by simp)
      have hold : fs₂.tree (d ++ [backupName registrationId]) = fs.tree (d ++ [registrationId]) := by
        rw [← hkept]
        exact hplaced.elsewhere.tree (by simp [hbackup.symm, hne])
      have hnew : fs₂.tree (d ++ [registrationId]) = fs.tree (d ++ [temporary]) := by
        rw [hplaced.tree]
        exact haway.elsewhere.tree (by simp [hapart, hbackup])
      apply wp_ensure
      by_cases hretire : Retirable mayFail p registrationId (fs.tree (d ++ [registrationId]))
      · have hroot : fs₂.node (d ++ [backupName registrationId]) =
            fs.tree (d ++ [registrationId]) [] := by
          rw [← hold, FileSystem.tree, List.append_nil]
        apply wp_removeTree_all hp₂ _ _ _ (hold ▸ hretire.deletable) hretire.quiet
        · exact fun _ _ => trivial
        · exact fun fs₃ _ _ => hok fs₃
        · exact hsame₂.node_self.trans hwritable
        · rw [hroot, FileSystem.tree, List.append_nil]
          exact hsome
        · rw [hroot]
          exact hretire.noFile
      · apply wp_removeTree hp₂ (ordinary_backupName registrationId)
        · exact fun _ _ => trivial
        · intro removed fs₃ hpruned _
          cases removed with
          | true => exact hok fs₃
          | false =>
            apply herror
            · exact hsame₂.trans (hpruned.elsewhere.mono (by simp))
            · refine .inr ⟨rfl, hretire, ?_⟩
              rw [← hnew]
              exact hpruned.elsewhere.tree (by simp [hne.symm])

theorem wp_recoverRegistration_settled {names : List String} {I : FileSystem → Prop}
    {Q : Except Anyhow.Error Unit → FileSystem → Prop} (hp : Leads names p d fs)
    (hsettled : fs.node (d ++ [backupName registrationId]) = none) (hI : I fs)
    (hok : Q (.ok ()) fs) : wp device mayFail I Q
      (recoverRegistration (p ++ [registrationId]) (p ++ [backupName registrationId])) fs := by
  unfold recoverRegistration
  apply wp_read (show device.reads (.pathExists _) from rfl) hI
  intro installed
  have hnone : fs.canonicalize (p ++ [backupName registrationId]) = none := by
    rw [hp.canonicalize_entry (ordinary_backupName registrationId) (by simp [hsettled]), hsettled]
    rfl
  have hreply : device.perform (FsOp.pathExists (p ++ [backupName registrationId])) fs =
      (false, fs) := by
    simp only [device, FsOp.perform, hnone, Option.isSome_none]
  refine ⟨hI, ?_, fun _ => ?_⟩
  · rw [hreply]
    cases installed <;> exact hok
  · cases installed <;> exact hok

theorem wp_discard {α : Type} {I : FileSystem → Prop} {Q : Except Anyhow.Error α → FileSystem → Prop}
    {e : Anyhow.Error} (hp : Leads [temporary] p d fs) (hordinary : Ordinary temporary)
    (hI : ∀ fs', Elsewhere d [temporary] fs fs' → I fs')
    (herror : ∀ fs', Elsewhere d [temporary] fs fs' → Q (.error e) fs') :
    wp device mayFail I Q (removeTree (p ++ [temporary]) >>= fun _ => fail e) fs := by
  apply wp_bind
  apply wp_removeTree hp hordinary
  · exact fun fs' h => hI fs' h.elsewhere
  · exact fun _ fs' h _ => herror fs' h.elsewhere

theorem Reverted.discard {names : List String} {tree : Path → Option Node} {fs' fs'' : FileSystem}
    (h : Reverted mayFail replace p d registrationId names tree fs fs')
    (h' : Elsewhere d names fs' fs'') (hapart : registrationId ∉ names) :
    Reverted mayFail replace p d registrationId names tree fs fs'' := by
  rcases h with hsame | ⟨hreplace, hretire, hnew⟩
  · exact .inl (hsame.trans h')
  · exact .inr ⟨hreplace, hretire, (h'.tree hapart).trans hnew⟩

variable [Codecs]

/-- What a failed call has left behind; directories may have been made on the way to the
registry. -/
theorem wp_installPrepared {Q : Except Anyhow.Error GameRegistrationClaimsV1 → FileSystem → Prop}
    {registration : PreparedRegistration} (hroot : ∀ names, Reaches names p d fs)
    (hundoable : Undoable mayFail replace p d now registration.claims.registrationId fs)
    (hok : ∀ claims fs', Q (.ok claims) fs')
    (herror : ∀ e fs₁ fs', MadeAbove d fs fs₁ →
      Reverted mayFail replace p d registration.claims.registrationId (stagingNames now)
        (registrationTable registration).node fs₁ fs' → Q (.error e) fs') :
    wp device mayFail (fun _ => True) Q (installPrepared p replace now registration) fs := by
  obtain ⟨hapart, hsettled, hundo⟩ := hundoable
  generalize hid : registration.claims.registrationId = registrationId at *
  unfold installPrepared
  simp only [hid]
  apply wp_ensure_bind
  apply wp_createDirAll (hroot (workingNames now registrationId))
  · exact fun _ _ => trivial
  rintro (_ | _) fs₁ hmade hleads
  · exact herror _ fs₁ fs₁ hmade (.inl (.refl _ _ fs₁))
  have hp := hleads rfl
  have hsettled₁ : fs₁.node (d ++ [backupName registrationId]) = none := by
    rw [hmade.below (not_prefix_parent d _), hsettled]
  have hstart : ∀ e, Q (.error e) fs₁ := fun e => herror e fs₁ fs₁ hmade (.inl (.refl _ _ fs₁))
  dsimp only
  apply wp_bind
  apply wp_recoverRegistration_settled hp hsettled₁ trivial
  apply wp_read (show device.reads (.pathExists _) from rfl) trivial
  intro installed
  apply wp_require_bind _ fun _ => hstart _
  intro _
  apply wp_read (show device.reads (.pathExists _) from rfl) trivial
  intro installed'
  apply wp_require_bind _ fun _ => hstart _
  intro _
  apply wp_expect_done_bind _ fun _ => hstart _
  intro nonce hnonce
  have hstaging : stagingNames now = [stagingName now.processId nonce] := by
    rw [stagingNames, hnonce]
    rfl
  have hworking : workingNames now registrationId =
      [registrationId, backupName registrationId, stagingName now.processId nonce] := by
    rw [workingNames, hnonce]
    rfl
  rw [hworking] at hp
  rw [hstaging] at hapart herror
  have hordinary := ordinary_stagingName now.processId nonce
  have hbackup := stagingName_ne_backupName now.processId nonce registrationId
  generalize stagingName now.processId nonce = temporary at *
  apply wp_bind
  apply wp_makeDirectory hp hordinary trivial (hstart _)
  intro fs₂ hnode hnone
  have hsame₂ : Elsewhere d [temporary] fs₁ fs₂ := withNode_elsewhere hnode
  have hp₂ := hp.after (hsame₂.mono (by simp))
  apply wp_bind
  apply wp_attempt
  apply wp_bind
  apply wp_stage (hp₂.mono (by simp)) registration (tree_of_made hnode hnone)
  · exact fun _ _ => trivial
  · intro e fs₃ hsame₃
    apply wp_discard ((hp₂.after (hsame₃.mono (by simp))).mono (by simp)) hordinary
    · exact fun _ _ => trivial
    · intro fs₄ hsame₄
      exact herror e fs₁ fs₄ hmade (.inl ((hsame₂.trans hsame₃).trans hsame₄))
  intro fs₃ hsame₃ htree₃
  have hsame : Elsewhere d [temporary] fs₁ fs₃ := hsame₂.trans hsame₃
  have hp₃ := hp₂.after (hsame₃.mono (by simp))
  rw [List.mem_singleton] at hapart
  apply wp_activate hp₃ (Ne.symm hapart) hbackup _ hundo
  · exact fun fs₄ => hok _ fs₄
  · intro e fs₄ hsame₄ hreverted
    apply wp_discard ((hp₃.after hsame₄).mono (by simp)) hordinary
    · exact fun _ _ => trivial
    intro fs₅ hsame₅
    apply herror e fs₁ fs₅ hmade
    rw [htree₃] at hreverted
    apply Reverted.discard _ hsame₅ (by simpa using hapart)
    rcases hreverted with hback | hnew
    · exact .inl (hsame.trans hback)
    · rw [hsame.tree (by simpa using hapart)] at hnew
      exact .inr hnew
  · rw [hsame.node (by simpa using hbackup.symm), hsettled₁]

end

/-! ## What is loaded afterwards -/

section

variable [Codecs] [Crates] {rules : Platform.PathRules} {args : InstallRegistrationArgs}
  {fs fs₁ fs' : FileSystem} {mayFail : FsOp → Bool} {p d : Path} {now later : Moment} {name : String}
  {stateHome : Option Path} {names : List String}

theorem eval_load_of_missing
    (h : fs.metadataAt (p ++ [name] ++ ["registration.json"]) = none) :
    eval device (load rules stateHome p name later) fs =
      (Except.require (.message "invalid game registration ID") (safeId name) >>= fun _ =>
        .error (.context "registered game metadata is unavailable" .io)) := by
  have hread : eval device (readRegular (p ++ [name] ++ ["registration.json"])
      MAX_REGISTRATION_BYTES) fs = .error .io := by
    unfold readRegular
    rw [(cautious_symlinkMetadata _ _).readOnly.eval_bind, eval_symlinkMetadata]
    rw [FileSystem.metadataAt] at h
    rw [h]
    rfl
  have hcontext : eval device (withContext "registered game metadata is unavailable"
      (readRegular (p ++ [name] ++ ["registration.json"]) MAX_REGISTRATION_BYTES)) fs =
        .error (.context "registered game metadata is unavailable" .io) := by
    unfold withContext
    rw [(readOnly_readRegular _ _).attempt.eval_bind, eval_attempt, hread]
    rfl
  unfold load
  rw [(Cautious.require _ _).readOnly.eval_bind, eval_require]
  congr 1
  funext _
  dsimp only
  rw [(readOnly_withContext (readOnly_readRegular _ _)).eval_bind, hcontext]
  rfl

omit [Codecs] [Crates] in
theorem metadataAt_of_missing (hroot : Reaches names p d fs) (hname : Ordinary name)
    (hnone : fs.node (d ++ [name]) = none) {file : String} (hfile : Ordinary file) :
    fs.metadataAt (p ++ [name] ++ [file]) = none := by
  have hlocate : fs.locate (p ++ [name] ++ [file]) = none := by
    simp only [locate, place, List.getLast?_concat, List.dropLast_concat, hfile, if_true,
      hroot.canonicalize_eq_none hname hnone, Option.bind_none]
  rw [FileSystem.metadataAt, hlocate]
  rfl

/-- What becomes of the staging directory is not noticed by those who do not come across it. -/
theorem eval_load_kept (hroot : Reaches names p d fs) (hmade : MadeAbove d fs fs₁)
    (hsame : Elsewhere d names fs₁ fs') (hname : Ordinary name) (hapart : name ∉ names)
    (hlook : fs.node (d ++ [name]) = none ∨
      fs.LinksAvoid names ∧ Overlooks names (load rules stateHome p name later) fs) :
    eval device (load rules stateHome p name later) fs' =
      eval device (load rules stateHome p name later) fs := by
  have hjson : Ordinary "registration.json" := by decide
  have hbelow : fs₁.node (d ++ [name]) = fs.node (d ++ [name]) :=
    hmade.below (not_prefix_parent d name)
  by_cases hnone : fs.node (d ++ [name]) = none
  · have hnone' : fs'.node (d ++ [name]) = none := by rw [hsame.node hapart, hbelow, hnone]
    rw [eval_load_of_missing (metadataAt_of_missing hroot hname hnone hjson),
      eval_load_of_missing
        (metadataAt_of_missing ((hroot.made hmade).after hsame) hname hnone' hjson)]
  · obtain ⟨hlinks, hprogram⟩ := hlook.resolve_left hnone
    obtain ⟨n, hn⟩ := Option.ne_none_iff_exists'.mp hnone
    obtain ⟨writable, hd⟩ := directory_iff.mp (fs.parent d name n hn)
    apply eval_of_overlooks hlinks _ hprogram
    intro q hq
    rw [hsame.node_of_avoids hq, hmade.node_of_isSome (by simp [hd])]

/-- A failed call leaves every registration as it was, and it is loaded as before, if the rename
back does not fail and an old registration could be removed. -/
theorem registration_kept (hroot : ∀ names, Reaches names args.registryRoot d fs)
    (hundoable : ∀ registration,
      eval device (prepareRegistration rules args now) fs = .ok registration →
        Undoable mayFail args.replace args.registryRoot d now registration.claims.registrationId fs)
    (hretirable : args.replace = true → ∀ registration,
      eval device (prepareRegistration rules args now) fs = .ok registration →
        Retirable mayFail args.registryRoot registration.claims.registrationId
          (fs.tree (d ++ [registration.claims.registrationId])))
    {schedule : List Verdict} {e : Anyhow.Error}
    (hrun : run device mayFail (installRegistration rules args now) schedule fs =
      .finished (.error e) fs') :
    (∀ name ∉ stagingNames now, fs'.tree (d ++ [name]) = fs.tree (d ++ [name])) ∧
      ∀ stateHome name later, Ordinary name → name ∉ stagingNames now →
        (fs.node (d ++ [name]) = none ∨ fs.LinksAvoid (stagingNames now) ∧
          Overlooks (stagingNames now) (load rules stateHome args.registryRoot name later) fs) →
        eval device (load rules stateHome args.registryRoot name later) fs' =
          eval device (load rules stateHome args.registryRoot name later) fs := by
  have hwp : wp device mayFail (fun _ => True) (fun r fs' => ∀ e, r = .error e →
      ∃ fs₁, MadeAbove d fs fs₁ ∧ Elsewhere d (stagingNames now) fs₁ fs')
      (installRegistration rules args now) fs := by
    apply (cautious_prepareRegistration rules args now).wp_bind trivial
    · intro registration hprepared
      apply wp_installPrepared hroot (hundoable registration hprepared)
      · exact fun claims fs' e h => by cases h
      intro e fs₁ fs' hmade hreverted _ _
      refine ⟨fs₁, hmade, ?_⟩
      rcases hreverted with hsame | ⟨hreplace, hretire, -⟩
      · exact hsame
      · apply absurd _ hretire
        rw [hmade.tree]
        exact hretirable hreplace registration hprepared
    · exact fun e e' _ => ⟨fs, .refl d fs, .refl d _ fs⟩
  have hend := wp_sound hwp schedule
  rw [hrun] at hend
  obtain ⟨fs₁, hmade, hsame⟩ := hend e rfl
  constructor
  · intro name hname
    rw [hsame.tree hname, hmade.tree]
  · intro stateHome name later hname hapart hlook
    exact eval_load_kept (hroot _) hmade hsame hname hapart hlook

end

namespace SampleRegistry

def publisherKey : VerifyingKey := publicKeyOfOnes

def trustText : String :=
  "\x7b\"keys\":[\x7b\"key_id\":\"key\",\"public_key_hex\":\"" ++
    "8a88e3dd7409f195fd52db2d3cba5d72ca6709bf1d94121bf3748801b40f6f5c" ++
    "\",\"not_before_unix\":0,\"not_after_unix\":10000\x7d]\x7d"

def trustBytes : Bytes := Field.utf8 trustText

def updateBytes : Bytes := Field.utf8 "\x7b\x7d"

def trustDigest : Digest :=
  ⟨[215, 245, 185, 198, 31, 138, 171, 129, 59, 213, 34, 114, 50, 54, 11, 118, 18, 200, 148, 123,
    194, 48, 221, 120, 24, 106, 160, 2, 188, 143, 107, 157], rfl⟩

def updateDigest : Digest :=
  ⟨[68, 19, 111, 163, 85, 179, 103, 138, 17, 70, 173, 22, 247, 232, 100, 158, 148, 251, 79, 194,
    31, 231, 126, 131, 16, 192, 96, 246, 28, 170, 255, 138], rfl⟩

/-- A registration for an update channel. -/
def claimsFor (channel : String) : GameRegistrationClaimsV1 where
  protocolVersion := 1
  registrationId := "chess"
  publisherId := "studio"
  tenantId := "studio"
  gameId := "chess"
  environmentId := "live"
  executableRelativePath := "chess.bin"
  trustStoreSha256 := trustDigest.1
  updateRootSha256 := updateDigest.1
  updateMetadataUrl := "https://example.com/m"
  updateTargetsUrl := "https://example.com/t"
  updateChannel := channel
  notBeforeUnix := 0
  expiresAtUnix := 2000
  registeredFiles := []
  repairExecutableRelativePath := ""
  repairArguments := []
  offlinePlayAllowed := false
  offlineArguments := []

def stableSignature : Signature :=
  ⟨[101, 32, 86, 24, 223, 5, 204, 159, 219, 251, 226, 102, 202, 28, 252, 212, 80, 3, 41, 45, 45,
    131, 18, 11, 125, 22, 219, 3, 180, 197, 147, 157, 146, 6, 6, 40, 13, 95, 239, 91, 89, 135, 16,
    126, 53, 81, 174, 155, 226, 30, 39, 46, 143, 237, 103, 52, 246, 254, 21, 226, 28, 122, 44, 8], rfl⟩

def betaSignature : Signature :=
  ⟨[161, 218, 155, 38, 77, 131, 50, 16, 54, 235, 14, 173, 229, 103, 239, 97, 54, 247, 103, 44,
    170, 99, 65, 104, 208, 249, 71, 42, 83, 225, 138, 225, 20, 185, 160, 66, 184, 18, 126, 111, 7,
    236, 116, 178, 2, 85, 136, 255, 105, 220, 69, 120, 205, 222, 204, 80, 33, 207, 151, 248, 159,
    91, 173, 14], rfl⟩

/-- The two signatures; every other message gets zeros. -/
def signatureOf (key : VerifyingKey) (message : Bytes) : Signature :=
  if key = publisherKey ∧ message = domain "certael.agent.registration.v1" ++ encode (claimsFor "stable")
  then stableSignature
  else if key = publisherKey ∧
    message = domain "certael.agent.registration.v1" ++ encode (claimsFor "beta") then betaSignature
  else filled 64 0

scoped instance crates : Crates where
  sha256 bytes := if bytes = trustBytes then trustDigest
    else if bytes = updateBytes then updateDigest else zeroDigest
  verifyingKey seed := if seed = filled 32 1 then publisherKey
    else seed
  sign seed message := signatureOf (if seed = filled 32 1
    then publisherKey else seed) message
  verify key message signature := decide (signatureOf key message = signature)
  verify_sign _ _ := decide_eq_true rfl
  Version := ℕ
  versionOrder := inferInstance
  parseVersion _ := none

def signedFor (channel : String) (signature : Signature) : SignedGameRegistrationV1 where
  claims := encode (claimsFor channel)
  signature := signature.1
  keyId := "key"

def stableBytes : Bytes := encode (signedFor "stable" stableSignature)

def betaBytes : Bytes := encode (signedFor "beta" betaSignature)

def stableRest : String :=
  "q4BCAESBWNoZXNzGgZzdHVkaW8iBnN0dWRpbyoFY2hlc3MyBGxpdmU6CWNoZXNzLmJpbkIg1/W5xh+Kq4E71" ++
    "SJyMjYLdhLIlHvCMN14GGqgAryPa51KIEQTb6NVs2eKEUatFvfoZJ6U+0/CH+d+gxDAYPYcqv+KUhVodHRwc" ++
    "zovL2V4YW1wbGUuY29tL21aFWh0dHBzOi8vZXhhbXBsZS5jb20vdGIGc3RhYmxlcNAPEkBlIFYY3wXMn9v74" ++
    "mbKHPzUUAMpLS2DEgt9FtsDtMWTnZIGBigNX+9bWYcQfjVRrpviHicuj+1nNPb+FeIceiwIGgNrZXk="

def stableText : String := "C" ++ stableRest

def betaRest : String :=
  "qwBCAESBWNoZXNzGgZzdHVkaW8iBnN0dWRpbyoFY2hlc3MyBGxpdmU6CWNoZXNzLmJpbkIg1/W5xh+Kq4E71" ++
    "SJyMjYLdhLIlHvCMN14GGqgAryPa51KIEQTb6NVs2eKEUatFvfoZJ6U+0/CH+d+gxDAYPYcqv+KUhVodHRwc" ++
    "zovL2V4YW1wbGUuY29tL21aFWh0dHBzOi8vZXhhbXBsZS5jb20vdGIEYmV0YXDQDxJAodqbJk2DMhA26w6t5" ++
    "WfvYTb3ZyyqY0Fo0PlHKlPhiuEUuaBCuBJ+bwfsdLICVYj/adxFeM3ezFAhz5f4n1utDhoDa2V5"

def betaText : String := "C" ++ betaRest

def recordFor (text : String) : StoredRegistration where
  formatVersion := 2
  signedRegistrationBase64 := text
  gameRoot := ["game"]
  signedBrandingBase64 := none

def recordBytes (text : String) : Bytes :=
  123 :: Field.utf8 ("\"format_version\":2,\"signed_registration_base64\":\"" ++ text ++
    "\",\"game_root\":\"/game\",\"signed_branding_base64\":null\x7d")

scoped instance encodableString : Encodable String :=
  Encodable.ofLeftInjection (fun text => text.toList.map Char.toNat)
    (fun codes => some (String.ofList (codes.map Char.ofNat))) fun text => by
      simp [Function.comp_def]

scoped instance encodableRegistration : Encodable StoredRegistration :=
  Encodable.ofLeftInjection
    (fun record => (record.formatVersion.toNat, record.signedRegistrationBase64, record.gameRoot,
      record.signedBrandingBase64))
    (fun row => some ⟨UInt32.ofNat row.1, row.2.1, row.2.2.1, row.2.2.2⟩) fun record => by
      simp

/-- The texts of the two registrations; everything else is written in hexadecimal. -/
def base64Encode (bytes : Bytes) : String :=
  if bytes = stableBytes then stableText
  else if bytes = betaBytes then betaText
  else "=" ++ Hex.encode bytes

def base64Decode (text : String) : Option Bytes :=
  if text = stableText then some stableBytes
  else if text = betaText then some betaBytes
  else Hex.decode (String.ofList (text.toList.drop 1))

theorem base64Decode_base64Encode (bytes : Bytes) : base64Decode (base64Encode bytes) = some bytes := by
  have hne : betaText ≠ stableText := by decide +kernel
  have hother : ∀ text, "=" ++ text ≠ stableText ∧ "=" ++ text ≠ betaText := by
    intro text
    constructor <;>
    · intro h
      have hhead := congrArg (fun t => t.toList.head?) h
      simp [stableText, betaText] at hhead
  unfold base64Encode
  by_cases hstable : bytes = stableBytes
  · rw [if_pos hstable, base64Decode, if_pos rfl, hstable]
  · rw [if_neg hstable]
    by_cases hbeta : bytes = betaBytes
    · rw [if_pos hbeta, base64Decode, if_neg hne, if_pos rfl, hbeta]
    · obtain ⟨hfirst, hsecond⟩ := hother (Hex.encode bytes)
      rw [if_neg hbeta, base64Decode, if_neg hfirst, if_neg hsecond, String.toList_append]
      change Hex.decode (String.ofList (Hex.encode bytes).toList) = some bytes
      rw [String.ofList_toList, Hex.decode_encode]

/-- The records of the two registrations; all others are numbered. -/
def registrationToVec (record : StoredRegistration) : Bytes :=
  if record = recordFor stableText then recordBytes stableText
  else if record = recordFor betaText then recordBytes betaText
  else List.replicate (Encodable.encode record) 0

def registrationFromSlice (bytes : Bytes) : Option StoredRegistration :=
  if bytes = recordBytes stableText then some (recordFor stableText)
  else if bytes = recordBytes betaText then some (recordFor betaText)
  else Encodable.decode bytes.length

theorem registrationFromSlice_registrationToVec (record : StoredRegistration) :
    registrationFromSlice (registrationToVec record) = some record := by
  have hne : recordBytes betaText ≠ recordBytes stableText := by decide +kernel
  have hother : ∀ n text, List.replicate n (0 : UInt8) ≠ recordBytes text := by
    intro n text h
    have hbrace : (123 : UInt8) ∈ List.replicate n 0 := by
      rw [h]
      exact List.mem_cons_self ..
    exact absurd (List.eq_of_mem_replicate hbrace) (by decide)
  unfold registrationToVec
  by_cases hstable : record = recordFor stableText
  · rw [if_pos hstable, registrationFromSlice, if_pos rfl, hstable]
  · rw [if_neg hstable]
    by_cases hbeta : record = recordFor betaText
    · rw [if_pos hbeta, registrationFromSlice, if_neg hne, if_pos rfl, hbeta]
    · rw [if_neg hbeta, registrationFromSlice, if_neg (hother _ _), if_neg (hother _ _),
         List.length_replicate, Encodable.encodek]

scoped instance codecs : Codecs where
  trustStoreFromSlice bytes := if bytes = trustBytes then some [{
      keyId := "key"
      publicKeyHex := "8a88e3dd7409f195fd52db2d3cba5d72ca6709bf1d94121bf3748801b40f6f5c"
      notBeforeUnix := 0
      notAfterUnix := 10000
      revoked := false }]
    else none
  registrationToVec := registrationToVec
  registrationFromSlice := registrationFromSlice
  fromSlice_toVec := registrationFromSlice_registrationToVec
  base64Encode := base64Encode
  base64Decode := base64Decode
  decode_encode := base64Decode_base64Encode
  verifyingKeyFromBytes := some
  readPng _ _ := none

/-- The stable registration is installed, and the beta one is at hand. -/
def registry : FileSystem :=
  FileSystem.ofTable
    [([], .directory true), (["game"], .directory true),
      (["game", "chess.bin"], .file [103, 97, 109, 101] 0o755), (["input"], .directory true),
      (["input", "registration.bin"], .file betaBytes 0o644),
      (["input", "trust-store.json"], .file trustBytes 0o644),
      (["input", "update-root.json"], .file updateBytes 0o644), (["registry"], .directory true),
      (["registry", "chess"], .directory true),
      (["registry", "chess", "registration.json"], .file (recordBytes stableText) 0o644),
      (["registry", "chess", "trust-store.json"], .file trustBytes 0o644),
      (["registry", "chess", "update-root.json"], .file updateBytes 0o644)]
    (by decide) (by decide)

def updateArgs : InstallRegistrationArgs where
  registryRoot := ["registry"]
  signedRegistration := ["input", "registration.bin"]
  publisherTrustStore := ["input", "trust-store.json"]
  updateRoot := ["input", "update-root.json"]
  gameRoot := ["game"]
  brandingManifest := none
  brandingRoot := none
  replace := true

def moment : Moment where
  processId := 7
  sinceEpoch := some 1000000000000

/-- The channel of the registration that is loaded. -/
def loadedChannel (fs : FileSystem) : Option String :=
  match eval device (load Sample.unix (some ["state"]) ["registry"] "chess" moment) fs with
  | .ok game => some game.claims.updateChannel
  | .error _ => none

/-- What an update leaves behind if it fails, when the given operation does. -/
def failedUpdate (failing : FsOp) : Option FileSystem :=
  match run device (fun op => op = failing) (installRegistration Sample.unix updateArgs moment)
    (List.replicate 64 .fault) registry with
  | .finished (.error _) fs => some fs
  | _ => none

theorem run_of_failedUpdate {failing : FsOp} {fs : FileSystem} (h : failedUpdate failing = some fs) :
    ∃ e, run device (fun op => op = failing) (update Sample.unix updateArgs moment)
      (List.replicate 64 .fault) registry = .finished (.error e) fs := by
  unfold failedUpdate at h
  change ∃ e, run device (fun op => op = failing) (installRegistration Sample.unix updateArgs moment)
    (List.replicate 64 .fault) registry = .finished (.error e) fs
  cases hrun : run device (fun op => op = failing) (installRegistration Sample.unix updateArgs moment)
      (List.replicate 64 .fault) registry with
  | crashed fs' =>
    rw [hrun] at h
    cases h
  | finished result fs' =>
    rw [hrun] at h
    cases result with
    | ok claims => cases h
    | error e => exact ⟨e, by rw [Option.some.inj h]⟩

theorem mem_table {p : Path} {n : Node} (h : registry.node p = some n) :
    p.length ≤ 3 ∧ n ≠ .directory false ∧ ¬ n.IsSymlink := by
  have hall : ∀ entry ∈ registry.table, entry.1.length ≤ 3 ∧ entry.2 ≠ .directory false ∧
      entry.2.metadata.fileType ≠ .symlink := by decide +kernel
  obtain ⟨hlength, hwritable, hlink⟩ := hall _ (Table.mem_of_node h)
  refine ⟨hlength, hwritable, fun hsymlink => ?_⟩
  cases n with
  | symlink absolute target => exact hlink rfl
  | file content mode => exact hsymlink
  | directory writable => exact hsymlink

theorem reaches_registry (names : List String) :
    Reaches names updateArgs.registryRoot ["registry"] registry := by
  have hreal : registry.Real ["registry"] := ⟨_, rfl, id⟩
  apply reaches_of_linkFree names (by decide) hreal.linkFree
  intro hnil
  cases hnil

theorem registrationId_of_prepared {registration : PreparedRegistration}
    (h : eval device (prepareRegistration Sample.unix updateArgs moment) registry =
      .ok registration) : registration.claims.registrationId = "chess" := by
  have hprepared : (eval device (prepareRegistration Sample.unix updateArgs moment) registry).map
      (fun registration => registration.claims.registrationId) = .ok "chess" := by decide +kernel
  rw [h] at hprepared
  exact Except.ok.inj hprepared

end SampleRegistry

open SampleRegistry in
theorem registration_kept_sample : ∃ e fs',
    run device (fun op => op = .rename ["registry", ".register-7-1000000000000"]
      ["registry", "chess"]) (update Sample.unix updateArgs moment) (List.replicate 64 .fault)
      registry = .finished (.error e) fs' ∧
    eval device (load Sample.unix (some ["state"]) ["registry"] "chess" moment) fs' =
      eval device (load Sample.unix (some ["state"]) ["registry"] "chess" moment) registry := by
  obtain ⟨fs', hfailed⟩ : ∃ fs', failedUpdate (.rename ["registry", ".register-7-1000000000000"]
      ["registry", "chess"]) = some fs' := Option.isSome_iff_exists.mp (by decide +kernel)
  obtain ⟨e, hrun⟩ := run_of_failedUpdate hfailed
  refine ⟨e, fs', hrun, ?_⟩
  have hkept := registration_kept reaches_registry ?_ ?_ hrun
  · apply hkept.2 (some ["state"]) "chess" moment (by decide) (by decide +kernel)
    refine .inr ⟨?_, by decide +kernel⟩
    intro p absolute target h
    exact absurd trivial (mem_table h).2.2
  · intro registration hprepared
    rw [registrationId_of_prepared hprepared]
    exact ⟨by decide +kernel, by decide +kernel, fun _ => by decide +kernel⟩
  · intro _ registration hprepared
    rw [registrationId_of_prepared hprepared]
    have hdirectory : registry.tree (["registry"] ++ ["chess"]) [] = some (.directory true) := by
      decide +kernel
    refine ⟨?_, ?_, ?_, ?_⟩
    · intro op hremoving hrename
      rw [decide_eq_true_eq] at hrename
      rw [hrename] at hremoving
      exact hremoving
    · intro content mode hfile
      cases hdirectory.symm.trans hfile
    · intro rest h
      exact (mem_table h).2.1 rfl
    · intro rest hsome
      obtain ⟨n, hn⟩ := Option.isSome_iff_exists.mp hsome
      have hlength := (mem_table hn).1
      rw [List.length_append] at hlength
      unfold maxDepth
      omega

open SampleRegistry in
/-- The backup of an update cannot be removed: the update has failed, and is loaded from now on. -/
theorem failed_update_loaded : ∃ e fs',
    run device (fun op => op = .removeDir ["registry", ".backup-chess"])
      (update Sample.unix updateArgs moment) (List.replicate 64 .fault) registry =
        .finished (.error e) fs' ∧
      loadedChannel registry = some "stable" ∧ loadedChannel fs' = some "beta" := by
  have hloaded : (failedUpdate (.removeDir ["registry", ".backup-chess"])).map loadedChannel =
      some (some "beta") := by decide +kernel
  obtain ⟨fs', hfailed, hchannel⟩ := Option.map_eq_some_iff.mp hloaded
  obtain ⟨e, hrun⟩ := run_of_failedUpdate hfailed
  exact ⟨e, fs', hrun, by decide +kernel, hchannel⟩

end CertaelAgent.Agent
