import CertaelAgent.Foundation.Pieces
import CertaelAgent.Updater.ErrorAtomicity

/-!
# Placing a target beside another process

While a target is copied into the directory of its version another process may rewrite the file it
is copied from. Nothing below the root is touched by that, so the slot that is verified at the end
is the one that the copy has made.
-/

namespace CertaelAgent.Updater

open ProtoWire Protocol Files Files.FileSystem Program

section

variable {f root : Path} {fs fs' : FileSystem} {version name : String} {held : Option Bytes}

theorem heldBytes_of_rewrites (houtside : ¬ root <+: f) (h : Rewrites f fs fs') :
    heldBytes fs' root = heldBytes fs root := by
  apply heldBytes_of_node
  apply h.node
  rintro rfl
  exact houtside (List.prefix_append ..)

/-! ## Placing the target -/

/-- The directories of an installation, without a link at or below the one of the version. -/
structure Settled (root : Path) (version : String) (held : Option Bytes) (fs : FileSystem) : Prop where
  directory : fs.Directory root
  versions : fs.Directory (versionsPath root)
  links : ∀ q, versionsPath root ++ [version] <+: q → ∀ n ∈ fs.node q, ¬ n.IsSymlink
  held : heldBytes fs root = held

theorem Settled.of_rewrites (houtside : ¬ root <+: f) (h : Settled root version held fs)
    (hrewrites : Rewrites f fs fs') : Settled root version held fs' where
  directory := hrewrites.directory_iff.mpr h.directory
  versions := hrewrites.directory_iff.mpr h.versions
  links q hq := hrewrites.not_symlink (h.links q hq)
  held := (heldBytes_of_rewrites houtside hrewrites).trans h.held

theorem not_prefix_root (root : Path) (name : String) : ¬ versionsPath root ++ [name] <+: root := by
  intro h
  have hlen := h.length_le
  simp [versionsPath] at hlen

theorem not_prefix_versions (root : Path) (name : String) :
    ¬ versionsPath root ++ [name] <+: versionsPath root := by
  intro h
  have hlen := h.length_le
  simp at hlen

theorem not_prefix_activation (root : Path) (name : String) :
    ¬ versionsPath root ++ [name] <+: activationPath root :=
  fun h => activationPath_apart root ((List.prefix_append _ _).trans h)

theorem Settled.of_below (h : Settled root version held fs)
    (hbelow : Below (versionsPath root ++ [name]) fs fs') : Settled root version held fs' where
  directory := by
    rw [directory_iff, hbelow.1 _ (not_prefix_root root name), ← directory_iff]
    exact h.directory
  versions := by
    rw [directory_iff, hbelow.1 _ (not_prefix_versions root name), ← directory_iff]
    exact h.versions
  links q hq n hn hlink := h.links q hq n (hbelow.2 q n hn hlink) hlink
  held := (heldBytes_of_node (hbelow.1 _ (not_prefix_activation root name))).trans h.held

/-- In addition, no link is at or below the temporary directory. -/
def Placing (root : Path) (version : String) (held : Option Bytes) (name : String)
    (fs : FileSystem) : Prop :=
  Settled root version held fs ∧ ∀ q, versionsPath root ++ [name] <+: q → fs.LinkFree q

theorem Placing.of_rewrites (houtside : ¬ root <+: f) (h : Placing root version held name fs)
    (hrewrites : Rewrites f fs fs') : Placing root version held name fs' :=
  ⟨h.1.of_rewrites houtside hrewrites, fun q hq => hrewrites.linkFree (h.2 q hq)⟩

theorem Placing.of_below (h : Placing root version held name fs)
    (hbelow : Below (versionsPath root ++ [name]) fs fs') : Placing root version held name fs' :=
  ⟨h.1.of_below hbelow, fun q hq => hbelow.linkFree (h.2 q hq)⟩

theorem Placing.of_rename (h : Placing root version held name fs)
    (hrename : fs.renameEntry (versionsPath root ++ [name]) (versionsPath root ++ [version]) =
      some fs') : Placing root version held name fs' := by
  by_cases hsame : versionsPath root ++ [name] = versionsPath root ++ [version]
  · unfold renameEntry at hrename
    rw [if_pos hsame] at hrename
    split_ifs at hrename
    rwa [← Option.some.inj hrename]
  obtain ⟨-, -, hnode⟩ := renameEntry_eq_some hrename hsame
  have hapart : ∀ q, ¬ versionsPath root ++ [version] <+: q → ¬ versionsPath root ++ [name] <+: q →
      fs'.node q = fs.node q := by
    intro q hq hq'
    rw [hnode q, if_neg hq, if_neg hq']
  have hdirectory : ∀ q, ¬ versionsPath root ++ [version] <+: q →
      ¬ versionsPath root ++ [name] <+: q → fs.Directory q → fs'.Directory q := by
    intro q hq hq' hdir
    rwa [directory_iff, hapart q hq hq', ← directory_iff]
  have hversions : fs'.Directory (versionsPath root) :=
    hdirectory _ (not_prefix_versions root version) (not_prefix_versions root name) h.1.versions
  have hgone : fs'.node (versionsPath root ++ [name]) = none := by
    have hother : ¬ versionsPath root ++ [version] <+: versionsPath root ++ [name] :=
      fun hp => hsame (hp.eq_of_length (by simp)).symm
    rw [hnode, if_neg hother, if_pos (List.prefix_refl _)]
  refine ⟨⟨?_, hversions, fun q hq n hn => ?_, ?_⟩, linkFree_of_none hversions.real.linkFree hgone⟩
  · exact hdirectory _ (not_prefix_root root version) (not_prefix_root root name) h.1.directory
  · rw [hnode q, if_pos hq] at hn
    exact h.2 _ (List.prefix_append _ _) _ (List.prefix_refl _) n hn
  · rw [← h.1.held]
    exact heldBytes_of_node
      (hapart _ (not_prefix_activation root version) (not_prefix_activation root name))

end

/-! ## The copy -/

section

variable [Crates] {f t root source : Path} {fs : FileSystem} {version name sha256 : String}
  {held : Option Bytes} {fuel : ℕ} {mayFail : PieceOp → Bool} {I J : FileSystem → Prop}
  {config : InstallConfig} {now : Moment}

omit [Crates] in
theorem kept_writeAll (hsteady : Steady f t I J) {p : Path} (ht : t <+: p)
    (hnames : ∀ name ∈ p, Ordinary name) (pieces : List Bytes) :
    Kept f fuel mayFail I J (writeAll p pieces) := by
  induction pieces with
  | nil => exact hsteady.done _
  | cons bytes rest ih =>
    apply Kept.bind (hsteady.ensure (hsteady.entry rfl ht hnames fun _ => hsteady.done _))
    exact fun _ => ih

/-- Whatever is read, the copy is made below the temporary directory. -/
theorem kept_copyAndVerify (hsteady : Steady f t I J) {p : Path} (ht : t <+: p)
    (hnames : ∀ name ∈ p, Ordinary name) :
    Kept f fuel mayFail I J (copyAndVerify source p sha256) := by
  have hentry : ∀ {op : FsOp} {next : op.Reply → Bool}, op.entry = some p →
      Kept f fuel mayFail I J (.call op fun r => .done (.ok (next r)) : FileProgram UpdateError Bool) :=
    fun hop => hsteady.entry hop ht hnames fun _ => hsteady.done _
  unfold copyAndVerify
  apply Kept.bind
  · apply Kept.bind (hsteady.quiet rfl fun _ => hsteady.done _)
    intro content
    cases content <;> exact hsteady.done _
  intro content
  apply Kept.bind (hsteady.ensure (hentry rfl))
  intro _
  apply Kept.bind (kept_writeAll hsteady ht hnames _)
  intro _
  apply Kept.bind (hsteady.require _ _)
  intro _
  apply Kept.bind (hsteady.ensure (hentry rfl))
  intro _
  exact hsteady.ensure (hsteady.quiet rfl fun _ => hsteady.done _)

omit [Crates] in
theorem ordinary_append {d : Path} (hd : ∀ x ∈ d, Ordinary x) (hname : Ordinary name) :
    ∀ x ∈ d ++ [name], Ordinary x := by
  intro x hx
  rcases List.mem_append.mp hx with hx | hx
  · exact hd x hx
  · rwa [List.mem_singleton.mp hx]

section

variable (houtside : ¬ root <+: f) (hI : ∀ fs, Settled root config.version held fs → I fs)

include houtside hI

omit [Crates] in
theorem steady_placing (name : String) : Steady f (versionsPath root ++ [name]) I
    (Placing root config.version held name) where
  rewrites _ _ h hrewrites := h.of_rewrites houtside hrewrites
  below _ _ h hbelow := h.of_below hbelow
  linkFree _ h := h.2
  holds fs h := hI fs h.1

theorem kept_fillVersionDirectory (hname : Ordinary name) (hversion : Ordinary config.version)
    (hinstalled : Ordinary config.installedName) (h : Placing root config.version held name fs) :
    beside f fuel mayFail I (fun _ => Placing root config.version held name)
      (fillVersionDirectory source (versionsPath root) config sha256 (versionsPath root ++ [name]))
      fs := by
  have hsteady := steady_placing houtside hI name
  have hsync : ∀ p, Kept f fuel mayFail I (Placing root config.version held name)
      (ensure .installation (syncAll p) : FileProgram UpdateError Unit) :=
    fun p => hsteady.ensure (hsteady.quiet rfl fun _ => hsteady.done _)
  have htemporary := ordinary_append (ordinary_of_directory h.1.versions) hname
  unfold fillVersionDirectory
  apply Kept.bind (kept_copyAndVerify hsteady (List.prefix_append _ _)
    (ordinary_append htemporary hinstalled)) ?_ fs h
  intro _
  apply Kept.bind (hsync _)
  intro _
  apply Kept.bind ?_ fun _ => hsync _
  apply hsteady.ensure
  intro fs₁ h₁
  apply beside_call (.rename _ _) id
  intro fs₂ hfs₂
  have h₂ := h₁.of_rewrites houtside hfs₂
  refine ⟨hI fs₂ h₂.1, ?_, hsteady.done _ fs₂ h₂⟩
  apply hsteady.done
  rw [show (FsOp.rename _ _).perform fs₂ = _ from
    perform_rename_append h₂.1.versions hname hversion]
  cases hrename : fs₂.renameEntry (versionsPath root ++ [name])
      (versionsPath root ++ [config.version]) with
  | none => exact h₂
  | some fs₃ => exact h₂.of_rename hrename

/-- Wherever the placing ends, the installation is settled. -/
theorem beside_placeTarget (hversion : Ordinary config.version)
    (hinstalled : Ordinary config.installedName) (h : Settled root config.version held fs) :
    beside f fuel mayFail I (fun _ => Settled root config.version held)
      (placeTarget source (versionsPath root) config sha256 now) fs := by
  have hkept : ∀ fs fs', Settled root config.version held fs → Rewrites f fs fs' →
      Settled root config.version held fs' := fun _ _ h hrewrites => h.of_rewrites houtside hrewrites
  have hdone : ∀ (r : Except UpdateError Unit) fs, Settled root config.version held fs →
      beside f fuel mayFail I (fun _ => Settled root config.version held) (done r) fs :=
    fun _ fs h fs' => hkept fs fs' h
  unfold placeTarget
  dsimp only
  rw [perform_bind]
  apply beside_quiet (.pathExists _) id rfl
  intro fs₁ hfs₁
  have h₁ := hkept fs fs₁ h hfs₁
  refine ⟨hI fs₁ h₁, fun found => ?_⟩
  cases found with
  | true =>
    apply beside_bind
    apply beside_mono (beside_readOnly (cautious_hashFile _).readOnly hkept hI h₁)
    intro r fs₂ h₂
    cases r with
    | error e => exact h₂
    | ok digest =>
      dsimp only
      unfold Program.require
      split_ifs <;> exact hdone _ fs₂ h₂
  | false =>
    apply beside_expect_done_bind ?_ fun fs₂ hfs₂ => hkept fs₁ fs₂ h₁ hfs₂
    intro nonce _
    have hname := ordinary_temporaryDirectoryName now.processId nonce
    have hsteady := steady_placing houtside hI (temporaryDirectoryName now.processId nonce)
    rw [perform_bind]
    apply beside_call (.createDir _) id
    intro fs₂ hfs₂
    have h₂ := hkept fs₁ fs₂ h₁ hfs₂
    refine ⟨hI fs₂ h₂, ?_, hdone _ fs₂ h₂⟩
    rw [show (FsOp.createDir _).perform fs₂ = _ from perform_createDir_append h₂.versions hname]
    cases hcreate : fs₂.create (versionsPath root ++ [temporaryDirectoryName now.processId nonce])
        (.directory true) with
    | none => exact hdone _ fs₂ h₂
    | some fs₃ =>
      obtain ⟨hfree, -, hnew⟩ := create_eq_some hcreate
      have hbelow : Below (versionsPath root ++ [temporaryDirectoryName now.processId nonce]) fs₂ fs₃ :=
        WithNode.below hnew id
      have h₃ : Placing root config.version held (temporaryDirectoryName now.processId nonce) fs₃ :=
        ⟨h₂.of_below hbelow, fun q hq =>
          hbelow.linkFree (linkFree_of_none h₂.versions.real.linkFree hfree q hq)⟩
      change beside f fuel mayFail I _ (attempt _ >>= _) fs₃
      apply beside_bind
      apply beside_attempt
      apply beside_mono
        (kept_fillVersionDirectory houtside hI hname hversion hinstalled h₃)
      intro r fs₄ h₄
      cases r with
      | ok _ => exact hdone _ fs₄ h₄.1
      | error e =>
        have hnames := ordinary_append (ordinary_of_directory h₄.1.versions) hname
        have hremoved : Kept f fuel mayFail I
            (Placing root config.version held (temporaryDirectoryName now.processId nonce))
            (removeDirAll (versionsPath root ++ [temporaryDirectoryName now.processId nonce]) >>=
              fun _ => fail e : FileProgram UpdateError Unit) := by
          apply Kept.bind ?_ fun _ => hsteady.done _
          exact hsteady.confined (confined_removeDirAll (List.prefix_refl _) hnames)
            (issues_removeEntry _ _)
        exact beside_mono (hremoved fs₄ h₄) fun _ _ h => h.1

end

/-! ## Verifying the slot -/

/-- There is a file with the digest. -/
def HasDigest (fs : FileSystem) (p : Path) (digest : String) : Prop :=
  ∃ content mode, fs.node p = some (.file content mode) ∧ Hex.encode (Crates.sha256 content).1 = digest

theorem HasDigest.of_rewrites {p : Path} {digest : String} (h : HasDigest fs p digest) (hp : p ≠ f)
    {fs' : FileSystem} (hrewrites : Rewrites f fs fs') : HasDigest fs' p digest := by
  obtain ⟨content, mode, hnode, hdigest⟩ := h
  exact ⟨content, mode, (hrewrites.node hp).trans hnode, hdigest⟩

theorem beside_hashFile {p : Path} (hreal : fs.Real p) (hp : p ≠ f)
    (hkept : ∀ fs fs', J fs → Rewrites f fs fs' → J fs') (hI : ∀ fs, J fs → I fs) (h : J fs) :
    beside f fuel mayFail I (fun r fs' => J fs' ∧ ∀ digest, r = .ok digest → HasDigest fs' p digest)
      (hashFile p) fs := by
  have herror : ∀ fs', Rewrites f fs fs' → J fs' ∧ ∀ digest,
      (.error .verification : Except UpdateError String) = .ok digest → HasDigest fs' p digest :=
    fun fs' hfs' => ⟨hkept fs fs' h hfs', fun _ hdigest => by cases hdigest⟩
  have hcanonical := canonicalize_of_real hreal
  have hI' : ∀ fs', Rewrites f fs fs' → I fs' := fun fs' hfs' => hI fs' (hkept fs fs' h hfs')
  unfold hashFile
  apply beside_symlinkMetadata_bind hI' ?_ herror
  intro fs₁ metadata hfs₁ hlook
  apply beside_require_bind ?_ fun fs₂ hfs₂ => herror fs₂ (hfs₁.trans hfs₂)
  intro htype
  have hreal₁ : fs₁.Real p := real_of_canonicalize ((hfs₁.canonicalize p).trans hcanonical)
  unfold FileSystem.metadataAt at hlook
  rw [locate_of_real hreal₁, Option.bind_some] at hlook
  obtain ⟨n, hn, rfl⟩ := Option.map_eq_some_iff.mp hlook
  cases n with
  | directory writable => simp [Node.metadata] at htype
  | symlink absolute target => simp [Node.metadata] at htype
  | file content mode =>
    have helsewhere : fs₁.canonicalize p ≠ some f := by
      rw [hfs₁.canonicalize, hcanonical]
      exact fun heq => hp (Option.some.inj heq)
    apply beside_read_bind helsewhere (contentAt_of_file hn)
    · exact fun fs₂ hfs₂ => hI' fs₂ (hfs₁.trans hfs₂)
    · intro fs₂ hfs₂ fs₃ hfs₃
      have hall := hfs₂.trans hfs₃
      refine ⟨hkept fs fs₃ h (hfs₁.trans hall), fun digest hdigest => ?_⟩
      exact HasDigest.of_rewrites ⟨content, mode, hn, Except.ok.inj hdigest⟩ hp hall
    · exact fun fs₂ hfs₂ => herror fs₂ (hfs₁.trans hfs₂)

/-- The target of a slot is in place, and `activation.json` has these bytes. -/
structure InPlace (root target : Path) (sha256 : String) (held : Option Bytes) (fs : FileSystem) :
    Prop where
  directory : fs.Directory root
  target : HasDigest fs target sha256
  held : heldBytes fs root = held

/-- Where the target of the configuration is installed. -/
def targetPath (root : Path) (config : InstallConfig) : Path :=
  versionsPath root ++ [config.version] ++ [config.installedName]

theorem InPlace.of_rewrites {target : Path} (houtside : ¬ root <+: f) (htarget : root <+: target)
    (h : InPlace root target sha256 held fs) {fs' : FileSystem} (hrewrites : Rewrites f fs fs') :
    InPlace root target sha256 held fs' where
  directory := hrewrites.directory_iff.mpr h.directory
  target := by
    apply h.target.of_rewrites ?_ hrewrites
    rintro rfl
    exact houtside htarget
  held := (heldBytes_of_rewrites houtside hrewrites).trans h.held

omit [Crates] in
theorem prefix_targetPath (root : Path) (config : InstallConfig) : root <+: targetPath root config := by
  unfold targetPath versionsPath
  rw [List.append_assoc, List.append_assoc]
  exact List.prefix_append _ _

omit [Crates] in
theorem join_installSlot {digest : String} (hversion : safeComponent config.version)
    (hinstalled : safeComponent config.installedName) :
    join root (installSlot config digest).relativePath = targetPath root config := by
  change join root (slotPath config.version config.installedName) = _
  rw [join_slotPath hversion hinstalled]
  simp [targetPath, versionsPath]

omit [Crates] in
theorem Settled.canonicalize_target (h : Settled root config.version held fs)
    (hversion : safeComponent config.version) (hinstalled : safeComponent config.installedName)
    {canonical : Path} (hcanonical : fs.canonicalize (targetPath root config) = some canonical) :
    canonical = targetPath root config := by
  have hfree : fs.LinkFree (versionsPath root ++ [config.version]) :=
    h.versions.real.linkFree.append (h.links _ (List.prefix_refl _))
  apply eq_of_canonicalize ?_ (hfree.append (h.links _ (List.prefix_append _ _))) hcanonical
  exact ordinary_append (ordinary_append (ordinary_of_directory h.versions)
    (safeComponent_ordinary hversion)) (safeComponent_ordinary hinstalled)

theorem beside_verifySlot {digest : String} (houtside : ¬ root <+: f)
    (hI : ∀ fs, Settled root config.version held fs → I fs) (hversion : safeComponent config.version)
    (hinstalled : safeComponent config.installedName) (h : Settled root config.version held fs) :
    beside f fuel mayFail I (fun r fs' => Settled root config.version held fs' ∧ (r = .ok () →
      InPlace root (targetPath root config) (installSlot config digest).sha256 held fs'))
      (verifySlot root (installSlot config digest)) fs := by
  have hkept : ∀ fs fs', Settled root config.version held fs → Rewrites f fs fs' →
      Settled root config.version held fs' := fun _ _ h hrewrites => h.of_rewrites houtside hrewrites
  have herror : ∀ (e : UpdateError) fs', Rewrites f fs fs' → Settled root config.version held fs' ∧
      ((.error e : Except UpdateError Unit) = .ok () →
        InPlace root (targetPath root config) (installSlot config digest).sha256 held fs') :=
    fun e fs' hfs' => ⟨hkept fs fs' h hfs', fun hok => by cases hok⟩
  have hne : targetPath root config ≠ f := by
    intro heq
    exact houtside (heq ▸ prefix_targetPath root config)
  unfold verifySlot
  rw [join_installSlot hversion hinstalled]
  apply beside_done_bind (fun _ _ => ?_) herror
  apply beside_canonicalize_bind (fun fs' hfs' => hI fs' (hkept fs fs' h hfs')) ?_ (herror _)
  intro fs₁ canonical hfs₁ hcanonical
  have h₁ := hkept fs fs₁ h hfs₁
  obtain rfl := h₁.canonicalize_target hversion hinstalled hcanonical
  apply beside_require_bind ?_ fun fs₂ hfs₂ => herror _ fs₂ (hfs₁.trans hfs₂)
  intro _
  apply beside_bind
  apply beside_mono (beside_hashFile (real_of_canonicalize hcanonical) hne hkept hI h₁)
  rintro r fs₂ ⟨h₂, hdigest⟩
  cases r with
  | error e => exact ⟨h₂, fun hok => by cases hok⟩
  | ok found =>
    dsimp only
    unfold Program.require
    split_ifs with hsame
    · intro fs₃ hfs₃
      have h₃ := hkept fs₂ fs₃ h₂ hfs₃
      refine ⟨h₃, fun _ => ⟨h₃.directory, ?_, h₃.held⟩⟩
      rw [← hsame]
      exact (hdigest found rfl).of_rewrites hne hfs₃
    · exact fun fs₃ hfs₃ => ⟨hkept fs₂ fs₃ h₂ hfs₃, fun hok => by cases hok⟩

end

end CertaelAgent.Updater
