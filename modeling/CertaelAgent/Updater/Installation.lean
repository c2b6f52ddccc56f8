import CertaelAgent.Updater.Steps

/-!
# Installing

A version is put together in a temporary directory and gets its place by a rename, which fails
where the version is there already. However an installation ends, what was below `versions`
before is there as it was, and the activation state is the old one or has the new version as its
pending slot.
-/

namespace CertaelAgent.Updater

open ProtoWire Protocol Files Files.FileSystem Program SlotMachine

variable [Crates] {fs fs' : FileSystem} {root : Path} {path : PathBuf} {state : ActivationState}
  {config : InstallConfig} {mayFail : FsOp → Bool} {I : FileSystem → Prop}

/-! ## The temporary directory -/

omit [Crates] in
theorem ordinary_temporaryDirectoryName (processId nonce : ℕ) :
    Ordinary (temporaryDirectoryName processId nonce) := by
  have htake : (temporaryDirectoryName processId nonce).toList.take 2 = ['.', 'i'] := by
    simp [temporaryDirectoryName]
  refine ⟨?_, ?_, ?_⟩ <;>
  · intro h
    rw [h] at htake
    exact absurd htake (by decide)

section

variable {Q : Except UpdateError Unit → FileSystem → Prop} {p : Path} {bytes : Bytes} {mode : ℕ}

omit [Crates] in
theorem wp_writeAll (pieces : List Bytes) (h : fs.node p = some (.file bytes mode))
    (hafter : ∀ fs' bytes, WithNode p (.file bytes mode) fs fs' → I fs' ∧ ∀ r, Q r fs') :
    wp device mayFail I Q (writeAll p pieces) fs := by
  have hself : WithNode p (.file bytes mode) fs fs := by
    intro q
    split_ifs with hq
    · rw [hq, h]
    · rfl
  induction pieces generalizing fs bytes with
  | nil => exact (hafter fs bytes hself).2 _
  | cons piece pieces ih =>
    have hstart := hafter fs bytes hself
    obtain ⟨fs₁, happend, hcontent⟩ := perform_append_of_file h piece
    refine wp_ensure_bind ⟨hstart.1, ?_, fun _ => hstart.2 _⟩
    rw [happend]
    refine ih hcontent.node (fun fs' bytes h' => hafter fs' bytes (hcontent.again h')) ?_
    intro q
    split_ifs with hq
    · rw [hq, hcontent.node]
    · rfl

end

theorem wp_copyAndVerify {Q : Except UpdateError Unit → FileSystem → Prop} {d source : Path}
    {name expected : String} (hd : fs.Directory d) (hname : Ordinary name) (hI : I fs)
    (herror : ∀ e, Q (.error e) fs)
    (hcopied : ∀ fs' bytes mode, WithNode (d ++ [name]) (.file bytes mode) fs fs' →
      I fs' ∧ ∀ r, Q r fs') :
    wp device mayFail I Q (copyAndVerify source (d ++ [name]) expected) fs := by
  unfold copyAndVerify
  refine (cautious_read _ _).wp_bind hI (fun content _ => ?_) herror
  refine wp_ensure_bind ⟨hI, ?_, fun _ => herror _⟩
  rw [perform_createNew_append hd hname]
  cases hcreate : fs.create (d ++ [name]) (.file [] newFileMode) with
  | none => exact herror _
  | some fs₁ =>
    have hnew : WithNode (d ++ [name]) (.file [] newFileMode) fs fs₁ := (create_eq_some hcreate).2.2
    refine wp_bind (wp_mono (Q := fun r fs' => ∃ bytes,
      WithNode (d ++ [name]) (.file bytes newFileMode) fs fs') ?_ ?_)
    · refine wp_writeAll _ hnew.node fun fs' bytes h => ?_
      have hall := hnew.again h
      exact ⟨(hcopied _ _ _ hall).1, fun r => ⟨bytes, hall⟩⟩
    · rintro r fs₂ ⟨bytes, hall⟩
      have hwritten := hcopied _ _ _ hall
      cases r with
      | error e => exact hwritten.2 _
      | ok _ =>
        refine wp_require_bind (fun _ => ?_) fun _ => hwritten.2 _
        obtain ⟨fs₃, hperm, hmode⟩ := perform_setPermissions_of_file hall.node 0o755
        refine wp_ensure_bind ⟨hwritten.1, ?_, fun _ => hwritten.2 _⟩
        rw [hperm]
        have hdone := hcopied _ _ _ (hall.again hmode)
        refine wp_ensure ⟨hdone.1, ?_, fun _ => hdone.2 _⟩
        rw [perform_syncAll]
        cases (fs₃.canonicalize (d ++ [name])).isSome <;> exact hdone.2 _

omit [Crates] in
/-- The temporary directory may still be removed, with everything below it. -/
def Removable (root t : Path) (fs fs' : FileSystem) : Prop :=
  (∀ q, t <+: q → fs'.LinkFree q) ∧ ∀ fs'', Below t fs' fs'' → Preserves root fs fs''

omit [Crates] in
theorem Removable.preserves {t : Path} (h : Removable root t fs fs') : Preserves root fs fs' :=
  h.2 fs' (.refl t fs')

/-- What is below a name that was not there is no part of the installation. -/
theorem preserves_of_new {t : Path} (hsound : Sound root fs) (ht : versionsPath root <+: t)
    (hfree : fs.node t = none) (h : Below t fs fs') : Preserves root fs fs' := by
  refine hsound.preserves_of_below h (fun hp => ?_) (fun hp => ?_) fun p content mode _ hp hnode => ?_
  · have hlen := (ht.trans hp).length_le
    simp [versionsPath] at hlen
  · exact activationPath_apart root (ht.trans hp)
  · obtain ⟨x, rfl⟩ := hp
    by_cases hx : x = []
    · rw [hx, List.append_nil, hfree] at hnode
      simp at hnode
    · rw [node_append_of_not_directory (not_directory_of_none hfree) hx] at hnode
      simp at hnode

section

variable {name : String} (hsound : Sound root fs)
  (hfree : fs.node (versionsPath root ++ [name]) = none)

include hsound hfree

theorem removable_of_below (h : Below (versionsPath root ++ [name]) fs fs') :
    Removable root (versionsPath root ++ [name]) fs fs' := by
  refine ⟨fun q hq => h.linkFree (linkFree_of_none ?_ hfree q hq), fun fs'' h' =>
    preserves_of_new hsound (List.prefix_append _ _) hfree (h.trans h')⟩
  exact (hsound.links name).above <| List.prefix_append _ _

theorem preserves_of_rename {version : String} {fs₁ fs₂ : FileSystem}
    (h : Below (versionsPath root ++ [name]) fs fs₁) (hversion : Ordinary version)
    (hdir : fs₁.Directory (versionsPath root ++ [name]))
    (hrename : fs₁.renameEntry (versionsPath root ++ [name]) (versionsPath root ++ [version]) =
      some fs₂) :
    Removable root (versionsPath root ++ [name]) fs fs₂ ∧
      ∀ q, versionsPath root ++ [version] <+: q → ∀ n ∈ fs₂.node q, ¬ n.IsSymlink := by
  have hlinks : ∀ q, versionsPath root ++ [name] <+: q → ∀ n ∈ fs₁.node q, ¬ n.IsSymlink :=
    fun q hq n hn => (removable_of_below hsound hfree h).1 q hq q (List.prefix_refl q) n hn
  by_cases heq : name = version
  · -- The temporary name is the version itself, and the rename does nothing.
    subst heq
    unfold renameEntry at hrename
    rw [if_pos rfl] at hrename
    split_ifs at hrename
    rw [← Option.some.inj hrename]
    exact ⟨removable_of_below hsound hfree h, hlinks⟩
  have hne : versionsPath root ++ [name] ≠ versionsPath root ++ [version] := by simpa using heq
  have hapart : ∀ q, versionsPath root ++ [version] <+: q → ¬ versionsPath root ++ [name] <+: q := by
    intro q hq hq'
    have hle : versionsPath root ++ [name] <+: versionsPath root ++ [version] :=
      List.prefix_of_prefix_length_le hq' hq (by simp)
    exact hne (hle.eq_of_length (by simp))
  obtain ⟨hmovable, hkind, hnode⟩ := renameEntry_eq_some hrename hne
  have hnew : ∀ q, versionsPath root ++ [version] <+: q → ∀ n ∈ fs₂.node q, ¬ n.IsSymlink := by
    intro q hq n hn
    rw [hnode q, if_pos hq] at hn
    exact hlinks _ (List.prefix_append _ _) n hn
  have hkept : ∀ q, ¬ versionsPath root ++ [version] <+: q → ¬ versionsPath root ++ [name] <+: q →
      fs₂.node q = fs.node q := by
    intro q hq hq'
    rw [hnode q, if_neg hq, if_neg hq', h.1 q hq']
  have hroot : fs₂.node root = fs.node root := by
    refine hkept root (fun hp => ?_) fun hp => ?_ <;>
    · have hlen := hp.length_le
      simp [versionsPath] at hlen
  have hactivation : fs₂.node (activationPath root) = fs.node (activationPath root) :=
    hkept _ (fun hp => activationPath_apart root ((List.prefix_append _ _).trans hp))
      fun hp => activationPath_apart root ((List.prefix_append _ _).trans hp)
  have hgone : ∀ q, versionsPath root ++ [name] <+: q → fs₂.node q = none := by
    intro q hq
    rw [hnode q, if_neg fun hq' => hapart q hq' hq, if_pos hq]
  have hpreserves : Preserves root fs fs₂ := by
    refine ⟨?_, hactivation, fun q content mode _ hq => ?_, fun v q hq n hn => ?_⟩
    · rw [directory_iff, hroot, ← directory_iff]
      exact hsound.directory
    · have hq₁ : ¬ versionsPath root ++ [name] <+: q := by
        rintro ⟨x, rfl⟩
        by_cases hx : x = []
        · rw [hx, List.append_nil, hfree] at hq
          simp at hq
        · rw [node_append_of_not_directory (not_directory_of_none hfree) hx] at hq
          simp at hq
      have hold : fs₁.node q = some (.file content mode) := by rw [h.1 q hq₁, hq]
      rw [hkept q (fun hq' => ?_) hq₁, hq]
      by_cases hat : q = versionsPath root ++ [version]
      · -- A directory does not go over a file.
        rw [hat] at hold
        rcases hkind with hnone | hiff
        · simp [hnone] at hold
        · exact not_directory_of_file hold (hiff.mp hdir)
      · rw [hmovable.node_below hq' hat] at hold
        simp at hold
    · by_cases hq' : versionsPath root ++ [version] <+: q
      · exact hnew q hq' n hn
      · by_cases hq₁ : versionsPath root ++ [name] <+: q
        · rw [hgone q hq₁] at hn
          simp at hn
        · rw [hkept q hq' hq₁] at hn
          exact hsound.links v q hq n hn
  refine ⟨⟨linkFree_of_none ((hpreserves.links name).above <| List.prefix_append _ _)
    (hgone _ (List.prefix_refl _)), fun fs₃ h₃ => ?_⟩, hnew⟩
  exact hpreserves.trans
    (preserves_of_new (hsound.of_preserves hpreserves) (List.prefix_append _ _)
      (hgone _ (List.prefix_refl _)) h₃)

end

/-! ## The directory of the version -/

section

variable {Q : Except UpdateError Unit → FileSystem → Prop} {source : Path} {name sha256 : String}

theorem wp_fillVersionDirectory {fs₁ : FileSystem} (hsound : Sound root fs)
    (hfree : fs.node (versionsPath root ++ [name]) = none) (hname : Ordinary name)
    (hcreated : WithNode (versionsPath root ++ [name]) (.directory true) fs fs₁)
    (hversion : Ordinary config.version) (hinstalled : Ordinary config.installedName)
    (hbefore : ∀ fs', Removable root (versionsPath root ++ [name]) fs fs' →
      I fs' ∧ ∀ e, Q (.error e) fs')
    (hplaced : ∀ fs', Preserves root fs fs' →
      (∀ n ∈ fs'.node (versionsPath root ++ [config.version] ++ [config.installedName]),
        ¬ n.IsSymlink) → Q (.ok ()) fs') :
    wp device mayFail I Q (fillVersionDirectory source (versionsPath root) config sha256
      (versionsPath root ++ [name])) fs₁ := by
  have hdir : fs₁.Directory (versionsPath root ++ [name]) :=
    directory_iff.mpr ⟨true, hcreated.node⟩
  have hbelow : Below (versionsPath root ++ [name]) fs fs₁ := hcreated.below id
  have hstart := hbefore fs₁ (removable_of_below hsound hfree hbelow)
  unfold fillVersionDirectory
  refine wp_bind (wp_mono (Q := outcome
    (fun _ fs' => Below (versionsPath root ++ [name]) fs fs' ∧
      fs'.Directory (versionsPath root ++ [name]))
    fun e fs' => Q (.error e) fs') ?_ ?_)
  · refine wp_copyAndVerify hdir hinstalled hstart.1 hstart.2 fun fs' bytes mode h => ?_
    have hcopied := hbelow.trans ((h.below id).mono (List.prefix_append _ _))
    have hrest := hbefore fs' (removable_of_below hsound hfree hcopied)
    refine ⟨hrest.1, fun r => ?_⟩
    cases r with
    | ok _ => exact ⟨hcopied, fs'.parent _ _ _ h.node⟩
    | error e => exact hrest.2 e
  · intro r fs₂ h
    cases r with
    | error e => exact h
    | ok _ =>
      obtain ⟨hcopied, hdir₂⟩ := h
      have hrest := hbefore fs₂ (removable_of_below hsound hfree hcopied)
      refine wp_ensure_bind ⟨hrest.1, ?_, fun _ => hrest.2 _⟩
      rw [perform_syncAll, canonicalize_of_real hdir₂.real]
      refine wp_ensure_bind ⟨hrest.1, ?_, fun _ => hrest.2 _⟩
      rw [perform_rename_append (fs₂.parent _ _ _ (directory_iff.mp hdir₂).choose_spec) hname
        hversion]
      cases hrename : fs₂.renameEntry (versionsPath root ++ [name])
          (versionsPath root ++ [config.version]) with
      | none => exact hrest.2 _
      | some fs₃ =>
        obtain ⟨hremovable, hlinks⟩ :=
          preserves_of_rename hsound hfree hcopied hversion hdir₂ hrename
        have hlast := hbefore fs₃ hremovable
        rw [committed_some]
        refine wp_ensure ⟨hlast.1, ?_, fun _ => hlast.2 _⟩
        rw [perform_syncAll]
        cases (fs₃.canonicalize (versionsPath root)).isSome with
        | false => exact hlast.2 _
        | true => exact hplaced fs₃ hremovable.preserves (hlinks _ (List.prefix_append _ _))

/-- The target is in its place as a file, or what was there is as it was. -/
theorem wp_placeTarget {now : Moment} (hsound : Sound root fs)
    (hversions : fs.Directory (versionsPath root)) (hversion : Ordinary config.version)
    (hinstalled : Ordinary config.installedName)
    (hbefore : ∀ fs', Preserves root fs fs' → I fs' ∧ ∀ e, Q (.error e) fs')
    (hplaced : ∀ fs', Preserves root fs fs' →
      (∀ n ∈ fs'.node (versionsPath root ++ [config.version] ++ [config.installedName]),
        ¬ n.IsSymlink) → Q (.ok ()) fs') :
    wp device mayFail I Q (placeTarget source (versionsPath root) config sha256 now) fs := by
  have hrefl := hsound.refl_preserves
  have hstart := hbefore fs hrefl
  have hordinary : ∀ x ∈ versionsPath root, Ordinary x := ordinary_of_directory hversions
  unfold placeTarget
  refine wp_read (show device.reads (.pathExists _) from rfl) hstart.1 fun found => ?_
  cases found with
  | true =>
    refine (cautious_hashFile _).wp_bind hstart.1 (fun digest hdigest => ?_) hstart.2
    have hlocate : ∀ q,
        fs.locate (versionsPath root ++ [config.version] ++ [config.installedName]) = some q →
        q = versionsPath root ++ [config.version] ++ [config.installedName] := by
      intro q hq
      refine eq_of_locate (fun x hx => ?_) ?_ hq
      · simp only [List.mem_append, List.mem_singleton] at hx
        rcases hx with (hx | rfl) | rfl
        · exact hordinary x hx
        · exact hversion
        · exact hinstalled
      · rw [List.dropLast_concat]
        exact hsound.links config.version
    obtain ⟨content, mode, hnode, _⟩ := file_of_eval_hashFile hlocate hdigest
    unfold Program.require
    split_ifs with hsame
    · exact hplaced fs hrefl ((real_of_file hnode).linkFree _ (List.prefix_refl _))
    · exact hstart.2 _
  | false =>
    refine wp_expect_done_bind (fun nonce _ => ?_) fun _ => hstart.2 _
    have hname := ordinary_temporaryDirectoryName now.processId nonce
    refine ⟨hstart.1, ?_, fun _ => hstart.2 _⟩
    rw [perform_createDir_append hversions hname]
    cases hcreate : fs.create (versionsPath root ++ [temporaryDirectoryName now.processId nonce])
        (.directory true) with
    | none => exact hstart.2 _
    | some fs₁ =>
      obtain ⟨hfree, _, hcreated⟩ := create_eq_some hcreate
      change wp device mayFail I Q (attempt _ >>= _) fs₁
      refine wp_bind (wp_attempt (wp_mono (Q := outcome (fun _ fs' => Q (.ok ()) fs')
        fun (_ : UpdateError) fs' =>
          Removable root (versionsPath root ++ [temporaryDirectoryName now.processId nonce]) fs fs')
        ?_ ?_))
      · refine wp_fillVersionDirectory hsound hfree hname hcreated hversion hinstalled
          (fun fs' h => ⟨(hbefore fs' h.preserves).1, fun _ => h⟩) hplaced
      · intro r fs₂ h
        cases r with
        | ok _ => exact h
        | error e =>
          have hnames : ∀ x ∈ versionsPath root ++ [temporaryDirectoryName now.processId nonce],
              Ordinary x := by
            intro x hx
            rcases List.mem_append.mp hx with hx | hx
            · exact hordinary x hx
            · rwa [List.mem_singleton.mp hx]
          have hremove := confined_removeDirAll (ε := UpdateError) (List.prefix_refl _) hnames
          refine wp_bind (hremove.wp h.1 (fun fs₃ h₃ => (hbefore fs₃ (h.2 fs₃ h₃)).1)
            fun r fs₃ h₃ => ?_)
          cases r with
          | ok _ => exact (hbefore fs₃ (h.2 fs₃ h₃)).2 e
          | error e' => exact (hbefore fs₃ (h.2 fs₃ h₃)).2 e'

end

/-! ## The whole installation -/

variable [SerdeJson]

omit [Crates] [SerdeJson] in
theorem validateInstall_eq_ok {digest : String} (h : validateInstall config digest = .ok ()) :
    safeComponent config.version ∧ safeComponent config.installedName ∧ validDigest digest := by
  unfold validateInstall at h
  split_ifs at h with hcheck
  simp only [Bool.or_eq_true, not_or] at hcheck
  simpa using (⟨hcheck.1.1.2, hcheck.1.2, hcheck.2⟩ : _ ∧ _ ∧ _)

omit [SerdeJson] in
/-- A slot that verifies at the place of its version is installed if there is no link at it. -/
theorem installed_of_verifies {slot : ActivationSlot} (hsound : Sound root fs)
    {version name : String} (hversion : safeComponent version) (hname : safeComponent name)
    (hpath : slot.relativePath = slotPath version name)
    (hlink : ∀ n ∈ fs.node (versionsPath root ++ [version] ++ [name]), ¬ n.IsSymlink)
    (hverify : Verifies fs root slot) : Installed fs root slot := by
  obtain ⟨hvalid, canonical, content, mode, hcanonical, _, hnode, hdigest⟩ := verifies_iff.mp hverify
  have hnames : root ++ pathNames slot.relativePath = versionsPath root ++ [version] ++ [name] := by
    rw [hpath, pathNames_slotPath hversion hname]
    simp [versionsPath]
  have hordinary : ∀ x ∈ versionsPath root ++ [version] ++ [name], Ordinary x := by
    intro x hx
    rw [← hnames, hpath, pathNames_slotPath hversion hname] at hx
    rcases List.mem_append.mp hx with hx | hx
    · exact ordinary_of_directory hsound.directory x hx
    · simp only [List.mem_cons, List.not_mem_nil, or_false] at hx
      rcases hx with rfl | rfl | rfl
      · decide
      · exact safeComponent_ordinary hversion
      · exact safeComponent_ordinary hname
  have hsame : canonical = versionsPath root ++ [version] ++ [name] :=
    eq_of_canonicalize hordinary ((hsound.links version).append hlink) (hnames ▸ hcanonical)
  subst hsame
  refine ⟨hvalid, ?_, content, mode, ?_, hdigest⟩
  · rw [hnames, List.append_assoc]
    exact List.prefix_append _ _
  · rw [hnames, hnode]

omit [Crates] [SerdeJson] in
theorem directory_of_metadata {d : Path} {name : String} {metadata : Metadata} {e : UpdateError}
    (hd : fs.Directory d) (hname : Ordinary name)
    (hlook : eval device (expect e (symlinkMetadata (d ++ [name]))) fs = .ok metadata)
    (htype : metadata.fileType = .directory) : fs.Directory (d ++ [name]) := by
  rw [eval_symlinkMetadata, Except.ofOption_eq_ok_iff, locate_append hd hname, Option.bind_some] at hlook
  obtain ⟨n, hn, rfl⟩ := Option.map_eq_some_iff.mp hlook
  refine ⟨n, hn, ?_⟩
  cases n with
  | directory writable => trivial
  | file content mode => simp [Node.metadata] at htype
  | symlink absolute target => simp [Node.metadata] at htype

omit [SerdeJson] in
theorem preserves_of_versions (hsound : Sound root fs)
    (h : fs.create (versionsPath root) (.directory true) = some fs') : Preserves root fs fs' := by
  obtain ⟨hfree, _, hnew⟩ := create_eq_some h
  have hcreated : WithNode (versionsPath root) (.directory true) fs fs' := hnew
  exact preserves_of_new hsound (List.prefix_refl _) hfree (hcreated.below id)

/-- A version is staged, or the state stays. -/
def stages : ActivationState → ActivationState → Prop :=
  Moves fun action => ∃ slot, action = .stage slot

theorem wp_installVerifiedTarget {source : Path} {digest : String} {now later : Moment}
    (hsound : Sound root fs) (hstate : Records fs root state)
    (hpath : fs.canonicalize config.installRoot.names = some root) :
    wp device mayFail (Evolved root stages fs state) (fun _ => Evolved root stages fs state)
      (installVerifiedTarget source config digest now later) fs := by
  have hevolved : ∀ fs', Preserves root fs fs' → Evolved root stages fs state fs' :=
    fun fs' => Evolved.of_preserves hsound hstate
  have hrefl := hevolved fs hsound.refl_preserves
  unfold installVerifiedTarget
  refine wp_done_bind (fun _ hvalid => ?_) fun _ _ => hrefl
  obtain ⟨hversion, hname, _⟩ := validateInstall_eq_ok hvalid
  refine (cautious_symlinkMetadata _ _).wp_bind hrefl (fun _ _ => ?_) fun _ => hrefl
  refine wp_require_bind (fun _ => ?_) fun _ => hrefl
  refine wp_ensure_bind (wp_createDirAll_of_resolves (by simp [hpath]) _ hrefl fun made => ?_)
  cases made with
  | false => exact hrefl
  | true =>
    refine (cautious_symlinkMetadata _ _).wp_bind hrefl (fun _ _ => ?_) fun _ => hrefl
    refine wp_require_bind (fun _ => ?_) fun _ => hrefl
    refine (cautious_canonicalize _ _).wp_bind hrefl (fun root' hroot' => ?_) fun _ => hrefl
    rw [eval_canonicalize, hpath, Except.ofOption, Except.ok.injEq] at hroot'
    subst hroot'
    refine wp_ensure_bind (wp_mono (Q := fun _ fs₁ => Preserves root fs fs₁) ?_ ?_)
    · exact wp_createDirAll_append hsound.directory (by decide) _ hrefl
        (fun _ => hsound.refl_preserves) fun fs₁ h => preserves_of_versions hsound h
    · intro r fs₁ h₁
      have hsound₁ := hsound.of_preserves h₁
      have hevolved₁ := hevolved fs₁ h₁
      rcases r with e | made
      · exact hevolved₁
      cases made with
      | false => exact hevolved₁
      | true =>
        refine (cautious_symlinkMetadata _ _).wp_bind hevolved₁ (fun metadata hlook => ?_)
          fun _ => hevolved₁
        refine wp_require_bind (fun htype => ?_) fun _ => hevolved₁
        have hversions : fs₁.Directory (versionsPath root) :=
          directory_of_metadata hsound₁.directory (by decide) hlook htype
        refine wp_bind (wp_mono (Q := fun r fs₂ => Preserves root fs fs₂ ∧ (r = .ok () →
          ∀ n ∈ fs₂.node (versionsPath root ++ [config.version] ++ [config.installedName]),
            ¬ n.IsSymlink)) ?_ ?_)
        · refine wp_placeTarget hsound₁ hversions (safeComponent_ordinary hversion)
            (safeComponent_ordinary hname) (fun fs₂ h₂ => ?_) fun fs₂ h₂ hlink => ?_
          · exact ⟨hevolved fs₂ (h₁.trans h₂), fun e => ⟨h₁.trans h₂, by simp⟩⟩
          · exact ⟨h₁.trans h₂, fun _ => hlink⟩
        · rintro r fs₂ ⟨h₂, hlink⟩
          have hsound₂ := hsound.of_preserves h₂
          have hevolved₂ := hevolved fs₂ h₂
          have hstate₂ := hstate.of_same h₂.activation
          cases r with
          | error e => exact hevolved₂
          | ok _ =>
            refine (cautious_verifySlot root _).wp_bind hevolved₂ (fun _ hverify => ?_)
              fun _ => hevolved₂
            have hinstalled : Installed fs₂ root (installSlot config digest) :=
              installed_of_verifies hsound₂ hversion hname rfl (hlink rfl) hverify
            refine wp_readActivationState_bind hsound₂.directory hstate₂ hevolved₂
              (fun read hread => ?_) fun _ => hevolved₂
            have hkept : ∀ fs₃, Evolved root stages fs₂ state fs₃ → Evolved root stages fs state fs₃ :=
              fun fs₃ h₃ => ⟨h₃.1, h₂.keeps.trans h₃.2.1, h₃.2.2⟩
            refine wp_bind (wp_weaken (wp_writeDecided hsound₂ hstate₂
              (decides_of_read hread ⟨_, ⟨installSlot config digest, rfl⟩, .stage⟩) fun slot hslot => ?_)
              hkept fun r fs₃ h₃ => ?_)
            · rw [ActivationState.mem_slots] at hslot
              have hold := installed_of_read hsound₂ hstate₂ hread slot
              rw [ActivationState.mem_slots] at hold
              rcases hslot with hslot | hslot | hslot
              · exact hold (.inl hslot)
              · exact hold (.inr (.inl hslot))
              · rw [← Option.some.inj hslot]
                exact hinstalled
            · cases r with
              | ok _ => exact hkept fs₃ h₃.1
              | error e => exact hkept fs₃ h₃.1

theorem wp_verifyStageAndInstallAutomatic {release : Except UpdateError VerifiedReleaseTarget}
    {name channel platform : String} {now later : Moment} (hsound : Sound root fs)
    (hstate : Records fs root state) (hpath : fs.canonicalize path.names = some root) :
    wp device mayFail (Evolved root stages fs state) (fun _ => Evolved root stages fs state)
      (verifyStageAndInstallAutomatic release path name channel platform now later) fs := by
  have hrefl : Evolved root stages fs state fs := .refl hsound hstate
  unfold verifyStageAndInstallAutomatic
  refine wp_done_bind (fun staged _ => ?_) fun _ _ => hrefl
  refine wp_require_bind (fun _ => ?_) fun _ => hrefl
  refine (cautious_hashFile _).wp_bind hrefl (fun digest _ => ?_) fun _ => hrefl
  exact wp_installVerifiedTarget hsound hstate hpath

end CertaelAgent.Updater
