import CertaelAgent.Agent.Isolation

/-!
# Reading the registry

What listing and loading return, read by read: which directories are listed, which bytes a file has
within its bound, which game an executable path leads to, and what checked branding consists of.
-/

namespace CertaelAgent.Agent

open ProtoWire Protocol Files Files.FileSystem Program Anyhow

/-! ## What is listed -/

section

variable {p d : Path} {names more : List String} {name : String} {fs : FileSystem} {b : Bool}

theorem eval_perform_bind {α : Type} {op : FsOp} (hreads : device.reads op)
    (f : op.Reply → AgentProgram α) :
    eval device (perform op >>= f) fs = eval device (f (device.perform op fs).1) fs := by
  rw [perform_bind]
  unfold eval
  rw [exec, device.perform_reads op fs hreads]

theorem readOnly_directoriesIn (registryRoot : Path) (names : List String) :
    ReadOnly device (directoriesIn registryRoot names) := by
  induction names with
  | nil => trivial
  | cons name names ih => exact ⟨rfl, fun _ => ih.bind fun _ => trivial⟩

theorem eval_directoriesIn (registryRoot : Path) (names : List String) :
    eval device (directoriesIn registryRoot names) fs = .ok (names.filter fun name =>
      (fs.metadataAt (registryRoot ++ [name])).any fun metadata =>
        metadata.fileType = .directory) := by
  induction names with
  | nil => rfl
  | cons name names ih =>
    change eval device (perform (FsOp.symlinkMetadata (registryRoot ++ [name])) >>= _) fs = _
    rw [eval_perform_bind rfl, (readOnly_directoriesIn registryRoot names).eval_bind, ih,
      Except.ok_bind, pure_eq_done, eval_done, List.filter_cons]
    rfl

theorem eval_list_iff : eval device (list p) fs = .ok names ↔
    if (fs.canonicalize p).isSome then
      ∃ entries, (device.perform (FsOp.readDir p) fs).1 = some entries ∧
        names = ((entries.filter fun name => (fs.metadataAt (p ++ [name])).any fun metadata =>
          metadata.fileType = .directory).filter listed).mergeSort fun a b => decide (a ≤ b)
    else names = [] := by
  have hreadOnly : ReadOnly device (expect Error.io (readDir p)) :=
    ⟨rfl, fun reply => by cases reply <;> trivial⟩
  have hread : eval device (expect Error.io (readDir p)) fs =
      io (device.perform (FsOp.readDir p) fs).1 := by
    change eval device (perform (FsOp.readDir p) >>= _) fs = _
    rw [eval_perform_bind rfl]
    cases (device.perform (FsOp.readDir p) fs).1 <;> rfl
  change eval device (perform (FsOp.pathExists p) >>= _) fs = _ ↔ _
  rw [eval_perform_bind rfl]
  change eval device (if (fs.canonicalize p).isSome then _ else _) fs = _ ↔ _
  split_ifs
  · rw [hreadOnly.eval_bind_eq_ok_iff]
    simp only [hread, io_eq_ok_iff, (readOnly_directoriesIn p _).eval_bind_eq_ok_iff,
      eval_directoriesIn, Except.ok.injEq, exists_eq_left', pure_eq_done, eval_done]
    exact exists_congr fun entries => and_congr_right fun _ => eq_comm
  · rw [pure_eq_done, eval_done, Except.ok.injEq]
    exact eq_comm

theorem listed_of_mem_list (h : eval device (list p) fs = .ok names) (hname : name ∈ names) :
    listed name := by
  rw [eval_list_iff] at h
  split_ifs at h
  · obtain ⟨entries, -, rfl⟩ := h
    rw [(List.mergeSort_perm _ _).mem_iff, List.mem_filter] at hname
    exact hname.2
  · rw [h] at hname
    cases hname

theorem exists_list (hp : Leads more p d fs) (hd : fs.Directory (d ++ [name])) (h : listed name) :
    ∃ names, eval device (list p) fs = .ok names ∧ name ∈ names := by
  obtain ⟨writable, hnode⟩ := directory_iff.mp hd
  have hname : Ordinary name := fs.ordinary _ _ hnode name (by simp)
  have hentries : (device.perform (FsOp.readDir p) fs).1 = some (fs.namesIn d) := by
    simp only [device, FsOp.perform, hp.canonicalize, Option.bind_some, if_pos hp.directory]
  have hsome : (fs.canonicalize p).isSome := by
    rw [hp.canonicalize]
    rfl
  refine ⟨_, eval_list_iff.mpr ((if_pos hsome).mpr ⟨_, hentries, rfl⟩), ?_⟩
  rw [(List.mergeSort_perm _ _).mem_iff, List.mem_filter, List.mem_filter, mem_namesIn_iff, hnode]
  refine ⟨⟨rfl, ?_⟩, h⟩
  rw [FileSystem.metadataAt, hp.locate hname, Option.bind_some, hnode]
  rfl

end

/-! ## What is read -/

section

variable {p d u e : Path} {more : List String} {name : String} {fs : FileSystem} {content : Bytes}
  {mode : ℕ}

theorem eval_readRegular_entry (hp : Leads more u e fs) (hname : Ordinary name)
    (hnode : fs.node (e ++ [name]) = some (.file content mode)) {maximum : ℕ} {bytes : Bytes} :
    eval device (readRegular (u ++ [name]) maximum) fs = .ok bytes ↔
      bytes = content ∧ content ≠ [] ∧ content.length ≤ maximum := by
  rw [eval_readRegular_iff, hp.locate hname]
  constructor
  · rintro ⟨q, mode', hq, hfile, hbounds⟩
    obtain rfl := Option.some.inj hq
    rw [hnode] at hfile
    obtain ⟨rfl, rfl⟩ := Node.file.inj (Option.some.inj hfile)
    exact ⟨rfl, hbounds⟩
  · rintro ⟨rfl, hbounds⟩
    exact ⟨_, mode, rfl, hnode, hbounds⟩

variable [Codecs]

theorem eval_loadTrustStore_iff {path : Path} {keys : VerificationKeyRing} :
    eval device (loadTrustStore path) fs = .ok keys ↔
      ∃ q bytes mode, fs.locate path = some q ∧ fs.node q = some (.file bytes mode) ∧
        bytes.length ≤ 64 * 1024 ∧ mode &&& 0o022 = 0 ∧ keyRing bytes = .ok keys := by
  unfold loadTrustStore
  simp only [eval_symlinkMetadata_bind_iff, eval_require_bind_eq_ok_iff, eval_read_bind_iff,
    eval_done]
  constructor
  · rintro ⟨metadata, hmetadata, ⟨hfile, hlength⟩, hmode, content, hcontent, hkeys⟩
    obtain ⟨n, hn, rfl⟩ := Option.map_eq_some_iff.mp hmetadata
    obtain ⟨q, hq, hnode⟩ := Option.bind_eq_some_iff.mp hn
    cases n with
    | directory writable => cases hfile
    | symlink absolute target => cases hfile
    | file found mode =>
      have hfound := contentAt_of_canonicalize (canonicalize_of_locate hq (real_of_file hnode)) hnode
      obtain rfl := Option.some.inj (hfound.symm.trans hcontent)
      exact ⟨q, found, mode, hq, hnode, hlength, hmode, hkeys⟩
  · rintro ⟨q, bytes, mode, hq, hnode, hlength, hmode, hkeys⟩
    have hcontent := contentAt_of_canonicalize (canonicalize_of_locate hq (real_of_file hnode)) hnode
    refine ⟨(Node.file bytes mode).metadata, ?_, ⟨rfl, hlength⟩, hmode, bytes, hcontent, hkeys⟩
    rw [FileSystem.metadataAt, hq, Option.bind_some, hnode]
    rfl

theorem eval_loadTrustStore_entry (hp : Leads more u e fs) (hname : Ordinary name)
    (hnode : fs.node (e ++ [name]) = some (.file content 0o644)) {keys : VerificationKeyRing}
    (hlength : content.length ≤ 64 * 1024) (hkeys : keyRing content = .ok keys) :
    eval device (loadTrustStore (u ++ [name])) fs = .ok keys :=
  eval_loadTrustStore_iff.mpr ⟨_, content, 0o644, hp.locate hname, hnode, hlength, rfl, hkeys⟩

variable [Crates]

omit [Codecs] [Crates] in
theorem eval_resolveGame_iff {rules : Platform.PathRules} {gameRoot game : Path}
    {claims : GameRegistrationClaimsV1} {missing unsafe' : Anyhow.Error} :
    eval device (resolveGame rules gameRoot claims missing unsafe') fs = .ok game ↔
      fs.canonicalize (join rules gameRoot claims.executableRelativePath) = some game ∧
        gameRoot <+: game ∧
          ((fs.metadataAt game).any fun metadata => decide (metadata.fileType = .file)) = true := by
  have hfile : ∀ q, eval device (isFile q >>= fun file => require unsafe' (gameRoot <+: q ∧
      file = true) >>= fun _ => done (.ok q)) fs = .ok game ↔
        (gameRoot <+: q ∧ ((fs.metadataAt q).any fun metadata =>
          decide (metadata.fileType = .file)) = true) ∧ q = game := by
    intro q
    change eval device (perform (FsOp.symlinkMetadata q) >>= fun metadata => require unsafe'
      (gameRoot <+: q ∧ (metadata.any fun metadata => decide (metadata.fileType = .file)) = true)
        >>= fun _ => done (.ok q)) fs = _ ↔ _
    rw [eval_perform_bind rfl, eval_require_bind_eq_ok_iff, eval_done, Except.ok.injEq]
    rfl
  unfold resolveGame
  rw [eval_canonicalize_bind_iff]
  constructor
  · rintro ⟨q, hq, h⟩
    obtain ⟨hchecked, rfl⟩ := (hfile q).mp h
    exact ⟨hq, hchecked⟩
  · rintro ⟨hq, hchecked⟩
    exact ⟨game, hq, (hfile game).mpr ⟨hchecked, rfl⟩⟩

/-! ## Branding -/

omit [Crates] [Codecs] in
theorem decodeSigned_eq_ok_iff {bytes : Bytes} {malformed nonCanonical : String}
    {signed : SignedEnvelope} : decodeSigned bytes malformed nonCanonical = .ok signed ↔
      decode bytes = some signed ∧ encode signed = bytes := by
  unfold decodeSigned
  rw [Except.bind_eq_ok_iff]
  simp only [context_eq_ok_iff, io_eq_ok_iff]
  constructor
  · rintro ⟨found, hfound, h⟩
    split_ifs at h with hencode
    · cases h
    · obtain rfl := Except.ok.inj h
      exact ⟨hfound, not_not.mp hencode⟩
  · rintro ⟨hdecode, hencode⟩
    exact ⟨signed, hdecode, if_neg (not_not.mpr hencode)⟩

theorem checkImage_eq_ok_iff {bytes digest : Bytes} {role : PngRole} {mismatch : String} :
    checkImage bytes digest role mismatch = .ok () ↔
      (Crates.sha256 bytes).1 = digest ∧ ∃ size, verifyPng bytes role = .ok size := by
  unfold checkImage
  split_ifs with hdigest
  · exact iff_of_false (fun h => by cases h) fun h => hdigest h.1
  · rw [Except.bind_eq_ok_iff]
    simp only [not_not.mp hdigest, true_and]
    exact exists_congr fun size => and_iff_left rfl

omit [Codecs] in
theorem brandingClaims_eq_ok_iff {signed : SignedBrandingManifestV1} {keys : VerificationKeyRing}
    {registrationId gameId rejected : String} {nowUnix : Int64} {claims : BrandingManifestClaimsV1} :
    brandingClaims signed keys registrationId gameId rejected nowUnix = .ok claims ↔
      verifyBrandingManifest signed keys nowUnix = .ok claims ∧
        validateBinding claims registrationId gameId = .ok () := by
  unfold brandingClaims
  simp only [Except.bind_eq_ok_iff, context_eq_ok_iff, ofProtocol, Except.mapError_eq_ok_iff]
  constructor
  · rintro ⟨found, hfound, ⟨⟩, hbound, h⟩
    obtain rfl := Except.ok.inj h
    exact ⟨hfound, hbound⟩
  · rintro ⟨hverified, hbound⟩
    exact ⟨claims, hverified, (), hbound, rfl⟩

/-- An image with the digest of the manifest, within its bound. -/
structure CheckedImage (bytes digest : Bytes) (role : PngRole) (maximum : ℕ) : Prop where
  nonempty : bytes ≠ []
  bound : bytes.length ≤ maximum
  checked : (Crates.sha256 bytes).1 = digest ∧ ∃ size, verifyPng bytes role = .ok size

/-- Branding that has been checked, with the claims of its manifest. -/
structure CheckedBranding (keys : VerificationKeyRing) (registrationId gameId : String)
    (nowUnix : Int64) (branding : InstalledBranding) (claims : BrandingManifestClaimsV1) : Prop where
  canonical : decode (encode branding.signed) = some branding.signed
  nonempty : encode branding.signed ≠ []
  bound : (encode branding.signed).length ≤ MAX_MANIFEST_BYTES
  verified : verifyBrandingManifest branding.signed keys nowUnix = .ok claims
  binding : validateBinding claims registrationId gameId = .ok ()
  icon : CheckedImage branding.icon claims.iconSha256 .icon MAX_ICON_FILE_BYTES
  hero : claims.heroRelativePath = "" ∧ branding.hero = none ∨
    claims.heroRelativePath ≠ "" ∧ ∃ hero, branding.hero = some hero ∧
      CheckedImage hero claims.heroSha256 .hero MAX_HERO_FILE_BYTES

omit [Crates] [Codecs] in
theorem eval_installedImage {rules : Platform.PathRules} {root : Path} {relativePath : String}
    {maximum : ℕ} {unavailable escapes invalid : String} {bytes : Bytes}
    (h : eval device (installedImage rules root relativePath maximum unavailable escapes invalid) fs =
      .ok bytes) : bytes ≠ [] ∧ bytes.length ≤ maximum := by
  unfold installedImage at h
  rw [eval_canonicalize_bind_iff] at h
  obtain ⟨q, -, h⟩ := h
  rw [eval_require_bind_eq_ok_iff, eval_withContext_eq_ok_iff (readOnly_readRegular _ _),
    eval_readRegular_iff] at h
  obtain ⟨-, r, mode, -, -, hbounds⟩ := h
  exact hbounds

theorem checkedBranding_of_verifyInstall {rules : Platform.PathRules} {manifest root : Path}
    {keys : VerificationKeyRing} {registrationId gameId : String} {nowUnix : Int64}
    {branding : InstalledBranding}
    (h : eval device (verifyInstall rules manifest root keys registrationId gameId nowUnix) fs =
      .ok branding) : ∃ claims, CheckedBranding keys registrationId gameId nowUnix branding claims := by
  unfold verifyInstall at h
  simp only [eval_withContext_bind_iff (readOnly_readRegular _ _), eval_done_bind_eq_ok_iff,
    eval_canonicalize_bind_iff, decodeSigned_eq_ok_iff, brandingClaims_eq_ok_iff] at h
  obtain ⟨bytes, hbytes, signed, ⟨hdecode, rfl⟩, claims, ⟨hverified, hbinding⟩, q, -, h⟩ := h
  obtain ⟨-, -, -, -, hnonempty, hbound⟩ := eval_readRegular_iff.mp hbytes
  change eval device (perform (FsOp.isDir q) >>= _) fs = _ at h
  rw [eval_perform_bind rfl, eval_require_bind_eq_ok_iff,
    (cautious_installedImage rules _ _ _ _ _ _).readOnly.eval_bind_eq_ok_iff] at h
  obtain ⟨-, icon, hicon, h⟩ := h
  rw [eval_done_bind_eq_ok_iff] at h
  obtain ⟨⟨⟩, hchecked, h⟩ := h
  have hiconChecked : CheckedImage icon claims.iconSha256 .icon MAX_ICON_FILE_BYTES :=
    ⟨(eval_installedImage hicon).1, (eval_installedImage hicon).2, checkImage_eq_ok_iff.mp hchecked⟩
  split_ifs at h with hhero
  · obtain rfl := Except.ok.inj h
    exact ⟨claims, hdecode, hnonempty, hbound, hverified, hbinding, hiconChecked, .inl ⟨hhero, rfl⟩⟩
  · rw [(cautious_installedImage rules _ _ _ _ _ _).readOnly.eval_bind_eq_ok_iff] at h
    obtain ⟨hero, hread, h⟩ := h
    rw [eval_done_bind_eq_ok_iff] at h
    obtain ⟨⟨⟩, hheroChecked, h⟩ := h
    obtain rfl := Except.ok.inj h
    exact ⟨claims, hdecode, hnonempty, hbound, hverified, hbinding, hiconChecked,
      .inr ⟨hhero, hero, rfl, (eval_installedImage hread).1, (eval_installedImage hread).2,
        checkImage_eq_ok_iff.mp hheroChecked⟩⟩

/-- Stored branding is checked like the branding that was installed. -/
theorem eval_verifyStored {keys : VerificationKeyRing} {registrationId gameId : String}
    {nowUnix : Int64} {branding : InstalledBranding} {claims : BrandingManifestClaimsV1}
    (h : CheckedBranding keys registrationId gameId nowUnix branding claims)
    (hp : Leads ["icon.png", "hero.png"] u e fs)
    (hicon : fs.node (e ++ ["icon.png"]) = some (.file branding.icon mode))
    (hhero : fs.node (e ++ ["hero.png"]) = branding.hero.map fun hero => .file hero mode) :
    eval device (verifyStored (encode branding.signed) (u ++ ["icon.png"]) (u ++ ["hero.png"]) keys
      registrationId gameId nowUnix) fs = .ok ⟨claims, ⟨u ++ ["icon.png"]⟩,
        branding.hero.map fun _ => ⟨u ++ ["hero.png"]⟩⟩ := by
  have hordinary : Ordinary "icon.png" ∧ Ordinary "hero.png" := by decide
  unfold verifyStored
  rw [eval_require_bind_eq_ok_iff]
  refine ⟨⟨h.nonempty, h.bound⟩, ?_⟩
  rw [eval_done_bind_eq_ok_iff]
  refine ⟨branding.signed, decodeSigned_eq_ok_iff.mpr ⟨h.canonical, rfl⟩, ?_⟩
  rw [eval_done_bind_eq_ok_iff]
  refine ⟨claims, brandingClaims_eq_ok_iff.mpr ⟨h.verified, h.binding⟩, ?_⟩
  rw [eval_withContext_bind_iff (readOnly_readRegular _ _)]
  refine ⟨branding.icon, (eval_readRegular_entry hp hordinary.1 hicon).mpr
    ⟨rfl, h.icon.nonempty, h.icon.bound⟩, ?_⟩
  rw [eval_done_bind_eq_ok_iff]
  refine ⟨(), checkImage_eq_ok_iff.mpr h.icon.checked, ?_⟩
  rcases h.hero with ⟨hempty, hnone⟩ | ⟨hsome, hero, hbranding, hchecked⟩
  · rw [if_pos hempty]
    rw [hnone, Option.map_none] at hhero ⊢
    change eval device (perform (FsOp.pathExists (u ++ ["hero.png"])) >>= _) fs = _
    rw [eval_perform_bind rfl, eval_require_bind_eq_ok_iff]
    refine ⟨?_, rfl⟩
    simp only [device, FsOp.perform, hp.canonicalize_entry hordinary.2 (by simp [hhero]), hhero,
      Option.map_none, Option.isSome_none]
  · rw [if_neg hsome]
    rw [hbranding, Option.map_some] at hhero ⊢
    rw [eval_withContext_bind_iff (readOnly_readRegular _ _)]
    refine ⟨hero, (eval_readRegular_entry hp hordinary.2 hhero).mpr
      ⟨rfl, hchecked.nonempty, hchecked.bound⟩, ?_⟩
    rw [eval_done_bind_eq_ok_iff]
    exact ⟨(), checkImage_eq_ok_iff.mpr hchecked.checked, rfl⟩

theorem readOnly_verifyStored (signedBytes : Bytes) (iconPath heroPath : Path)
    (keys : VerificationKeyRing) (registrationId gameId : String) (nowUnix : Int64) :
    ReadOnly device
      (verifyStored signedBytes iconPath heroPath keys registrationId gameId nowUnix) := by
  have hdone : ∀ {α : Type} (result : Result α), ReadOnly device (done result : AgentProgram α) :=
    fun _ => trivial
  apply (Cautious.require _ _).readOnly.bind
  intro _
  apply (hdone _).bind
  intro signed
  apply (hdone _).bind
  intro claims
  apply (readOnly_withContext (readOnly_readRegular _ _)).bind
  intro icon
  apply (hdone _).bind
  intro _
  split_ifs
  · exact ⟨rfl, fun _ => (Cautious.require _ _).readOnly.bind fun _ => trivial⟩
  · apply (readOnly_withContext (readOnly_readRegular _ _)).bind
    intro hero
    exact (hdone _).bind fun _ => trivial

theorem readOnly_loadBranding (stateRoot : Path) (record : StoredRegistration)
    (keys : VerificationKeyRing) (claims : GameRegistrationClaimsV1) (nowUnix : Int64) :
    ReadOnly device (loadBranding stateRoot record keys claims nowUnix) := by
  unfold loadBranding
  cases record.signedBrandingBase64 with
  | none => trivial
  | some encoded =>
    have hdone : ReadOnly device (done (context "registered branding signature is invalid"
      (io (Codecs.base64Decode encoded))) : AgentProgram Bytes) := trivial
    apply hdone.bind
    intro signed
    exact (readOnly_verifyStored _ _ _ _ _ _ _).bind fun _ => trivial

end

end CertaelAgent.Agent
