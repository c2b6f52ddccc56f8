import CertaelAgent.Agent.Registering
import CertaelAgent.Agent.RegistryReads

/-!
# Registrations that are loaded again

What a call that ends well has put into the registry is what it has read and checked. Loading
checks it once more, and its bounds are on other texts: a signed registration may have 64 KiB when
it is registered, and so may the JSON text that holds it in base64 when it is loaded. A name that
begins with a dot may be registered and is not listed.
-/

namespace CertaelAgent.Agent

open ProtoWire Protocol Files Files.FileSystem Program Anyhow

/-! ## What has been prepared -/

section

variable [Codecs] [Crates] {p d : Path} {fs : FileSystem}

/-- A registration that has been prepared, with the envelope, the keys and the time it has been
checked with. -/
structure Prepared (rules : Platform.PathRules) (now : Moment) (fs : FileSystem)
    (registration : PreparedRegistration) (signed : SignedEnvelope) (keys : VerificationKeyRing)
    (nowUnix : Int64) : Prop where
  decoded : decode registration.registrationBytes = some signed
  canonical : encode signed = registration.registrationBytes
  clock : now.nowUnix = .ok nowUnix
  verified : verifyGameRegistration signed keys nowUnix = .ok registration.claims
  trustNonempty : registration.trustBytes ≠ []
  trustBound : registration.trustBytes.length ≤ 64 * 1024
  keyRing : keyRing registration.trustBytes = .ok keys
  updateNonempty : registration.updateBytes ≠ []
  updateBound : registration.updateBytes.length ≤ MAX_ROOT_BYTES
  bound : bindsTrust registration.claims registration.trustBytes registration.updateBytes
  gameRoot : fs.canonicalize registration.gameRoot = some registration.gameRoot
  game : fs.canonicalize (join rules registration.gameRoot
    registration.claims.executableRelativePath) = some registration.game
  inside : registration.gameRoot <+: registration.game
  isFile : ((fs.metadataAt registration.game).any fun metadata =>
    decide (metadata.fileType = .file)) = true
  branding : ∀ branding ∈ registration.branding, ∃ claims, CheckedBranding keys
    registration.claims.registrationId registration.claims.gameId nowUnix branding claims

theorem checkedBranding_of_prepareBranding {rules : Platform.PathRules}
    {args : InstallRegistrationArgs} {keys : VerificationKeyRing} {claims : GameRegistrationClaimsV1}
    {nowUnix : Int64} {branding : InstalledBranding}
    (h : eval device (prepareBranding rules args keys claims nowUnix) fs = .ok (some branding)) :
    ∃ found, CheckedBranding keys claims.registrationId claims.gameId nowUnix branding found := by
  unfold prepareBranding at h
  cases hmanifest : args.brandingManifest with
  | none =>
    rw [hmanifest] at h
    cases hroot : args.brandingRoot with
    | none =>
      rw [hroot] at h
      cases h
    | some root =>
      rw [hroot] at h
      cases h
  | some manifest =>
    rw [hmanifest] at h
    cases hroot : args.brandingRoot with
    | none =>
      rw [hroot] at h
      cases h
    | some root =>
      rw [hroot] at h
      obtain ⟨found, hfound, hsome⟩ :=
        (cautious_verifyInstall rules manifest root keys _ _ _).readOnly.eval_bind_eq_ok_iff.mp h
      obtain rfl := Option.some.inj (Except.ok.inj hsome)
      exact checkedBranding_of_verifyInstall hfound

theorem prepared_of_eval {rules : Platform.PathRules} {args : InstallRegistrationArgs} {now : Moment}
    {registration : PreparedRegistration}
    (h : eval device (prepareRegistration rules args now) fs = .ok registration) :
    ∃ signed keys nowUnix, Prepared rules now fs registration signed keys nowUnix := by
  unfold prepareRegistration at h
  simp only [eval_withContext_bind_iff (readOnly_readRegular _ _), eval_done_bind_eq_ok_iff,
    (cautious_loadTrustStore _).readOnly.eval_bind_eq_ok_iff, eval_require_bind_eq_ok_iff,
    eval_canonicalize_bind_iff, decodeSigned_eq_ok_iff, context_eq_ok_iff, ofProtocol,
    Except.mapError_eq_ok_iff] at h
  obtain ⟨registrationBytes, -, signed, ⟨hdecode, rfl⟩, keys, hkeys, nowUnix, hclock, claims,
    hverified, trustBytes, htrust, updateBytes, hupdate, hbinds, gameRoot, hgameRoot, h⟩ := h
  change eval device (perform (FsOp.isDir gameRoot) >>= _) fs = _ at h
  rw [eval_perform_bind rfl, eval_require_bind_eq_ok_iff,
    (cautious_resolveGame rules gameRoot claims _ _).readOnly.eval_bind_eq_ok_iff] at h
  obtain ⟨-, game, hgame, h⟩ := h
  rw [(cautious_prepareBranding rules args keys claims nowUnix).readOnly.eval_bind_eq_ok_iff] at h
  obtain ⟨branding, hbranding, h⟩ := h
  obtain rfl := Except.ok.inj h
  obtain ⟨q, bytes, mode, hq, hnode, hbound, -, hring⟩ := eval_loadTrustStore_iff.mp hkeys
  obtain ⟨q', mode', hq', hnode', hnonempty, -⟩ := eval_readRegular_iff.mp htrust
  obtain rfl := Option.some.inj (hq.symm.trans hq')
  obtain ⟨rfl, rfl⟩ := Node.file.inj (Option.some.inj (hnode.symm.trans hnode'))
  obtain ⟨-, -, -, -, hupdateNonempty, hupdateBound⟩ := eval_readRegular_iff.mp hupdate
  obtain ⟨hpath, hinside, hfile⟩ := eval_resolveGame_iff.mp hgame
  refine ⟨signed, keys, nowUnix, hdecode, rfl, hclock, hverified, hnonempty, hbound, hring,
    hupdateNonempty, hupdateBound, hbinds, canonicalize_idem hgameRoot, hpath, hinside, hfile, ?_⟩
  intro branding' hmem
  obtain rfl : branding = some branding' := hmem
  exact checkedBranding_of_prepareBranding hbranding

/-! ## What is loaded -/

omit [Crates] in
theorem node_registrationTable (registration : PreparedRegistration) :
    (registrationTable registration).node [] = some (.directory true) ∧
    (registrationTable registration).node ["trust-store.json"] =
      some (.file registration.trustBytes 0o644) ∧
    (registrationTable registration).node ["update-root.json"] =
      some (.file registration.updateBytes 0o644) ∧
    (registrationTable registration).node ["registration.json"] =
      some (.file (Codecs.registrationToVec (storedRegistration registration)) 0o644) := by
  unfold registrationTable
  cases registration.branding with
  | none => exact ⟨rfl, rfl, rfl, rfl⟩
  | some branding =>
    cases hhero : branding.hero <;> simp [brandingTable, hhero, Table.node, emptyDirectory]

omit [Crates] in
theorem node_brandingTable {registration : PreparedRegistration} {branding : InstalledBranding}
    (h : registration.branding = some branding) :
    (registrationTable registration).node ["branding"] = some (.directory true) ∧
    (registrationTable registration).node ["branding", "icon.png"] =
      some (.file branding.icon 0o644) ∧
    (registrationTable registration).node ["branding", "hero.png"] =
      branding.hero.map fun hero => .file hero 0o644 := by
  unfold registrationTable
  rw [h]
  cases hhero : branding.hero <;> simp [brandingTable, hhero, Table.node, emptyDirectory]

/-- Whatever becomes of the entries of the registry that a call works on, the game is found as
before. -/
structure GameApart (rules : Platform.PathRules) (d : Path) (names : List String)
    (registration : PreparedRegistration) (fs : FileSystem) : Prop where
  root : ∀ fs₁ fs', MadeAbove d fs fs₁ → Elsewhere d names fs₁ fs' →
    fs'.canonicalize registration.gameRoot = fs.canonicalize registration.gameRoot
  game : ∀ fs₁ fs', MadeAbove d fs fs₁ → Elsewhere d names fs₁ fs' →
    fs'.canonicalize (join rules registration.gameRoot
      registration.claims.executableRelativePath) =
        fs.canonicalize (join rules registration.gameRoot
          registration.claims.executableRelativePath)
  file : ∀ fs₁ fs', MadeAbove d fs fs₁ → Elsewhere d names fs₁ fs' →
    fs'.metadataAt registration.game = fs.metadataAt registration.game

variable {rules : Platform.PathRules} {now : Moment} {registration : PreparedRegistration}
  {signed : SignedEnvelope} {keys : VerificationKeyRing} {nowUnix : Int64} {fs' : FileSystem}
  {stateHome : Option Path}

omit [Crates] in
theorem Registered.leads_entry (h : Registered p d now registration fs fs') (more : List String) :
    Leads more (p ++ [registration.claims.registrationId])
      (d ++ [registration.claims.registrationId]) fs' := by
  have hdirectory := directory_of_tree h.tree (node_registrationTable registration).1
  rw [List.append_nil] at hdirectory
  exact h.leads.entry (by simp [workingNames]) more hdirectory

theorem eval_loadBranding_registered (h : Registered p d now registration fs fs')
    (hprepared : Prepared rules now fs registration signed keys nowUnix) :
    ∃ branding, eval device (loadBranding (p ++ [registration.claims.registrationId])
        (storedRegistration registration) keys registration.claims nowUnix) fs' = .ok branding ∧
      Option.Rel (fun installed verified =>
        IsCanonical verified.claims installed.signed.claims) registration.branding branding := by
  unfold loadBranding storedRegistration
  cases hinstalled : registration.branding with
  | none => exact ⟨none, rfl, .none⟩
  | some installed =>
    obtain ⟨claims, hchecked⟩ := hprepared.branding installed hinstalled
    obtain ⟨hdirectory, hicon, hhero⟩ := node_brandingTable hinstalled
    have hleads : Leads ["icon.png", "hero.png"]
        (p ++ [registration.claims.registrationId] ++ ["branding"])
        (d ++ [registration.claims.registrationId] ++ ["branding"]) fs' := by
      apply (h.leads_entry ["branding"]).entry (List.mem_singleton_self _)
      exact directory_of_tree h.tree hdirectory
    have hnode : ∀ name, fs'.node (d ++ [registration.claims.registrationId] ++ ["branding"] ++
        [name]) = (registrationTable registration).node ["branding", name] := by
      intro name
      rw [← h.tree, FileSystem.tree, List.append_assoc, List.append_assoc]
      simp
    have hstored := eval_verifyStored hchecked hleads ((hnode _).trans hicon)
      ((hnode _).trans hhero)
    obtain ⟨verified, rfl, hverified⟩ := (⟨⟨claims, _, _⟩, rfl, hstored⟩ :
      ∃ verified : VerifiedBranding, verified.claims = claims ∧ _ = Except.ok verified)
    refine ⟨some verified, ?_, .some ?_⟩
    · simp only [Option.map_some]
      rw [eval_done_bind_eq_ok_iff]
      refine ⟨encode installed.signed, ?_, ?_⟩
      · rw [Codecs.decode_encode]
        rfl
      · rw [(readOnly_verifyStored _ _ _ _ _ _ _).eval_bind, hverified]
        rfl
    · exact (verifySigned_eq_ok_iff.mp hchecked.verified).1

/-- What has been registered is loaded if its record is within the bound for a registration. -/
theorem eval_load_registered (h : Registered p d now registration fs fs')
    (hprepared : Prepared rules now fs registration signed keys nowUnix)
    (hgame : GameApart rules d (workingNames now registration.claims.registrationId) registration fs)
    (hstate : stateHome.isSome)
    (hnonempty : Codecs.registrationToVec (storedRegistration registration) ≠ [])
    (hbound : (Codecs.registrationToVec (storedRegistration registration)).length ≤
      MAX_REGISTRATION_BYTES) :
    ∃ loaded, eval device (load rules stateHome p registration.claims.registrationId now) fs' =
        .ok loaded ∧ loaded.claims = registration.claims ∧ loaded.game = registration.game ∧
      Option.Rel (fun installed verified =>
        IsCanonical verified.claims installed.signed.claims) registration.branding
          loaded.branding := by
  obtain ⟨state, rfl⟩ := Option.isSome_iff_exists.mp hstate
  obtain ⟨fs₁, hmade, hsame⟩ := h.elsewhere
  obtain ⟨branding, hbranding, hrel⟩ := eval_loadBranding_registered h hprepared
  obtain ⟨-, htrust, hupdate, hrecord⟩ := node_registrationTable registration
  have hnode : ∀ name, fs'.node (d ++ [registration.claims.registrationId] ++ [name]) =
      (registrationTable registration).node [name] := fun name => congrFun h.tree [name]
  have hordinary : Ordinary "registration.json" ∧ Ordinary "trust-store.json" ∧
      Ordinary "update-root.json" := by decide
  have hsafe : safeId registration.claims.registrationId :=
    (accepted_of_validate (verifySigned_eq_ok_iff.mp hprepared.verified).2.1).registrationId
  have hleads := h.leads_entry []
  refine ⟨⟨⟨registration.claims, registration.game, registration.gameRoot⟩,
    p ++ [registration.claims.registrationId] ++ ["trust-store.json"],
    p ++ [registration.claims.registrationId] ++ ["update-root.json"],
    p ++ [registration.claims.registrationId],
    state ++ [registration.claims.registrationId ++ ".json"], branding⟩, ?_, rfl, rfl, hrel⟩
  unfold load
  rw [eval_require_bind_eq_ok_iff]
  refine ⟨hsafe, ?_⟩
  rw [eval_withContext_bind_iff (readOnly_readRegular _ _)]
  refine ⟨_, (eval_readRegular_entry hleads hordinary.1 ((hnode _).trans hrecord)).mpr
    ⟨rfl, hnonempty, hbound⟩, ?_⟩
  rw [eval_done_bind_eq_ok_iff]
  refine ⟨storedRegistration registration, ?_, ?_⟩
  · rw [context_eq_ok_iff, io_eq_ok_iff, Codecs.fromSlice_toVec]
  rw [eval_require_bind_eq_ok_iff]
  refine ⟨.inr rfl, ?_⟩
  rw [eval_done_bind_eq_ok_iff]
  refine ⟨registration.registrationBytes, ?_, ?_⟩
  · rw [context_eq_ok_iff, io_eq_ok_iff]
    exact Codecs.decode_encode _
  rw [eval_done_bind_eq_ok_iff]
  refine ⟨signed, decodeSigned_eq_ok_iff.mpr ⟨hprepared.decoded, hprepared.canonical⟩, ?_⟩
  dsimp only
  rw [(readOnly_readRegular _ _).eval_bind_eq_ok_iff]
  refine ⟨_, (eval_readRegular_entry hleads hordinary.2.1 ((hnode _).trans htrust)).mpr
    ⟨rfl, hprepared.trustNonempty, hprepared.trustBound.trans (by decide)⟩, ?_⟩
  rw [(readOnly_readRegular _ _).eval_bind_eq_ok_iff]
  refine ⟨_, (eval_readRegular_entry hleads hordinary.2.2 ((hnode _).trans hupdate)).mpr
    ⟨rfl, hprepared.updateNonempty, hprepared.updateBound⟩, ?_⟩
  rw [(cautious_loadTrustStore _).readOnly.eval_bind_eq_ok_iff]
  refine ⟨keys, eval_loadTrustStore_entry hleads hordinary.2.1 ((hnode _).trans htrust)
    hprepared.trustBound hprepared.keyRing, ?_⟩
  rw [eval_done_bind_eq_ok_iff]
  refine ⟨nowUnix, hprepared.clock, ?_⟩
  rw [eval_done_bind_eq_ok_iff]
  refine ⟨registration.claims, ?_, ?_⟩
  · rw [context_eq_ok_iff, ofProtocol, Except.mapError_eq_ok_iff]
    exact hprepared.verified
  rw [eval_require_bind_eq_ok_iff]
  refine ⟨⟨rfl, hprepared.bound⟩, ?_⟩
  rw [eval_canonicalize_bind_iff]
  refine ⟨registration.gameRoot, (hgame.root fs₁ fs' hmade hsame).trans hprepared.gameRoot, ?_⟩
  rw [(cautious_resolveGame rules _ _ _ _).readOnly.eval_bind_eq_ok_iff]
  refine ⟨registration.game, eval_resolveGame_iff.mpr ⟨?_, hprepared.inside, ?_⟩, ?_⟩
  · exact (hgame.game fs₁ fs' hmade hsame).trans hprepared.game
  · rw [hgame.file fs₁ fs' hmade hsame]
    exact hprepared.isFile
  rw [(readOnly_loadBranding _ _ _ _ _).eval_bind_eq_ok_iff]
  refine ⟨branding, hbranding, ?_⟩
  rw [eval_done_bind_eq_ok_iff]
  refine ⟨state ++ [registration.claims.registrationId ++ ".json"], ?_, rfl⟩
  unfold statusPath
  rw [if_neg (not_not.mpr hsafe)]
  rfl

omit [Codecs] [Crates] in
/-- A game outside the registry is apart from it, if no links lead to it. -/
theorem gameApart_of_real {names : List String} (hroot : fs.Real registration.gameRoot)
    (hgame : fs.Real registration.game)
    (hjoin : join rules registration.gameRoot registration.claims.executableRelativePath =
      registration.game)
    (hrootOutside : ¬ d <+: registration.gameRoot) (hgameOutside : ¬ d <+: registration.game) :
    GameApart rules d names registration fs := by
  have hnode : ∀ {q fs₁ fs'}, fs.Real q → ¬ d <+: q → MadeAbove d fs fs₁ →
      Elsewhere d names fs₁ fs' → fs'.node q = fs.node q := by
    intro q fs₁ fs' hq houtside hmade hsame
    obtain ⟨n, hn, -⟩ := hq
    rw [hsame.outside houtside]
    rcases hmade q with hkept | ⟨-, hnone, -⟩
    · exact hkept
    · rw [hnone] at hn
      cases hn
  have hreal : ∀ {q fs₁ fs'}, fs.Real q → ¬ d <+: q → MadeAbove d fs fs₁ →
      Elsewhere d names fs₁ fs' → fs'.Real q := by
    intro q fs₁ fs' hq houtside hmade hsame
    obtain ⟨n, hn, hlink⟩ := hq
    have hsame' := hnode ⟨n, hn, hlink⟩ houtside hmade hsame
    exact ⟨n, by rwa [hsame'], hlink⟩
  constructor
  · intro fs₁ fs' hmade hsame
    rw [canonicalize_of_real (hreal hroot hrootOutside hmade hsame), canonicalize_of_real hroot]
  · intro fs₁ fs' hmade hsame
    rw [hjoin, canonicalize_of_real (hreal hgame hgameOutside hmade hsame),
      canonicalize_of_real hgame]
  · intro fs₁ fs' hmade hsame
    rw [FileSystem.metadataAt, FileSystem.metadataAt,
      locate_of_real (hreal hgame hgameOutside hmade hsame), locate_of_real hgame,
      Option.bind_some, Option.bind_some, hnode hgame hgameOutside hmade hsame]

/-- What has been registered is loaded and listed: its claims and the path of its executable are
the same, and so are the claims of its branding. -/
structure RoundTrip (rules : Platform.PathRules) (stateHome : Option Path) (registryRoot : Path)
    (now : Moment) (registration : PreparedRegistration) (claims : GameRegistrationClaimsV1)
    (fs : FileSystem) : Prop where
  loaded : ∃ loaded, eval device (load rules stateHome registryRoot claims.registrationId now) fs =
      .ok loaded ∧ loaded.claims = claims ∧ loaded.game = registration.game ∧
    Option.Rel (fun installed verified =>
      IsCanonical verified.claims installed.signed.claims) registration.branding loaded.branding
  listed : ∃ names, eval device (list registryRoot) fs = .ok names ∧ claims.registrationId ∈ names

omit [Crates] [Codecs] in
theorem head_of_mem_stagingNames {now : Moment} {name : String} (h : name ∈ stagingNames now) :
    name.toList.head? = some '.' := by
  unfold stagingNames at h
  cases hclock : now.sinceEpoch with
  | none =>
    rw [hclock] at h
    cases h
  | some nonce =>
    rw [hclock] at h
    obtain rfl := List.mem_singleton.mp h
    simp [stagingName]

theorem wp_installRegistration (mayFail : FsOp → Bool) {args : InstallRegistrationArgs}
    {ok : GameRegistrationClaimsV1 → FileSystem → Prop}
    (hprepared : eval device (prepareRegistration rules args now) fs = .ok registration)
    (h : wp device mayFail (fun _ => True) (outcome ok fun _ _ => True)
      (installPrepared args.registryRoot args.replace now registration) fs) :
    wp device mayFail (fun _ => True) (outcome ok fun _ _ => True)
      (installRegistration rules args now) fs := by
  apply (cautious_prepareRegistration rules args now).wp_bind trivial
  · intro found hfound
    obtain rfl := Except.ok.inj (hfound.symm.trans hprepared)
    exact h
  · exact fun _ => trivial

/-- Registering and loading fit together if the name does not begin with a dot and the record is
within the bound for a registration. -/
theorem roundTrip_iff {mayFail : FsOp → Bool} {args : InstallRegistrationArgs}
    {claims : GameRegistrationClaimsV1} {schedule : List Verdict}
    (hroot : ∀ names, Reaches names args.registryRoot d fs)
    (hprepared : eval device (prepareRegistration rules args now) fs = .ok registration)
    (hgame : GameApart rules d (workingNames now registration.claims.registrationId) registration fs)
    (hstate : stateHome.isSome)
    (hrun : run device mayFail (installRegistration rules args now) schedule fs =
      .finished (.ok claims) fs') :
    RoundTrip rules stateHome args.registryRoot now registration claims fs' ↔
      registration.claims.registrationId.toList.head? ≠ some '.' ∧
        Codecs.registrationToVec (storedRegistration registration) ≠ [] ∧
        (Codecs.registrationToVec (storedRegistration registration)).length ≤
          MAX_REGISTRATION_BYTES := by
  obtain ⟨signed, keys, nowUnix, hchecked⟩ := prepared_of_eval hprepared
  have hsafe : safeId registration.claims.registrationId :=
    (accepted_of_validate (verifySigned_eq_ok_iff.mp hchecked.verified).2.1).registrationId
  have hclaims : claims = registration.claims := by
    have hfinished := wp_sound (wp_installRegistration mayFail hprepared
      (wp_installPrepared_claims registration)) schedule
    rwa [hrun] at hfinished
  subst hclaims
  by_cases hdot : registration.claims.registrationId.toList.head? = some '.'
  · constructor
    · rintro ⟨-, names, hnames, hlisted⟩
      have hname := listed_of_mem_list hnames hlisted
      simp [listed, hdot] at hname
    · exact fun h => absurd hdot h.1
  · have hregistered : Registered args.registryRoot d now registration fs fs' := by
      have hapart : registration.claims.registrationId ∉ stagingNames now :=
        fun hmem => hdot (head_of_mem_stagingNames hmem)
      have hfinished := wp_sound (wp_installRegistration mayFail hprepared
        (wp_installPrepared_registered (hroot _) hapart)) schedule
      rw [hrun] at hfinished
      exact hfinished.2
    constructor
    · rintro ⟨⟨loaded, hloaded, -⟩, -⟩
      unfold load at hloaded
      rw [eval_require_bind_eq_ok_iff, eval_withContext_bind_iff (readOnly_readRegular _ _)]
        at hloaded
      obtain ⟨-, bytes, hbytes, -⟩ := hloaded
      have hrecord := (congrFun hregistered.tree ["registration.json"]).trans
        (node_registrationTable registration).2.2.2
      exact ⟨hdot, ((eval_readRegular_entry (hregistered.leads_entry []) (by decide) hrecord).mp
        hbytes).2⟩
    · rintro ⟨-, hnonempty, hbound⟩
      refine ⟨eval_load_registered hregistered hchecked hgame hstate hnonempty hbound, ?_⟩
      apply exists_list hregistered.leads
      · have hdirectory := directory_of_tree hregistered.tree (node_registrationTable registration).1
        rwa [List.append_nil] at hdirectory
      · rw [listed, hsafe]
        simpa using hdot

end

open SampleRegistry in
theorem roundTrip_sample : ∃ registration claims fs',
    run device (fun _ => true) (update Sample.unix updateArgs moment) [] registry =
      .finished (.ok claims) fs' ∧
    RoundTrip Sample.unix (some ["state"]) ["registry"] moment registration claims fs' := by
  have hok : (exec device (installRegistration Sample.unix updateArgs moment) registry).1 =
      .ok (claimsFor "beta") := by decide +kernel
  have hfacts : (eval device (prepareRegistration Sample.unix updateArgs moment) registry).map
      (fun registration => (registration.claims, registration.gameRoot, registration.game,
        storedRegistration registration)) =
      .ok (claimsFor "beta", ["game"], ["game", "chess.bin"], recordFor betaText) := by
    decide +kernel
  obtain ⟨registration, hprepared, hfields⟩ := Except.map_eq_ok_iff.mp hfacts
  simp only [Prod.mk.injEq] at hfields
  obtain ⟨hclaims, hgameRoot, hgame, hstored⟩ := hfields
  have hrun : run device (fun _ => true) (installRegistration Sample.unix updateArgs moment) []
      registry = .finished (.ok (claimsFor "beta"))
        (exec device (installRegistration Sample.unix updateArgs moment) registry).2 := by
    rw [run_nil, hok]
  have hapart : GameApart Sample.unix ["registry"]
      (workingNames moment registration.claims.registrationId) registration registry := by
    apply gameApart_of_real
    · rw [hgameRoot]
      exact ⟨_, rfl, id⟩
    · rw [hgame]
      exact ⟨_, rfl, id⟩
    · rw [hgameRoot, hgame, hclaims]
      decide +kernel
    · rw [hgameRoot]
      decide
    · rw [hgame]
      decide
  refine ⟨registration, _, _, hrun, ?_⟩
  apply (roundTrip_iff reaches_registry hprepared hapart rfl hrun).mpr
  rw [hclaims, hstored]
  decide +kernel

namespace HiddenGame

open SampleRegistry (publisherKey claimsFor trustBytes updateBytes updateArgs moment recordFor
  recordBytes stableText betaText)

/-- The name of the registration begins with a dot. -/
def claims : GameRegistrationClaimsV1 := { claimsFor "stable" with registrationId := ".chess" }

def signature : Signature := ⟨[140, 98, 122, 96, 108, 29, 61, 157, 203, 31, 251, 125, 153, 174, 188,
  122, 70, 228, 169, 182, 157, 209, 236, 127, 255, 27, 56, 67, 137, 179, 109, 247, 248, 208, 21, 213,
  251, 56, 55, 38, 142, 129, 148, 212, 49, 145, 42, 184, 208, 48, 158, 200, 133, 178, 44, 60, 206,
  246, 194, 8, 245, 1, 145, 3], rfl⟩

def signatureOf (key : VerifyingKey) (message : Bytes) : Signature :=
  if key = publisherKey ∧ message = domain "certael.agent.registration.v1" ++ encode claims
  then signature
  else SampleRegistry.signatureOf key message

scoped instance crates : Crates where
  sha256 := SampleRegistry.crates.sha256
  verifyingKey := SampleRegistry.crates.verifyingKey
  sign seed message := signatureOf (SampleRegistry.crates.verifyingKey seed) message
  verify key message signature := decide (signatureOf key message = signature)
  verify_sign _ _ := decide_eq_true rfl
  Version := ℕ
  versionOrder := inferInstance
  parseVersion _ := none

def registrationBytes : Bytes :=
  encode ({ claims := encode claims, signature := signature.1, keyId := "key" } :
    SignedGameRegistrationV1)

def registrationRest : String :=
  "q8BCAESBi5jaGVzcxoGc3R1ZGlvIgZzdHVkaW8qBWNoZXNzMgRsaXZlOgljaGVzcy5iaW5CINf1ucYfiquBO" ++
    "9UicjI2C3YSyJR7wjDdeBhqoAK8j2udSiBEE2+jVbNnihFGrRb36GSelPtPwh/nfoMQwGD2HKr/ilIVaHR0c" ++
    "HM6Ly9leGFtcGxlLmNvbS9tWhVodHRwczovL2V4YW1wbGUuY29tL3RiBnN0YWJsZXDQDxJAjGJ6YGwdPZ3LH" ++
    "/t9ma68ekbkqbad0ex//xs4Q4mzbff40BXV+zg3Jo6BlNQxkSq40DCeyIWyLDzO9sII9QGRAxoDa2V5"

def registrationText : String := "C" ++ registrationRest

def base64Encode (bytes : Bytes) : String :=
  if bytes = registrationBytes then registrationText else SampleRegistry.base64Encode bytes

def base64Decode (text : String) : Option Bytes :=
  if text = registrationText then some registrationBytes else SampleRegistry.base64Decode text

theorem base64Decode_base64Encode (bytes : Bytes) :
    base64Decode (base64Encode bytes) = some bytes := by
  have hstable : stableText ≠ registrationText := by decide +kernel
  have hbeta : betaText ≠ registrationText := by decide +kernel
  have hhex : ∀ text, "=" ++ text ≠ registrationText := by
    intro text h
    have hhead := congrArg (fun t => t.toList.head?) h
    simp [registrationText] at hhead
  have hother : SampleRegistry.base64Encode bytes ≠ registrationText := by
    unfold SampleRegistry.base64Encode
    by_cases h : bytes = SampleRegistry.stableBytes
    · rwa [if_pos h]
    · rw [if_neg h]
      by_cases h : bytes = SampleRegistry.betaBytes
      · rwa [if_pos h]
      · rw [if_neg h]
        exact hhex _
  unfold base64Encode
  by_cases h : bytes = registrationBytes
  · rw [if_pos h, base64Decode, if_pos rfl, h]
  · rw [if_neg h, base64Decode, if_neg hother, SampleRegistry.base64Decode_base64Encode]

def registrationToVec (record : StoredRegistration) : Bytes :=
  if record = recordFor registrationText then recordBytes registrationText
  else SampleRegistry.registrationToVec record

def registrationFromSlice (bytes : Bytes) : Option StoredRegistration :=
  if bytes = recordBytes registrationText then some (recordFor registrationText)
  else SampleRegistry.registrationFromSlice bytes

theorem registrationFromSlice_registrationToVec (record : StoredRegistration) :
    registrationFromSlice (registrationToVec record) = some record := by
  have hstable : recordBytes stableText ≠ recordBytes registrationText := by decide +kernel
  have hbeta : recordBytes betaText ≠ recordBytes registrationText := by decide +kernel
  have hzeros : ∀ n, List.replicate n (0 : UInt8) ≠ recordBytes registrationText := by
    intro n h
    have hbrace : (123 : UInt8) ∈ List.replicate n 0 := by
      rw [h]
      exact List.mem_cons_self ..
    exact absurd (List.eq_of_mem_replicate hbrace) (by decide)
  have hother : SampleRegistry.registrationToVec record ≠ recordBytes registrationText := by
    unfold SampleRegistry.registrationToVec
    by_cases h : record = recordFor stableText
    · rwa [if_pos h]
    · rw [if_neg h]
      by_cases h : record = recordFor betaText
      · rwa [if_pos h]
      · rw [if_neg h]
        exact hzeros _
  unfold registrationToVec
  by_cases h : record = recordFor registrationText
  · rw [if_pos h, registrationFromSlice, if_pos rfl, h]
  · rw [if_neg h, registrationFromSlice, if_neg hother,
      SampleRegistry.registrationFromSlice_registrationToVec]

scoped instance codecs : Codecs where
  trustStoreFromSlice := SampleRegistry.codecs.trustStoreFromSlice
  registrationToVec := registrationToVec
  registrationFromSlice := registrationFromSlice
  fromSlice_toVec := registrationFromSlice_registrationToVec
  base64Encode := base64Encode
  base64Decode := base64Decode
  decode_encode := base64Decode_base64Encode
  verifyingKeyFromBytes := some
  readPng _ _ := none

def registry : FileSystem :=
  FileSystem.ofTable
    [([], .directory true), (["game"], .directory true),
      (["game", "chess.bin"], .file [103, 97, 109, 101] 0o755), (["input"], .directory true),
      (["input", "registration.bin"], .file registrationBytes 0o644),
      (["input", "trust-store.json"], .file trustBytes 0o644),
      (["input", "update-root.json"], .file updateBytes 0o644), (["registry"], .directory true)]
    (by decide) (by decide)

end HiddenGame

open HiddenGame in
/-- The game is registered, and is not listed. -/
theorem not_roundTrip : ∃ fs',
    run device (fun _ => false) (register Sample.unix SampleRegistry.updateArgs SampleRegistry.moment)
      [] registry = .finished (.ok claims) fs' ∧
    ∀ registration, ¬ RoundTrip Sample.unix (some ["state"]) ["registry"] SampleRegistry.moment
      registration claims fs' := by
  have hok : (exec device (register Sample.unix SampleRegistry.updateArgs SampleRegistry.moment)
      registry).1 = .ok claims := by decide +kernel
  have hlist : eval device (list ["registry"]) (exec device (register Sample.unix
      SampleRegistry.updateArgs SampleRegistry.moment) registry).2 = .ok [] := by decide +kernel
  refine ⟨(exec device (register Sample.unix SampleRegistry.updateArgs SampleRegistry.moment)
    registry).2, ?_, ?_⟩
  · rw [run_nil, hok]
  · rintro registration ⟨-, names, hnames, hlisted⟩
    rw [hlist] at hnames
    obtain rfl := Except.ok.inj hnames
    cases hlisted

end CertaelAgent.Agent
