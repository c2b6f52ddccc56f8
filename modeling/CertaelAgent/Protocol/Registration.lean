import CertaelAgent.Protocol.Signatures

/-!
# Game registrations and branding

The validators of the two objects a publisher signs for an installed game. A registration names
its files by relative paths, and two names are the same file when they agree after backslashes
are read as slashes and ASCII letters in lower case.
-/

namespace CertaelAgent.Protocol

open ProtoWire

/-- `char::is_control`, the category Cc. -/
def isControl (c : Char) : Bool := c.toNat < 32 || (127 ≤ c.toNat && c.toNat < 160)

/-- `char::is_whitespace`, the property White_Space. -/
def isWhitespace (c : Char) : Bool :=
  (9 ≤ c.toNat && c.toNat ≤ 13) || c.toNat == 32 || c.toNat == 0x85 || c.toNat == 0xa0 ||
    c.toNat == 0x1680 || (0x2000 ≤ c.toNat && c.toNat ≤ 0x200a) || c.toNat == 0x2028 ||
    c.toNat == 0x2029 || c.toNat == 0x202f || c.toNat == 0x205f || c.toNat == 0x3000

/-- `str::trim`. -/
def trim (value : String) : String :=
  String.ofList (((value.toList.dropWhile isWhitespace).reverse.dropWhile isWhitespace).reverse)

/-- Marks that change the direction of the text around them. -/
def isDirectionMark (c : Char) : Bool :=
  c.toNat == 0x61c || c.toNat == 0x200e || c.toNat == 0x200f ||
    (0x202a ≤ c.toNat && c.toNat ≤ 0x202e) || (0x2066 ≤ c.toNat && c.toNat ≤ 0x2069)

def safeDisplay (value : String) (maximum : ℕ) : Bool :=
  value != "" && trim value == value && value.toList.length ≤ maximum &&
    !value.toList.any fun c => isControl c || isDirectionMark c

def httpsUrl (value : String) : Bool :=
  len value ≤ 2048 && "https://".toList.isPrefixOf value.toList &&
    (value.toList.drop 8).contains '.' && !value.toList.any isControl

def safeArguments (values : List String) : Bool :=
  values.length ≤ 32 && (values.map len).sum ≤ 4096 &&
    values.all fun value => value != "" && len value ≤ 512 && !value.toList.any isControl

/-- `replace('\\', "/")`. -/
def forwardSlashes (value : String) : String :=
  String.ofList (value.toList.map fun c => if c = '\\' then '/' else c)

/-- What a registration takes two paths of one file to agree in. -/
def pathIdentity (value : String) : String := toAsciiLowercase (forwardSlashes value)

/-- Walks the files with the identities seen so far; a bad entry or a repeated one ends it. -/
def registeredPaths : List String → List RegisteredGameFileV1 → Option (List String)
  | paths, [] => some paths
  | paths, file :: files =>
    if ¬ safeRelativePath file.relativePath
        ∨ file.sha256.length ≠ 32
        ∨ pathIdentity file.relativePath ∈ paths then none
    else registeredPaths (pathIdentity file.relativePath :: paths) files

def validateGameRegistration (claims : GameRegistrationClaimsV1) (nowUnix : Int64) :
    Except ProtocolError Unit :=
  if claims.protocolVersion ≠ PROTOCOL_VERSION
      ∨ ¬ identifier claims.registrationId
      ∨ ¬ identifier claims.publisherId
      ∨ ¬ identifier claims.tenantId
      ∨ ¬ identifier claims.gameId
      ∨ ¬ identifier claims.environmentId
      ∨ ¬ safeRelativePath claims.executableRelativePath
      ∨ claims.trustStoreSha256.length ≠ 32
      ∨ claims.updateRootSha256.length ≠ 32
      ∨ ¬ httpsUrl claims.updateMetadataUrl
      ∨ ¬ httpsUrl claims.updateTargetsUrl
      ∨ ¬ (claims.updateChannel = "stable" ∨ claims.updateChannel = "beta")
      ∨ nowUnix + 30 < claims.notBeforeUnix
      ∨ claims.expiresAtUnix ≤ nowUnix
      ∨ claims.expiresAtUnix ≤ claims.notBeforeUnix then
    .error (.invalidField "game_registration")
  else if 4096 < claims.registeredFiles.length then .error (.invalidField "registered_files")
  else match registeredPaths [] claims.registeredFiles with
    | none => .error (.invalidField "registered_files")
    | some paths =>
      if (claims.repairExecutableRelativePath ≠ ""
            ∧ (¬ safeRelativePath claims.repairExecutableRelativePath
              ∨ pathIdentity claims.repairExecutableRelativePath ∉ paths))
          ∨ (claims.repairExecutableRelativePath = "" ∧ claims.repairArguments ≠ [])
          ∨ ¬ safeArguments claims.repairArguments
          ∨ ¬ safeArguments claims.offlineArguments
          ∨ (¬ claims.offlinePlayAllowed ∧ claims.offlineArguments ≠ []) then
        .error (.invalidField "launch_recovery")
      else .ok ()

/-- The checks that `verify_branding_manifest` makes before it looks at the signature. -/
def validateBrandingManifest (claims : BrandingManifestClaimsV1) (nowUnix : Int64) :
    Except ProtocolError Unit :=
  if claims.protocolVersion ≠ PROTOCOL_VERSION
      ∨ ¬ identifier claims.registrationId
      ∨ ¬ identifier claims.gameId
      ∨ ¬ safeDisplay claims.displayName 96
      ∨ ¬ safeDisplay claims.publisherName 128
      ∨ ¬ safeRelativePath claims.iconRelativePath
      ∨ ¬ ".png".toList <:+ (toAsciiLowercase claims.iconRelativePath).toList
      ∨ claims.iconSha256.length ≠ 32
      ∨ decide (claims.heroRelativePath = "") ≠ claims.heroSha256.isEmpty
      ∨ (claims.heroRelativePath ≠ ""
        ∧ (¬ safeRelativePath claims.heroRelativePath
          ∨ ¬ ".png".toList <:+ (toAsciiLowercase claims.heroRelativePath).toList
          ∨ claims.heroSha256.length ≠ 32))
      ∨ nowUnix + 30 < claims.notBeforeUnix
      ∨ claims.expiresAtUnix ≤ nowUnix
      ∨ claims.expiresAtUnix ≤ claims.notBeforeUnix then
    .error (.invalidField "branding_manifest")
  else .ok ()

theorem toLower_eq_iff {c s : Char} (hs : s = '/' ∨ s = '\\') : c.toLower = s ↔ c = s := by
  have hsmall : s.toNat < 65 ∨ s.toNat = 92 := by
    rcases hs with rfl | rfl <;> decide
  unfold Char.toLower
  split_ifs with hupper
  · have hupper' : 65 ≤ c.toNat ∧ c.toNat ≤ 90 := hupper
    constructor
    · intro h
      have hcode : (c.val + ('a'.val - 'A'.val)).toNat = s.toNat := congrArg Char.toNat h
      have hstep : ('a'.val - 'A'.val).toNat = 32 := by decide
      have hvalue : c.val.toNat = c.toNat := rfl
      rw [UInt32.toNat_add] at hcode
      omega
    · rintro rfl
      omega
  · exact Iff.rfl

theorem pathIdentity_eq (value : String) : pathIdentity value =
    String.ofList ((value.toList.map Char.toLower).map fun c => if c = '\\' then '/' else c) := by
  unfold pathIdentity forwardSlashes toAsciiLowercase
  congr 1
  rw [String.toList_ofList, List.map_map, List.map_map]
  apply List.map_congr_left
  intro c _
  simp only [Function.comp_apply, toLower_eq_iff (.inr rfl)]
  split_ifs with hc
  · rfl
  · rfl

theorem registeredPaths_eq_some_iff {files : List RegisteredGameFileV1} {before paths : List String} :
    registeredPaths before files = some paths ↔
      (∀ file ∈ files, safeRelativePath file.relativePath ∧ file.sha256.length = 32) ∧
        (files.map fun file => pathIdentity file.relativePath).Nodup ∧
        (∀ file ∈ files, pathIdentity file.relativePath ∉ before) ∧
        paths = (files.map fun file => pathIdentity file.relativePath).reverse ++ before := by
  induction files generalizing before with
  | nil =>
    simp only [registeredPaths, Option.some.injEq, List.not_mem_nil, false_implies, implies_true,
      List.map_nil, List.nodup_nil, List.reverse_nil, List.nil_append, true_and]
    exact eq_comm
  | cons file files ih =>
    unfold registeredPaths
    split_ifs with hbad
    · simp only [List.forall_mem_cons, List.map_cons, List.nodup_cons, false_iff]
      tauto
    · simp only [not_or, not_not] at hbad
      rw [ih]
      simp only [List.forall_mem_cons, List.map_cons, List.nodup_cons, List.mem_map, not_exists,
        not_and, List.reverse_cons, List.append_assoc, List.singleton_append]
      constructor
      · rintro ⟨hfiles, hnodup, hnew, hpaths⟩
        have hother : ∀ f ∈ files, pathIdentity f.relativePath ≠ pathIdentity file.relativePath :=
          fun f hf he => hnew f hf (he ▸ List.mem_cons_self ..)
        exact ⟨⟨⟨hbad.1, hbad.2.1⟩, hfiles⟩, ⟨hother, hnodup⟩,
          ⟨hbad.2.2, fun f hf hmem => hnew f hf (List.mem_cons_of_mem _ hmem)⟩, hpaths⟩
      · rintro ⟨⟨_, hfiles⟩, ⟨hother, hnodup⟩, ⟨_, hnew⟩, hpaths⟩
        refine ⟨hfiles, hnodup, fun f hf hmem => ?_, hpaths⟩
        rcases List.mem_cons.mp hmem with he | hbefore
        · exact hother f hf he
        · exact hnew f hf hbefore

/-- What the rest of the program relies on in an accepted registration. -/
structure GameRegistrationClaimsV1.Accepted (claims : GameRegistrationClaimsV1) : Prop where
  registrationId : identifier claims.registrationId
  executable : safeRelativePath claims.executableRelativePath
  fileCount : claims.registeredFiles.length ≤ 4096
  files : ∀ file ∈ claims.registeredFiles,
    safeRelativePath file.relativePath ∧ file.sha256.length = 32
  distinct : (claims.registeredFiles.map fun file => pathIdentity file.relativePath).Nodup
  repair : claims.repairExecutableRelativePath ≠ "" →
    safeRelativePath claims.repairExecutableRelativePath ∧
      ∃ file ∈ claims.registeredFiles,
        pathIdentity file.relativePath = pathIdentity claims.repairExecutableRelativePath

theorem accepted_of_validate {claims : GameRegistrationClaimsV1} {nowUnix : Int64}
    (h : validateGameRegistration claims nowUnix = .ok ()) : claims.Accepted := by
  unfold validateGameRegistration at h
  split_ifs at h with hfields hcount
  cases hpaths : registeredPaths [] claims.registeredFiles with
  | none => simp [hpaths] at h
  | some paths =>
    simp only [hpaths] at h
    split_ifs at h with hrecovery
    obtain ⟨hfiles, hdistinct, -, rfl⟩ := registeredPaths_eq_some_iff.mp hpaths
    simp only [not_or, not_not, not_and, List.append_nil, List.mem_reverse, List.mem_map]
      at hfields hrecovery
    exact {
      registrationId := hfields.2.1
      executable := hfields.2.2.2.2.2.2.1
      fileCount := by omega
      files := hfiles
      distinct := hdistinct
      repair := fun hne => hrecovery.1 hne }

variable [Crates]

def REGISTRATION_DOMAIN : Bytes := domain "certael.agent.registration.v1"
def BRANDING_DOMAIN : Bytes := domain "certael.agent.branding.v1"

def verifyGameRegistration (signed : SignedGameRegistrationV1) (keys : VerificationKeyRing)
    (nowUnix : Int64) : Except ProtocolError GameRegistrationClaimsV1 :=
  verifySigned GameRegistrationClaimsV1 REGISTRATION_DOMAIN validateGameRegistration signed keys
    nowUnix

def verifyBrandingManifest (signed : SignedBrandingManifestV1) (keys : VerificationKeyRing)
    (nowUnix : Int64) : Except ProtocolError BrandingManifestClaimsV1 :=
  verifySigned BrandingManifestClaimsV1 BRANDING_DOMAIN validateBrandingManifest signed keys nowUnix

end CertaelAgent.Protocol
