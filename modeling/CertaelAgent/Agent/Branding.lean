import CertaelAgent.Agent.RegisteredExecutables
import CertaelAgent.Agent.RegularFiles

/-!
# Trust stores and branding

A registration comes with a trust store and may come with branding: a signed manifest with a
square icon and a wide hero image. The same checks run when a registration is installed and when
it is loaded, on files at different places. What JSON texts, base64 texts and PNG files hold is up
to the crates that read them.
-/

namespace CertaelAgent.Agent

open ProtoWire Protocol Files Program Anyhow

structure TrustKeyFile where
  keyId : String
  publicKeyHex : String
  notBeforeUnix : Int64
  notAfterUnix : Int64
  revoked : Bool
deriving DecidableEq, Repr

/-- What is recorded of a registered game besides its trust material. -/
structure StoredRegistration where
  formatVersion : UInt32
  signedRegistrationBase64 : String
  gameRoot : Path
  signedBrandingBase64 : Option String
deriving DecidableEq, Repr

inductive ColorType
  | rgb
  | rgba
  | other
deriving DecidableEq, Repr

/-- What a PNG reader finds: the head of the image, the size of the decoded pixels, and the colors
of the first frame once it is decoded. -/
structure PngReader where
  width : ℕ
  height : ℕ
  animationControl : Bool
  outputBufferSize : Option ℕ
  nextFrame : Option ColorType
deriving DecidableEq, Repr

/-- The crates `serde_json`, `base64`, `png` and the key format of `ed25519-dalek`. Of the first
two it is used that what was written is read back. -/
class Codecs where
  trustStoreFromSlice : Bytes → Option (List TrustKeyFile)
  registrationToVec : StoredRegistration → Bytes
  registrationFromSlice : Bytes → Option StoredRegistration
  fromSlice_toVec : ∀ record, registrationFromSlice (registrationToVec record) = some record
  base64Encode : Bytes → String
  base64Decode : String → Option Bytes
  decode_encode : ∀ bytes, base64Decode (base64Encode bytes) = some bytes
  verifyingKeyFromBytes : ByteArrayOf 32 → Option VerifyingKey
  readPng : ℕ → Bytes → Option PngReader

/-- An error of the protocol crate. -/
def ofProtocol {α : Type} (result : Except ProtocolError α) : Result α :=
  result.mapError fun e => .message e.message

/-- A message that has to be written as it is encoded. -/
def decodeSigned (bytes : Bytes) (malformed nonCanonical : String) : Result SignedEnvelope := do
  let signed ← context malformed (io (decode (M := SignedEnvelope) bytes))
  if encode signed ≠ bytes then bail nonCanonical else return signed

section

variable [Codecs]

/-! ## Trust stores -/

def trustKey (value : TrustKeyFile) : Result VerificationKey := do
  let bytes ← context "Agent trust key is not valid hexadecimal" (io (Hex.decode value.publicKeyHex))
  if h : bytes.length = 32 then do
    let key ← context "Agent trust key is invalid" (io (Codecs.verifyingKeyFromBytes ⟨bytes, h⟩))
    return {
      keyId := value.keyId
      key := key
      notBeforeUnix := value.notBeforeUnix
      notAfterUnix := value.notAfterUnix
      revoked := value.revoked }
  else bail "Agent trust key must be 32 bytes"

/-- The keys in the bytes of a trust store. -/
def keyRing (input : Bytes) : Result VerificationKeyRing := do
  let parsed ← context "Agent trust store is not valid JSON" (io (Codecs.trustStoreFromSlice input))
  let keys ← parsed.mapM trustKey
  context "Agent trust store is invalid" (ofProtocol (VerificationKeyRing.new keys))

def loadTrustStore (path : Path) : AgentProgram VerificationKeyRing := do
  let metadata ← expect (.context "Agent trust store does not exist" .io) (symlinkMetadata path)
  require (.message "Agent trust store must be a regular file no larger than 64 KiB")
    (metadata.fileType = .file ∧ metadata.len ≤ 64 * 1024)
  require (.message "Agent trust store must not be group- or world-writable")
    (metadata.mode &&& 0o022 = 0)
  let input ← expect (.context "cannot read Agent trust store" .io) (read path)
  done (keyRing input)

/-! ## Images -/

inductive PngRole
  | icon
  | hero
deriving DecidableEq, Repr

def MAX_MANIFEST_BYTES : ℕ := 64 * 1024
def MAX_ICON_FILE_BYTES : ℕ := 4 * 1024 * 1024
def MAX_HERO_FILE_BYTES : ℕ := 12 * 1024 * 1024

def PngRole.maximumDecoded : PngRole → ℕ
  | .icon => 16 * 1024 * 1024
  | .hero => 48 * 1024 * 1024

/-- Icons are squares; heroes are one and a half to 2.4 times as wide as they are high. -/
def PngRole.DimensionsValid : PngRole → ℕ → ℕ → Prop
  | .icon, width, height => 32 ≤ width ∧ width ≤ 2048 ∧ width = height
  | .hero, width, height => 640 ≤ width ∧ width ≤ 3840 ∧ 320 ≤ height ∧ height ≤ 2160 ∧
      3 * height ≤ 2 * width ∧ 5 * width ≤ 12 * height

instance (role : PngRole) (width height : ℕ) : Decidable (role.DimensionsValid width height) := by
  cases role <;> unfold PngRole.DimensionsValid <;> infer_instance

def verifyPng (bytes : Bytes) (role : PngRole) : Result (ℕ × ℕ) := do
  let reader ← context "branding icon is not a valid PNG"
    (io (Codecs.readPng role.maximumDecoded bytes))
  if ¬ role.DimensionsValid reader.width reader.height ∨ reader.animationControl then
    bail "branding PNG dimensions or animation are unsupported"
  else do
    let size ← context "branding PNG decoded size is invalid" (io reader.outputBufferSize)
    if size = 0 ∨ role.maximumDecoded < size then
      bail "branding PNG decoded size exceeds its limit"
    else do
      let color ← context "branding PNG pixel data is invalid" (io reader.nextFrame)
      if color = .other then bail "branding PNG must decode to RGB or RGBA"
      else return (reader.width, reader.height)

end

/-! ## Branding manifests -/

structure InstalledBranding where
  signed : SignedBrandingManifestV1
  icon : Bytes
  hero : Option Bytes
deriving DecidableEq

structure VerifiedBrandingImage where
  path : Path
deriving DecidableEq, Repr

structure VerifiedBranding where
  claims : BrandingManifestClaimsV1
  icon : VerifiedBrandingImage
  hero : Option VerifiedBrandingImage
deriving DecidableEq, Repr

def validateBinding (claims : BrandingManifestClaimsV1) (registrationId gameId : String) :
    Result Unit :=
  if claims.registrationId ≠ registrationId ∨ claims.gameId ≠ gameId then
    bail "branding manifest is bound to another game registration"
  else .ok ()

/-- A path all of whose components are names. -/
def safeRelative (rules : Platform.PathRules) (value : String) : Bool :=
  value != "" && len value ≤ 512 && (rules.components value).all fun
    | .normal _ => true
    | _ => false

section

variable [Crates] [Codecs]

/-- An image with the digest of the manifest. -/
def checkImage (bytes digest : Bytes) (role : PngRole) (mismatch : String) : Result Unit :=
  if (Crates.sha256 bytes).1 ≠ digest then bail mismatch
  else do
    let _ ← verifyPng bytes role
    return ()

/-- The manifest in its bytes, checked and bound to a registration. -/
def brandingClaims (signed : SignedBrandingManifestV1) (keys : VerificationKeyRing)
    (registrationId gameId rejected : String) (nowUnix : Int64) : Result BrandingManifestClaimsV1 := do
  let claims ← context rejected (ofProtocol (verifyBrandingManifest signed keys nowUnix))
  validateBinding claims registrationId gameId
  return claims

/-- The bytes of an image below the asset root. -/
def installedImage (rules : Platform.PathRules) (root : Path) (relativePath : String)
    (maximum : ℕ) (unavailable escapes invalid : String) : AgentProgram Bytes := do
  let path ← expect (.context unavailable .io) (canonicalize (join rules root relativePath))
  require (.message escapes) (root <+: path)
  withContext invalid (readRegular path maximum)

def verifyInstall (rules : Platform.PathRules) (signedManifestPath brandingRoot : Path)
    (keys : VerificationKeyRing) (registrationId gameId : String) (nowUnix : Int64) :
    AgentProgram InstalledBranding := do
  let manifest ← withContext "signed branding manifest is invalid"
    (readRegular signedManifestPath MAX_MANIFEST_BYTES)
  let signed ← done (decodeSigned manifest "signed branding manifest is malformed"
    "signed branding manifest is not canonical")
  let claims ← done (brandingClaims signed keys registrationId gameId
    "signed branding manifest was rejected" nowUnix)
  let root ← expect (.context "branding asset root is unavailable" .io) (canonicalize brandingRoot)
  let directory ← isDir root
  require (.message "branding asset root or icon path is invalid")
    (directory = true ∧ safeRelative rules claims.iconRelativePath)
  let icon ← installedImage rules root claims.iconRelativePath MAX_ICON_FILE_BYTES
    "signed branding icon is unavailable" "signed branding icon escapes its asset root"
    "signed branding icon is invalid"
  done (checkImage icon claims.iconSha256 .icon "signed branding icon digest does not match")
  if claims.heroRelativePath = "" then return { signed := signed, icon := icon, hero := none }
  else do
    let hero ← installedImage rules root claims.heroRelativePath MAX_HERO_FILE_BYTES
      "signed branding hero is unavailable" "signed branding hero escapes its asset root"
      "signed branding hero is invalid"
    done (checkImage hero claims.heroSha256 .hero "signed branding hero digest does not match")
    return { signed := signed, icon := icon, hero := some hero }

def verifyStored (signedBytes : Bytes) (iconPath heroPath : Path) (keys : VerificationKeyRing)
    (registrationId gameId : String) (nowUnix : Int64) : AgentProgram VerifiedBranding := do
  require (.message "stored branding manifest size is invalid")
    (signedBytes ≠ [] ∧ signedBytes.length ≤ MAX_MANIFEST_BYTES)
  let signed ← done (decodeSigned signedBytes "stored branding manifest is malformed"
    "stored branding manifest is not canonical")
  let claims ← done (brandingClaims signed keys registrationId gameId
    "stored branding manifest was rejected" nowUnix)
  let icon ← withContext "stored branding icon is invalid" (readRegular iconPath MAX_ICON_FILE_BYTES)
  done (checkImage icon claims.iconSha256 .icon "stored branding icon digest does not match")
  if claims.heroRelativePath = "" then
    let unsigned ← pathExists heroPath
    require (.message "stored branding has an unsigned hero image") (unsigned = false)
    return { claims := claims, icon := ⟨iconPath⟩, hero := none }
  else do
    let hero ← withContext "stored branding hero is invalid"
      (readRegular heroPath MAX_HERO_FILE_BYTES)
    done (checkImage hero claims.heroSha256 .hero "stored branding hero digest does not match")
    return { claims := claims, icon := ⟨iconPath⟩, hero := some ⟨heroPath⟩ }

/-! ## What is read is checked -/

omit [Crates] in
theorem cautious_loadTrustStore (path : Path) : Cautious device (loadTrustStore path) := by
  apply (cautious_symlinkMetadata _ _).bind
  intro metadata
  apply (Cautious.require _ _).bind
  intro _
  apply (Cautious.require _ _).bind
  intro _
  exact (cautious_read _ _).bind fun _ => trivial

omit [Crates] [Codecs] in
theorem cautious_installedImage (rules : Platform.PathRules) (root : Path) (relativePath : String)
    (maximum : ℕ) (unavailable escapes invalid : String) : Cautious device
      (installedImage rules root relativePath maximum unavailable escapes invalid) := by
  apply (cautious_canonicalize _ _).bind
  intro path
  apply (Cautious.require _ _).bind
  intro _
  exact cautious_withContext (cautious_readRegular path maximum)

theorem cautious_verifyInstall (rules : Platform.PathRules) (signedManifestPath brandingRoot : Path)
    (keys : VerificationKeyRing) (registrationId gameId : String) (nowUnix : Int64) :
    Cautious device
      (verifyInstall rules signedManifestPath brandingRoot keys registrationId gameId nowUnix) := by
  have hdone : ∀ {α : Type} (result : Result α), Cautious device (done result : AgentProgram α) :=
    fun _ => trivial
  apply (cautious_withContext (cautious_readRegular _ _)).bind
  intro manifest
  apply (hdone _).bind
  intro signed
  apply (hdone _).bind
  intro claims
  apply (cautious_canonicalize _ _).bind
  intro root
  apply Cautious.checked rfl fun h => Bool.false_ne_true h.1
  apply (cautious_installedImage rules root _ _ _ _ _).bind
  intro icon
  apply (hdone _).bind
  intro _
  split_ifs
  · trivial
  · apply (cautious_installedImage rules root _ _ _ _ _).bind
    intro hero
    exact (hdone _).bind fun _ => trivial

end

end CertaelAgent.Agent
