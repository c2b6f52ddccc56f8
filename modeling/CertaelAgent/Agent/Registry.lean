import CertaelAgent.Agent.Branding

/-!
# The registry of games

Every registered game has a directory of its own in the registry, named by the registration id.
It is filled under a staging name and renamed into place; an update first renames the old
directory to a backup name, and an interrupted update is settled by the next call for the same id.
The registry root is given by its canonical path. The rules for paths are those of the game and its
branding; the names in the registry are told apart as they are written, letter case included.
-/

namespace CertaelAgent.Agent

open ProtoWire Protocol Files Program Anyhow

def MAX_REGISTRATION_BYTES : ℕ := 64 * 1024
def MAX_ROOT_BYTES : ℕ := 1024 * 1024

/-- The process and the time of a call, in nanoseconds; there is no time if the clock is before
1970. -/
structure Moment where
  processId : ℕ
  sinceEpoch : Option ℕ
deriving DecidableEq, Repr

def Moment.nowUnix (now : Moment) : Result Int64 :=
  io (now.sinceEpoch.bind fun nanoseconds =>
    if nanoseconds / 10 ^ 9 < 2 ^ 63 then some (Int64.ofNat (nanoseconds / 10 ^ 9)) else none)

structure InstallRegistrationArgs where
  registryRoot : Path
  signedRegistration : Path
  publisherTrustStore : Path
  updateRoot : Path
  gameRoot : Path
  brandingManifest : Option Path
  brandingRoot : Option Path
  replace : Bool

/-- A registration that has been read and checked. -/
structure PreparedRegistration where
  claims : GameRegistrationClaimsV1
  registrationBytes : Bytes
  trustBytes : Bytes
  updateBytes : Bytes
  gameRoot : Path
  game : Path
  branding : Option InstalledBranding

/-- A registration as it is loaded, with the paths that belong to it. -/
structure LoadedGame extends RegisteredGame where
  trustStore : Path
  updateRoot : Path
  stateRoot : Path
  statusPath : Path
  branding : Option VerifiedBranding

def safeId (value : String) : Bool :=
  value != "" && len value ≤ 128 &&
    (Field.utf8 value).all fun b => isAsciiAlphanumeric b || b == 46 || b == 95 || b == 45

def backupName (registrationId : String) : String := ".backup-" ++ registrationId

def stagingName (processId nonce : ℕ) : String :=
  ".register-" ++ toString processId ++ "-" ++ toString nonce

/-- `Path::is_file` of a canonical path. -/
def isFile (path : Path) : AgentProgram Bool := do
  let metadata ← symlinkMetadata path
  return metadata.any fun metadata => metadata.fileType = .file

def makeDirectory (error : Anyhow.Error) (path : Path) : AgentProgram Unit := do
  match ← createDir path with
  | .ok () => return ()
  | .error _ => fail error

section

variable [Crates]

/-- The registration is bound to the bytes of the trust store and the update root. -/
def bindsTrust (claims : GameRegistrationClaimsV1) (trustBytes updateBytes : Bytes) : Prop :=
  (Crates.sha256 trustBytes).1 = claims.trustStoreSha256 ∧
    (Crates.sha256 updateBytes).1 = claims.updateRootSha256

instance (claims : GameRegistrationClaimsV1) (trustBytes updateBytes : Bytes) :
    Decidable (bindsTrust claims trustBytes updateBytes) :=
  inferInstanceAs (Decidable (_ ∧ _))

variable [Codecs]

/-! ## Installing -/

/-- The canonical path of the executable of a game. -/
def resolveGame (rules : Platform.PathRules) (gameRoot : Path) (claims : GameRegistrationClaimsV1)
    (missing unsafe' : Anyhow.Error) : AgentProgram Path := do
  let game ← expect missing (canonicalize (join rules gameRoot claims.executableRelativePath))
  let file ← isFile game
  require unsafe' (gameRoot <+: game ∧ file = true)
  return game

def prepareBranding (rules : Platform.PathRules) (args : InstallRegistrationArgs)
    (keys : VerificationKeyRing) (claims : GameRegistrationClaimsV1) (nowUnix : Int64) :
    AgentProgram (Option InstalledBranding) :=
  match args.brandingManifest, args.brandingRoot with
  | some manifest, some root => do
    let branding ← verifyInstall rules manifest root keys claims.registrationId claims.gameId nowUnix
    return some branding
  | none, none => return none
  | _, _ => fail (.message "branding manifest and branding root must be supplied together")

/-- The part of `install_registration` that only reads. -/
def prepareRegistration (rules : Platform.PathRules) (args : InstallRegistrationArgs)
    (now : Moment) : AgentProgram PreparedRegistration := do
  let registrationBytes ← withContext "signed game registration is invalid"
    (readRegular args.signedRegistration MAX_REGISTRATION_BYTES)
  let signed ← done (decodeSigned registrationBytes "signed game registration is malformed"
    "signed game registration is not canonical")
  let keys ← loadTrustStore args.publisherTrustStore
  let nowUnix ← done now.nowUnix
  let claims ← done (context "game registration signature was rejected"
    (ofProtocol (verifyGameRegistration signed keys nowUnix)))
  let trustBytes ← withContext "publisher trust store is invalid"
    (readRegular args.publisherTrustStore MAX_ROOT_BYTES)
  let updateBytes ← withContext "TUF update root is invalid"
    (readRegular args.updateRoot MAX_ROOT_BYTES)
  require (.message "game registration does not bind the supplied trust material")
    (bindsTrust claims trustBytes updateBytes)
  let gameRoot ← expect (.context "game installation root does not exist" .io)
    (canonicalize args.gameRoot)
  let directory ← isDir gameRoot
  require (.message "game installation root is not a directory") (directory = true)
  let game ← resolveGame rules gameRoot claims
    (.context "registered game executable does not exist" .io)
    (.message "registered executable escapes the game installation root")
  let branding ← prepareBranding rules args keys claims nowUnix
  return {
    claims := claims
    registrationBytes := registrationBytes
    trustBytes := trustBytes
    updateBytes := updateBytes
    gameRoot := gameRoot
    game := game
    branding := branding }

end

/-- An interrupted update is undone if the new registration is not in place, and finished if it
is. -/
def recoverRegistration (destination backup : Path) : AgentProgram Unit := do
  let installed ← pathExists destination
  let interrupted ← pathExists backup
  match installed, interrupted with
  | false, true =>
    ensure (.context "cannot recover interrupted game registration" .io) (rename backup destination)
  | true, true =>
    ensure (.context "cannot finish interrupted game registration" .io) (removeTree backup)
  | _, _ => return ()

/-- The two renames of an update, and the removal of the old registration. -/
def activate (replace : Bool) (temporary destination backup : Path) : AgentProgram Unit := do
  if replace then
    ensure (.context "cannot stage existing game registration" .io) (rename destination backup)
    if ← rename temporary destination then
      ensure (.context "cannot retire previous game registration" .io) (removeTree backup)
    else
      let _ ← rename backup destination
      fail (.context "cannot activate updated game registration" .io)
  else ensure (.context "cannot activate game registration" .io) (rename temporary destination)

section

variable [Codecs]

def storedRegistration (registration : PreparedRegistration) : StoredRegistration where
  formatVersion := 2
  signedRegistrationBase64 := Codecs.base64Encode registration.registrationBytes
  gameRoot := registration.gameRoot
  signedBrandingBase64 :=
    registration.branding.map fun branding => Codecs.base64Encode (encode branding.signed)

def stageBranding (temporary : Path) : Option InstalledBranding → AgentProgram Unit
  | none => return ()
  | some branding => do
    makeDirectory .io (temporary ++ ["branding"])
    writeNew (temporary ++ ["branding"] ++ ["icon.png"]) branding.icon
    match branding.hero with
    | none => return ()
    | some hero => writeNew (temporary ++ ["branding"] ++ ["hero.png"]) hero

def stage (temporary : Path) (registration : PreparedRegistration) : AgentProgram Unit := do
  writeNew (temporary ++ ["trust-store.json"]) registration.trustBytes
  writeNew (temporary ++ ["update-root.json"]) registration.updateBytes
  writeNew (temporary ++ ["registration.json"])
    (Codecs.registrationToVec (storedRegistration registration))
  stageBranding temporary registration.branding

/-- The part of `install_registration` that changes files. -/
def installPrepared (registryRoot : Path) (replace : Bool) (now : Moment)
    (registration : PreparedRegistration) : AgentProgram GameRegistrationClaimsV1 := do
  ensure (.context "cannot create Agent game registry" .io)
    (createDirAll (registryRoot.length + 1) registryRoot)
  let destination := registryRoot ++ [registration.claims.registrationId]
  let backup := registryRoot ++ [backupName registration.claims.registrationId]
  recoverRegistration destination backup
  let installed ← pathExists destination
  require (.message "this game registration already exists") ¬(installed = true ∧ replace = false)
  let installed ← pathExists destination
  require (.message "this game registration is not installed")
    ¬(installed = false ∧ replace = true)
  let nonce ← expect .io (pure now.sinceEpoch)
  let temporary := registryRoot ++ [stagingName now.processId nonce]
  makeDirectory (.context "cannot stage game registration" .io) temporary
  let result ← attempt (stage temporary registration >>= fun _ =>
    activate replace temporary destination backup)
  match result with
  | .ok () => return registration.claims
  | .error e => do
    let _ ← removeTree temporary
    fail e

variable [Crates]

def installRegistration (rules : Platform.PathRules) (args : InstallRegistrationArgs)
    (now : Moment) : AgentProgram GameRegistrationClaimsV1 := do
  let registration ← prepareRegistration rules args now
  installPrepared args.registryRoot args.replace now registration

def register (rules : Platform.PathRules) (args : InstallRegistrationArgs) (now : Moment) :
    AgentProgram GameRegistrationClaimsV1 :=
  installRegistration rules { args with replace := false } now

def update (rules : Platform.PathRules) (args : InstallRegistrationArgs) (now : Moment) :
    AgentProgram GameRegistrationClaimsV1 :=
  installRegistration rules { args with replace := true } now

/-! ## Loading -/

omit [Codecs] [Crates] in
/-- `status::path`, below the directory for the state of the user. -/
def statusPath (stateHome : Option Path) (registrationId : String) : Result Path :=
  if ¬ safeId registrationId then bail "invalid status registration ID"
  else do
    let root ← context "user state directory is unavailable" (io stateHome)
    return root ++ [registrationId ++ ".json"]

def loadBranding (stateRoot : Path) (record : StoredRegistration) (keys : VerificationKeyRing)
    (claims : GameRegistrationClaimsV1) (nowUnix : Int64) :
    AgentProgram (Option VerifiedBranding) :=
  match record.signedBrandingBase64 with
  | none => return none
  | some encoded => do
    let signed ← done (context "registered branding signature is invalid"
      (io (Codecs.base64Decode encoded)))
    let branding ← verifyStored signed (stateRoot ++ ["branding"] ++ ["icon.png"])
      (stateRoot ++ ["branding"] ++ ["hero.png"]) keys claims.registrationId claims.gameId nowUnix
    return some branding

def load (rules : Platform.PathRules) (stateHome : Option Path) (registryRoot : Path)
    (registrationId : String) (now : Moment) : AgentProgram LoadedGame := do
  require (.message "invalid game registration ID") (safeId registrationId)
  let stateRoot := registryRoot ++ [registrationId]
  let recordBytes ← withContext "registered game metadata is unavailable"
    (readRegular (stateRoot ++ ["registration.json"]) MAX_REGISTRATION_BYTES)
  let record ← done (context "registered game metadata is invalid"
    (io (Codecs.registrationFromSlice recordBytes)))
  require (.message "registered game metadata version is unsupported")
    (record.formatVersion = 1 ∨ record.formatVersion = 2)
  let signedBytes ← done (context "registered game signature is invalid"
    (io (Codecs.base64Decode record.signedRegistrationBase64)))
  let signed ← done (decodeSigned signedBytes "registered game signature is malformed"
    "registered game signature is not canonical")
  let trustStore := stateRoot ++ ["trust-store.json"]
  let updateRoot := stateRoot ++ ["update-root.json"]
  let trustBytes ← readRegular trustStore MAX_ROOT_BYTES
  let updateBytes ← readRegular updateRoot MAX_ROOT_BYTES
  let keys ← loadTrustStore trustStore
  let nowUnix ← done now.nowUnix
  let claims ← done (context "registered game is expired or revoked"
    (ofProtocol (verifyGameRegistration signed keys nowUnix)))
  require (.message "registered game trust binding is invalid")
    (claims.registrationId = registrationId ∧ bindsTrust claims trustBytes updateBytes)
  let gameRoot ← expect (.context "registered game installation is unavailable" .io)
    (canonicalize record.gameRoot)
  let game ← resolveGame rules gameRoot claims .io (.message "registered game executable is unsafe")
  let branding ← loadBranding stateRoot record keys claims nowUnix
  let statusPath ← done (statusPath stateHome registrationId)
  return {
    claims := claims
    game := game
    gameRoot := gameRoot
    trustStore := trustStore
    updateRoot := updateRoot
    stateRoot := stateRoot
    statusPath := statusPath
    branding := branding }

/-- The names that belong to directories, links not counted. -/
def directoriesIn (registryRoot : Path) : List String → AgentProgram (List String)
  | [] => return []
  | name :: names => do
    let metadata ← symlinkMetadata (registryRoot ++ [name])
    let rest ← directoriesIn registryRoot names
    return if metadata.any fun metadata => metadata.fileType = .directory then name :: rest else rest

/-- Names that begin with a dot are not registrations. -/
def listed (name : String) : Bool := safeId name && name.toList.head? != some '.'

def list (registryRoot : Path) : AgentProgram (List String) := do
  if ← pathExists registryRoot then
    let names ← expect .io (readDir registryRoot)
    let directories ← directoriesIn registryRoot names
    return (directories.filter listed).mergeSort fun a b => decide (a ≤ b)
  else return []

end

end CertaelAgent.Agent
