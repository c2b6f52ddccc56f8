import CertaelAgent.Updater.Activation
import CertaelAgent.Protocol.Crates

/-!
# The operations of the updater

Every operation reads the activation state, decides on a new one and writes it through a temporary
file that is renamed over `activation.json`. An installation first copies the target into a
temporary directory that is renamed to the directory of its version.
-/

namespace CertaelAgent.Updater

open ProtoWire Protocol Files Program

def MAX_ACTIVATION_STATE_BYTES : ℕ := 64 * 1024

/-- A path from a caller. -/
structure PathBuf where
  absolute : Bool
  names : Path
deriving DecidableEq, Repr

/-- The process and the time that temporary names are made of, in nanoseconds; there is no time
if the clock is before 1970. -/
structure Moment where
  processId : ℕ
  sinceEpoch : Option ℕ
deriving DecidableEq, Repr

structure InstallConfig where
  installRoot : PathBuf
  version : String
  installedName : String
deriving DecidableEq, Repr

structure VerifiedReleaseTarget where
  path : Path
  version : String
  channel : String
  platform : String
deriving DecidableEq, Repr

section

variable [Crates]

def hashFile (path : Path) : FileProgram UpdateError String := do
  let metadata ← expect .verification (symlinkMetadata path)
  require .verification (metadata.fileType = .file)
  let content ← expect .verification (read path)
  return Hex.encode (Crates.sha256 content).1

def verifySlot (root : Path) (slot : ActivationSlot) : FileProgram UpdateError Unit := do
  done (validateSlot slot)
  let canonical ← expect .verification (canonicalize (join root slot.relativePath))
  require .verification (root <+: canonical)
  let digest ← hashFile canonical
  require .verification (digest = slot.sha256)

end

def canonicalInstallRoot (path : PathBuf) : FileProgram UpdateError Path := do
  require .invalidConfiguration (path.absolute = true)
  let metadata ← expect .invalidConfiguration (symlinkMetadata path.names)
  require .invalidConfiguration (metadata.fileType = .directory)
  expect .invalidConfiguration (canonicalize path.names)

section

variable [SerdeJson]

def activationPath (root : Path) : Path := root ++ ["activation.json"]

def readActivationStateCanonical (installRoot : Path) :
    FileProgram UpdateError ActivationState := do
  if ← pathExists (activationPath installRoot) then
    let metadata ← expect .invalidActivationState (symlinkMetadata (activationPath installRoot))
    require .invalidActivationState (metadata.fileType = .file ∧ metadata.len ≠ 0 ∧
      metadata.len ≤ MAX_ACTIVATION_STATE_BYTES)
    let bytes ← expect .invalidActivationState (read (activationPath installRoot))
    let state ← expect .invalidActivationState (pure (SerdeJson.fromSlice bytes))
    done (validateState state)
    return state
  else return ActivationState.default

def readActivationState (installRoot : PathBuf) : FileProgram UpdateError ActivationState := do
  let root ← canonicalInstallRoot installRoot
  readActivationStateCanonical root

end

/-! ## Writing -/

def temporaryName (processId nonce : ℕ) : String :=
  ".activation-" ++ toString processId ++ "-" ++ toString nonce ++ ".tmp"

/-- The steps behind which the temporary file is removed if one of them fails. -/
def replaceActivationState (root : Path) (bytes : Bytes) (temporary : Path) :
    FileProgram UpdateError Unit := do
  ensure .installation (append temporary bytes)
  ensure .installation (syncAll temporary)
  ensure .installation (rename temporary (activationPath root))
  ensure .installation (syncAll root)

def writeActivationState (root : Path) (state : ActivationState) (now : Moment) :
    FileProgram UpdateError Unit := do
  done (validateState state)
  let bytes := toVec state
  require .installation (bytes ≠ [] ∧ bytes.length ≤ MAX_ACTIVATION_STATE_BYTES)
  let nonce ← expect .installation (pure now.sinceEpoch)
  let temporary := root ++ [temporaryName now.processId nonce]
  ensure .installation (createNew temporary)
  ensure .installation (setPermissions temporary 0o600)
  match ← attempt (replaceActivationState root bytes temporary) with
  | .ok () => return ()
  | .error e =>
    let _ ← removeFile temporary
    fail e

/-- The pieces in which a file is copied. -/
def chunks : ℕ → Bytes → List Bytes
  | 0, _ => []
  | fuel + 1, bytes =>
    if bytes = [] then [] else bytes.take (64 * 1024) :: chunks fuel (bytes.drop (64 * 1024))

def writeAll (path : Path) : List Bytes → FileProgram UpdateError Unit
  | [] => return ()
  | bytes :: rest => do
    ensure .installation (append path bytes)
    writeAll path rest

section

variable [Crates]

def copyAndVerify (source destination : Path) (expected : String) :
    FileProgram UpdateError Unit := do
  let content ← expect .installation (read source)
  ensure .installation (createNew destination)
  writeAll destination (chunks content.length content)
  require .verification (Hex.encode (Crates.sha256 content).1 = expected)
  ensure .installation (setPermissions destination 0o755)
  ensure .installation (syncAll destination)

def validateInstall (config : InstallConfig) (expectedSha256 : String) : Except UpdateError Unit :=
  if !config.installRoot.absolute || !safeComponent config.version ||
      !safeComponent config.installedName || !validDigest expectedSha256 then
    .error .invalidConfiguration
  else .ok ()

def temporaryDirectoryName (processId nonce : ℕ) : String :=
  ".install-" ++ toString processId ++ "-" ++ toString nonce

/-- The steps behind which the temporary directory is removed if one of them fails. -/
def fillVersionDirectory (stagedTarget versions : Path) (config : InstallConfig) (sha256 : String)
    (temporary : Path) : FileProgram UpdateError Unit := do
  copyAndVerify stagedTarget (temporary ++ [config.installedName]) sha256
  ensure .installation (syncAll temporary)
  ensure .installation (rename temporary (versions ++ [config.version]))
  ensure .installation (syncAll versions)

/-- An installed target is kept if it has the expected digest, and nothing goes over it. -/
def placeTarget (stagedTarget versions : Path) (config : InstallConfig) (sha256 : String)
    (now : Moment) : FileProgram UpdateError Unit := do
  let finalTarget := versions ++ [config.version] ++ [config.installedName]
  if ← pathExists finalTarget then
    let digest ← hashFile finalTarget
    require .installation (digest = sha256)
  else
    let nonce ← expect .installation (pure now.sinceEpoch)
    let temporary := versions ++ [temporaryDirectoryName now.processId nonce]
    match ← createDir temporary with
    | .error _ => fail .installation
    | .ok () =>
      match ← attempt (fillVersionDirectory stagedTarget versions config sha256 temporary) with
      | .ok () => return ()
      | .error e =>
        let _ ← removeDirAll temporary
        fail e

def installSlot (config : InstallConfig) (expectedSha256 : String) : ActivationSlot where
  version := config.version
  relativePath := slotPath config.version config.installedName
  sha256 := toAsciiLowercase expectedSha256

variable [SerdeJson]

/-- The clock is read for the temporary directory and again for the activation state. -/
def installVerifiedTarget (stagedTarget : Path) (config : InstallConfig) (expectedSha256 : String)
    (now later : Moment) : FileProgram UpdateError Path := do
  done (validateInstall config expectedSha256)
  let stagedMetadata ← expect .installation (symlinkMetadata stagedTarget)
  require .installation (stagedMetadata.fileType = .file)
  let installRoot := config.installRoot.names
  ensure .installation (createDirAll (installRoot.length + 1) installRoot)
  let rootMetadata ← expect .installation (symlinkMetadata installRoot)
  require .installation (rootMetadata.fileType = .directory)
  let root ← expect .installation (canonicalize installRoot)
  let versions := root ++ ["versions"]
  ensure .installation (createDirAll (versions.length + 1) versions)
  let versionsMetadata ← expect .installation (symlinkMetadata versions)
  require .installation (versionsMetadata.fileType = .directory)
  let slot := installSlot config expectedSha256
  placeTarget stagedTarget versions config slot.sha256 now
  verifySlot root slot
  let state ← readActivationState ⟨true, root⟩
  writeActivationState root { state with pending := some slot } later
  return versions ++ [config.version] ++ [config.installedName]

/-- `release` is what staging from the TUF repository gives. -/
def verifyStageAndInstallAutomatic (release : Except UpdateError VerifiedReleaseTarget)
    (installRoot : PathBuf) (installedName expectedChannel expectedPlatform : String)
    (now later : Moment) : FileProgram UpdateError Path := do
  let release ← done release
  require .verification (release.channel = expectedChannel ∧ release.platform = expectedPlatform)
  let expectedSha256 ← hashFile release.path
  installVerifiedTarget release.path
    { installRoot := installRoot, version := release.version, installedName := installedName }
    expectedSha256 now later

def activatePending (installRoot : PathBuf) (now : Moment) :
    FileProgram UpdateError ActivationState := do
  let root ← canonicalInstallRoot installRoot
  let state ← readActivationState ⟨true, root⟩
  let pending ← expect .noPendingUpdate (pure state.pending)
  verifySlot root pending
  let state := { state with active := some pending, previous := state.active, pending := none }
  writeActivationState root state now
  return state

def rollback (installRoot : PathBuf) (now : Moment) : FileProgram UpdateError ActivationState := do
  let root ← canonicalInstallRoot installRoot
  let state ← readActivationState ⟨true, root⟩
  let previous ← expect .noRollback (pure state.previous)
  verifySlot root previous
  let state := { state with active := some previous, previous := state.active, pending := none }
  writeActivationState root state now
  return state

omit [SerdeJson] in
/-- Whether there is a slot and it does not verify. -/
def isDamaged (root : Path) : Option ActivationSlot → FileProgram UpdateError Bool
  | none => return false
  | some slot => do
    match ← attempt (verifySlot root slot) with
    | .ok () => return false
    | .error _ => return true

omit [SerdeJson] in
/-- What recovery makes of a state; only the previous slot takes the place of a damaged one. -/
def repair (root : Path) (state : ActivationState) : FileProgram UpdateError ActivationState := do
  let pending := if ← isDamaged root state.pending then none else state.pending
  let state := { state with pending := pending }
  if ← isDamaged root state.active then
    let previous ← expect .invalidActivationState (pure state.previous)
    verifySlot root previous
    return { state with active := some previous, previous := none }
  else if ← isDamaged root state.previous then
    return { state with previous := none }
  else return state

def recover (installRoot : PathBuf) (now : Moment) : FileProgram UpdateError ActivationState := do
  let root ← canonicalInstallRoot installRoot
  let state ← readActivationState ⟨true, root⟩
  let state ← repair root state
  writeActivationState root state now
  return state

/-- The state after a version has been registered: it becomes active if none is, and otherwise
pending, or active at once on request. -/
def registered (state : ActivationState) (slot : ActivationSlot) (activate : Bool) :
    ActivationState :=
  if state.active = none then { state with active := some slot }
  else if state.active = some slot then state
  else if activate then
    { state with active := some slot, previous := state.active, pending := none }
  else { state with pending := some slot }

def registerExistingVersion (installRoot : PathBuf) (version installedName : String)
    (activate : Bool) (now : Moment) : FileProgram UpdateError ActivationState := do
  let root ← canonicalInstallRoot installRoot
  require .invalidConfiguration (safeComponent version ∧ safeComponent installedName)
  let relativePath := slotPath version installedName
  let sha256 ← hashFile (join root relativePath)
  let slot : ActivationSlot :=
    { version := version, relativePath := relativePath, sha256 := sha256 }
  verifySlot root slot
  let state ← readActivationStateCanonical root
  let state := registered state slot activate
  writeActivationState root state now
  return state

def activeTarget (installRoot : PathBuf) (now : Moment) : FileProgram UpdateError Path := do
  let root ← canonicalInstallRoot installRoot
  let state ← recover ⟨true, root⟩ now
  let active ← expect .invalidActivationState (pure state.active)
  verifySlot root active
  expect .invalidActivationState (canonicalize (join root active.relativePath))

end

end CertaelAgent.Updater
