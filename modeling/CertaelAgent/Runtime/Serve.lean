import CertaelAgent.Foundation.Hex
import CertaelAgent.Foundation.Transcript
import CertaelAgent.Ipc.Frame
import CertaelAgent.Platform.BuildManifest
import CertaelAgent.Protocol.LaunchBundle
import CertaelAgent.Protocol.Report

/-!
# Serving a protected game

`serve` greets the game, waits for one launch bundle, and then answers challenges until the
session ends. What it cannot decide itself comes in from outside: what the channel delivers, the
readings of the clock, the files of the game, the executable and the state of the game process.
The writer and the clock do not fail; a frame over the size limit is still refused.
-/

namespace CertaelAgent.Runtime

open ProtoWire Protocol Ipc

/-- `env!("CARGO_PKG_VERSION")`. -/
def CARGO_PKG_VERSION : String := "0.4.0-alpha.1"

structure RegistrationBinding where
  registrationId : String
  tenantId : String
  gameId : String
  environmentId : String
  launchAttemptId : String
deriving DecidableEq, Repr

structure AutomaticUpdateBinding where
  metadataUrl : String
  targetsUrl : String
  stateRoot : String
  installRoot : String
  channel : String
  platform : String
  targetName : String
  installedName : String
deriving DecidableEq, Repr

structure RuntimeState where
  gameProcessId : UInt32
  gameProcessIdentity : Option UInt64
  key : SigningKey
  hello : AgentHelloV1
  trust : VerificationKeyRing
  registration : Option RegistrationBinding
  automaticUpdate : Option AutomaticUpdateBinding

structure RuntimeStatus where
  formatVersion : UInt32
  registrationId : String
  gameId : String
  state : String
  publicReason : Option String
  launchAttemptId : Option String
  milestoneIndex : Option UInt32
  milestoneTotal : Option UInt32
deriving DecidableEq, Repr

/-- What the outside can see: frames on the channel and status files. -/
inductive Action
  | write (frame : Frame)
  | publish (status : RuntimeStatus)
deriving DecidableEq, Repr

/-- `Ok(())`, or an error with its outermost context. -/
abbrev Exit := Except String Unit

abbrev Serving (α : Type) := Transcript Action Exit α

/-- `bail!`, and an error returned under a context. -/
def bail {α : Type} (message : String) : Serving α := .stop (.error message)

def context {ε α : Type} (x : Except ε α) (message : String) : Serving α :=
  .lift (x.mapError fun _ => .error message)

/-- `return Ok(())`. -/
def finish {α : Type} : Serving α := .stop (.ok ())

def sendFrame (frame : Frame) (message : String) : Serving Unit := do
  let _ ← context (writeFrame frame) message
  .emit (.write frame)

def milestoneIndex (runtimeState : String) : Option UInt32 :=
  if runtimeState = "verifying_agent_version" then some 1
  else if runtimeState = "loading_signed_registration" then some 2
  else if runtimeState = "checking_required_update"
      ∨ runtimeState = "installing_required_update"
      ∨ runtimeState = "update_required"
      ∨ runtimeState = "update_ready"
      ∨ runtimeState = "update_failed" then some 3
  else if runtimeState = "hashing_registered_game_files" then some 4
  else if runtimeState = "starting_game" then some 5
  else if runtimeState = "awaiting_server_admission" then some 6
  else if runtimeState = "verifying_signed_launch_bundle" then some 7
  else if runtimeState = "protected" then some 8
  else none

def bindingStatus (registration : RegistrationBinding) (runtimeState : String)
    (reason : Option String) : RuntimeStatus where
  formatVersion := 2
  registrationId := registration.registrationId
  gameId := registration.gameId
  state := runtimeState
  publicReason := reason
  launchAttemptId := some registration.launchAttemptId
  milestoneIndex := milestoneIndex runtimeState
  milestoneTotal := some 8

/-- Without a registration nothing is published. -/
def publishRuntime (state : RuntimeState) (runtimeState : String) (reason : Option String) :
    Serving Unit :=
  match state.registration with
  | none => .value ()
  | some registration => .emit (.publish (bindingStatus registration runtimeState reason))

def healthFrame (sessionId health : String) (lastReportAtUnix : Int64) (reasons : List String) :
    Frame where
  messageType := .health
  payload := encode (M := AgentHealthV1)
    { agentSessionId := sessionId, state := health, lastReportAtUnix, publicReasons := reasons }

def writeHealth (sessionId health : String) (lastReportAtUnix : Int64) (reasons : List String) :
    Serving Unit :=
  sendFrame (healthFrame sessionId health lastReportAtUnix reasons)
    "failed to send Agent health state"

/-- What a receive on the reader's channel returns. -/
inductive Received
  | frame (frame : Frame)
  | failed (error : IpcError)
  | timeout
  | disconnected
deriving DecidableEq, Repr

/-- How the automatic update of an outdated Agent can turn out. -/
inductive AutomaticUpdate
  | runtimeUnavailable
  | invalidMetadataUrl
  | invalidTargetsUrl
  | installed
  | failed
deriving DecidableEq, Repr

/-- The outside world up to admission: what the first receive returns, the clock when the bundle
is verified and when the two timers are set, the check of the game's files, and the updater. -/
structure Arrival where
  received : Received
  verifiedAt : Int64
  verifyFiles : Platform.ProtectedBuildManifest → Anyhow.Result (List Platform.ManifestMismatch)
  update : AutomaticUpdateBinding → AutomaticUpdate
  heartbeatFrom : Int64
  deadlineFrom : Int64

/-- What is read of the game's executable when it is inspected. -/
structure ExecutableReading where
  contents : Bytes
  debuggerObserved : Bool
  platform : String
  loadedModuleBasenames : List String
  executableBuildId : Option String
deriving DecidableEq, Repr

structure IntegritySnapshot where
  executableSha256 : String
  debuggerObserved : Bool
  platform : String
  loadedModuleBasenames : List String
  executableBuildId : Option String
deriving DecidableEq, Repr

structure GameProcessSnapshot where
  running : Bool
  executableMatches : Bool
  parentIsAgent : Option Bool
  loadedModuleBasenames : List String
  processIdentityStable : Option Bool
deriving DecidableEq, Repr

/-- One iteration of the session loop as the outside sees it: the clock at the head of the loop,
what the receive returns, the clock read after it, the executable (absent when it cannot be
inspected), the platform's view of the game process, its identity, and the Agent's own id. -/
structure Turn where
  now : Int64
  received : Received
  after : Int64
  executable : Option ExecutableReading
  gameProcess : GameProcessSnapshot
  processIdentity : Option UInt64
  agentProcessId : UInt32
deriving DecidableEq, Repr

/-- The mutable variables of the session loop. -/
structure Session where
  sequence : UInt64
  previousDigest : Digest
  lastReportAt : Int64
  nextHeartbeat : Int64
  reportDeadline : Int64
deriving DecidableEq

/-- `i64::from` of an unsigned number of seconds. -/
def seconds (value : UInt32) : Int64 := value.toUInt64.toInt64

def processIdentity (processId : UInt32) (reading : Option UInt64) : Option UInt64 :=
  if processId ≠ 0 then reading else none

def inspectGameProcessBound (processId : UInt32) (platform : GameProcessSnapshot)
    (identity expectedIdentity : Option UInt64) : GameProcessSnapshot :=
  if processId = 0 then
    { running := false, executableMatches := false, parentIsAgent := none,
      loadedModuleBasenames := [], processIdentityStable := none }
  else
    { platform with
      processIdentityStable :=
        (expectedIdentity.map fun expected => processIdentity processId identity == some expected).or
          platform.processIdentityStable }

/-- `char::is_control`: the C0 and C1 controls. -/
def isControl (c : Char) : Bool := c.toNat < 32 || (127 ≤ c.toNat && c.toNat < 160)

def safeValue (value : String) : Bool :=
  value != "" && len value ≤ 512 && !value.toList.any isControl

def observation (code value : String) : IntegrityObservationV1 := { code, value }

def boolValue (value : Bool) : String := if value then "true" else "false"

def moduleObservations (code : String) (modules : List String) : List IntegrityObservationV1 :=
  ((modules.filter safeValue).take 96).map (observation code)

def observations (state : RuntimeState) (agentProcessId : UInt32) (snapshot : IntegritySnapshot)
    (gameProcess : GameProcessSnapshot) : List IntegrityObservationV1 :=
  [observation "agent.platform" snapshot.platform,
    observation "agent.process_id" (toString agentProcessId.toNat),
    observation "game.process_id" (toString state.gameProcessId.toNat),
    observation "game.process_running" (boolValue gameProcess.running),
    observation "game.executable_matches" (boolValue gameProcess.executableMatches),
    observation "game.parent_is_agent"
      ((gameProcess.parentIsAgent.map boolValue).getD "unknown"),
    observation "agent.debugger_observed" (boolValue snapshot.debuggerObserved),
    observation "agent.probe_health" "connected"] ++
  ((snapshot.executableBuildId.filter safeValue).map (observation "game.elf_build_id")).toList ++
  [observation "game.process_identity_stable"
      ((gameProcess.processIdentityStable.map boolValue).getD "unknown")] ++
  moduleObservations "agent.module" snapshot.loadedModuleBasenames ++
  moduleObservations "game.module" gameProcess.loadedModuleBasenames

variable [Crates]

def integritySnapshot (reading : ExecutableReading) : IntegritySnapshot where
  executableSha256 := Hex.encode (Crates.sha256 reading.contents).1
  debuggerObserved := reading.debuggerObserved
  platform := reading.platform
  loadedModuleBasenames := reading.loadedModuleBasenames
  executableBuildId := reading.executableBuildId

def inspectExecutable (reading : Option ExecutableReading) : Option IntegritySnapshot :=
  reading.map integritySnapshot

/-- The manifest handed to the platform, with its digests as texts. -/
def platformManifest (manifest : BuildManifestClaimsV1) : Platform.ProtectedBuildManifest where
  buildId := manifest.buildId
  files := manifest.files.map fun file =>
    { path := file.path, size := file.size, sha256 := Hex.encode file.sha256 }

/-- Every failure before admission is published and reported to the game; a health frame that
cannot be sent does not matter any more. -/
def reject {α : Type} (state : RuntimeState) (sessionId code message : String) : Serving α := do
  publishRuntime state "launch_failed" (some code)
  (writeHealth sessionId "rejected" 0 [code]).ignore
  bail message

/-- The branch taken when only the version check of the bundle failed. -/
def requireUpdate {α : Type} (state : RuntimeState) (arrival : Arrival) : Serving α := do
  publishRuntime state "update_required" (some "AGENT_UPDATE_REQUIRED")
  (writeHealth "unbound" "update_required" 0 ["AGENT_UPDATE_REQUIRED"]).ignore
  match state.automaticUpdate with
  | none => .value ()
  | some update =>
    publishRuntime state "installing_required_update" (some "AGENT_UPDATE_REQUIRED")
    match arrival.update update with
    | .runtimeUnavailable => bail "cannot start automatic Agent updater"
    | .invalidMetadataUrl => bail "registered update metadata URL is invalid"
    | .invalidTargetsUrl => bail "registered update target URL is invalid"
    | .installed => publishRuntime state "update_ready" (some "RELAUNCH_TO_ACTIVATE_UPDATE")
    | .failed => publishRuntime state "update_failed" (some "AGENT_UPDATE_FAILED")
  bail "Agent update is required before protected launch"

def registrationMatches (registration : RegistrationBinding) (launch : BoundAgentLaunch) : Prop :=
  registration.tenantId = launch.tenantId ∧
    registration.gameId = launch.gameId ∧
    registration.environmentId = launch.environmentId

instance (registration : RegistrationBinding) (launch : BoundAgentLaunch) :
    Decidable (registrationMatches registration launch) :=
  inferInstanceAs (Decidable (_ ∧ _ ∧ _))

/-- How long after a report the next one is due. -/
def reportWindow (launch : BoundAgentLaunch) : Int64 :=
  seconds (launch.reportSeconds + launch.disconnectGraceSeconds)

/-- The loop variables as admission leaves them. -/
def openSession (arrival : Arrival) (launch : BoundAgentLaunch) : Session where
  sequence := 1
  previousDigest := zeroDigest
  lastReportAt := 0
  nextHeartbeat := arrival.heartbeatFrom + seconds launch.heartbeatSeconds
  reportDeadline := arrival.deadlineFrom + reportWindow launch

/-- The part of `serve` between the hello and the session loop. -/
def admission (state : RuntimeState) (arrival : Arrival) : Serving (BoundAgentLaunch × Session) := do
  publishRuntime state "awaiting_server_admission" none
  let bootstrap ← match arrival.received with
    | .frame frame => .value frame
    | .failed _ =>
      reject state "unbound" "AGENT_ADMISSION_CHANNEL_FAILED"
        "protected game channel failed before Agent admission"
    | .timeout =>
      reject state "unbound" "AGENT_ADMISSION_TIMEOUT"
        "protected game did not provide Agent admission in time"
    | .disconnected =>
      reject state "unbound" "AGENT_ADMISSION_CHANNEL_CLOSED"
        "protected game channel closed before Agent admission"
  if bootstrap.messageType ≠ .launchGrant then
    reject state "unbound" "AGENT_ADMISSION_TYPE_INVALID"
      "protected game did not provide a signed Agent launch bundle"
  else
    publishRuntime state "verifying_signed_launch_bundle" none
    let launch ← match verifyLaunchBundle bootstrap.payload state.trust arrival.verifiedAt
        (Crates.verifyingKey state.key) state.hello.buildId CARGO_PKG_VERSION with
      | .ok launch => .value launch
      | .error (.invalidField "agent_update_required") => requireUpdate state arrival
      | .error _ =>
        reject state "unbound" "AGENT_LAUNCH_BUNDLE_REJECTED"
          "signed Agent launch bundle was rejected"
    if ∃ registration ∈ state.registration, ¬ registrationMatches registration launch then
      reject state launch.sessionId "AGENT_REGISTRATION_MISMATCH"
        "signed launch bundle does not match the registered game"
    else
      match arrival.verifyFiles (platformManifest launch.buildManifest) with
      | .error _ =>
        reject state launch.sessionId "AGENT_MANIFEST_VERIFICATION_FAILED"
          "protected build manifest could not be verified"
      | .ok (_ :: _) =>
        reject state launch.sessionId "AGENT_BUILD_MISMATCH"
          "protected build does not match its signed manifest"
      | .ok [] =>
        writeHealth launch.sessionId "ready" 0 []
        publishRuntime state "protected" none
        .value (launch, openSession arrival launch)

/-- The unsigned report of a challenge. -/
def challengeReport (state : RuntimeState) (launch : BoundAgentLaunch) (session : Session)
    (turn : Turn) (challenge : AgentReportChallengeV1) (snapshot : IntegritySnapshot)
    (executableSha256 : Bytes) : AgentIntegrityReportV1 where
  protocolVersion := PROTOCOL_VERSION
  agentSessionId := launch.sessionId
  sequence := session.sequence
  challengeNonce := challenge.nonce
  observedAtUnix := turn.after
  buildId := launch.buildId
  executableSha256 := executableSha256
  observations := observations state turn.agentProcessId snapshot
    (inspectGameProcessBound state.gameProcessId turn.gameProcess turn.processIdentity
      state.gameProcessIdentity)
  previousReportDigest := session.previousDigest.1
  signature := []

def answerChallenge (state : RuntimeState) (launch : BoundAgentLaunch) (session : Session)
    (turn : Turn) (payload : Bytes) : Serving Session := do
  let challenge ← context (decodeChallenge payload turn.after) "Agent report challenge was rejected"
  if challenge.agentSessionId ≠ launch.sessionId then
    bail "Agent report challenge is bound to another session"
  else
    let snapshot ← context (Except.ofOption () (inspectExecutable turn.executable))
      "failed to refresh protected executable evidence"
    if snapshot.executableSha256 ≠ state.hello.buildId then
      bail "protected executable changed after launch"
    else
      let executableSha256 ← context (Except.ofOption () (Hex.decode snapshot.executableSha256))
        "executable digest is invalid"
      let report ← .lift ((signReport
        (challengeReport state launch session turn challenge snapshot executableSha256)
        state.key).mapError fun e => .error e.message)
      let session : Session :=
        { session with
          previousDigest := reportDigest report
          lastReportAt := turn.after
          reportDeadline := turn.after + reportWindow launch }
      -- The sequence is exhausted only at its last value; the report is then not sent.
      if session.sequence = UInt64.ofNat (2 ^ 64 - 1) then
        bail "Agent report sequence exhausted"
      else
        sendFrame { messageType := .integrityReport, payload := encode report }
          "failed to return signed Agent report"
        publishRuntime state "protected" none
        .value { session with sequence := session.sequence + 1 }

/-- Decodes the envelope of a revocation; an empty payload is the encoding of an empty envelope. -/
def decodeRevocation (payload : Bytes) : Serving SignedAgentRevocationV1 :=
  match decode (M := SignedAgentRevocationV1) payload with
  | none => bail "Agent revocation is malformed"
  | some signed =>
    if encode signed ≠ payload then bail "Agent revocation is not canonical" else .value signed

def acceptRevocation (state : RuntimeState) (launch : BoundAgentLaunch) (session : Session)
    (turn : Turn) (payload : Bytes) : Serving Session := do
  let signed ← decodeRevocation payload
  let revocation ← context (verifyRevocation signed state.trust turn.after)
    "Agent revocation was rejected"
  if revocation.agentSessionId ≠ launch.sessionId
      ∨ revocation.tenantId ≠ launch.tenantId
      ∨ revocation.gameId ≠ launch.gameId
      ∨ revocation.environmentId ≠ launch.environmentId then
    bail "Agent revocation is bound to another session"
  else
    writeHealth launch.sessionId "revoked" session.lastReportAt ["SESSION_REVOKED"]
    publishRuntime state "revoked" (some "SESSION_REVOKED")
    bail "Agent session was revoked"

def heartbeat (state : RuntimeState) (launch : BoundAgentLaunch) (session : Session)
    (after : Int64) : Serving Session :=
  if session.nextHeartbeat ≤ after ∧ after < session.reportDeadline then do
    writeHealth launch.sessionId "protected" session.lastReportAt []
    publishRuntime state "protected" none
    .value { session with nextHeartbeat := after + seconds launch.heartbeatSeconds }
  else .value session

def handleFrame (state : RuntimeState) (launch : BoundAgentLaunch) (session : Session)
    (turn : Turn) (frame : Frame) : Serving Session :=
  match frame.messageType with
  | .challenge => answerChallenge state launch session turn frame.payload
  | .revocation => acceptRevocation state launch session turn frame.payload
  | .shutdown =>
    if frame.payload ≠ [] then bail "Agent shutdown frame must be empty"
    else do
      publishRuntime state "stopped" none
      finish
  | _ => bail "unexpected Agent channel message after admission"

/-- One iteration of the session loop. -/
def sessionTurn (state : RuntimeState) (launch : BoundAgentLaunch) (session : Session)
    (turn : Turn) : Serving Session :=
  if launch.policyExpiresAtUnix ≤ turn.now then do
    writeHealth launch.sessionId "expired" session.lastReportAt ["POLICY_EXPIRED"]
    publishRuntime state "expired" (some "POLICY_EXPIRED")
    bail "Agent policy expired"
  else if session.reportDeadline ≤ turn.now then do
    writeHealth launch.sessionId "lost" session.lastReportAt ["REPORT_DEADLINE_MISSED"]
    publishRuntime state "lost" (some "REPORT_DEADLINE_MISSED")
    bail "Agent report deadline was missed"
  else match turn.received with
    | .frame frame => handleFrame state launch session turn frame
    | .failed .io => do
      publishRuntime state "stopped" (some "GAME_CHANNEL_CLOSED")
      finish
    | .failed _ => bail "Agent channel frame was rejected"
    | .timeout => heartbeat state launch session turn.after
    | .disconnected => do
      publishRuntime state "stopped" (some "GAME_CHANNEL_CLOSED")
      finish

def helloFrame (state : RuntimeState) : Frame where
  messageType := .agentHello
  payload := encode state.hello

/-- The whole run. Admission consumes the arrival and the loop one turn an iteration; when the
turns run out the session is still going on. -/
def serve (state : RuntimeState) (arrival : Arrival) (turns : List Turn) : Serving Session := do
  sendFrame (helloFrame state) "failed to send Agent hello"
  let (launch, session) ← admission state arrival
  Transcript.run (sessionTurn state launch) session turns

end CertaelAgent.Runtime
