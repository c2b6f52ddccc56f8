import CertaelAgent.Agent.RegisteredFiles
import CertaelAgent.Runtime.Admission

/-!
# The status file of a registered launch

A registered launch publishes its milestones, starts the game, serves it, and looks at the status
file when serving has failed: a failure that is published already is left alone, anything else is
replaced. Which statuses count as published is decided by a list of the launcher; which statuses
end a session is decided by the session loop.
-/

namespace CertaelAgent.Agent

open ProtoWire Protocol Files CertaelAgent.Runtime

/-- How the process of the game ended. -/
inductive ExitStatus
  | success
  | failure (status : String)
deriving DecidableEq, Repr

/-- A launch of a registered game with what it finds outside: the check of the selected Agent, the
files, the generated key, the trust store, the system calls around the process of the game, what
the session is fed with, and how the game ends. Errors come with their texts. -/
structure RegisteredLaunch where
  registered : RegisteredGame
  launchAttemptId : String
  updateState : Option String
  installRoot : String
  targetPlatform : String
  platformAgentName : String
  rules : Platform.PathRules
  files : FileSystem
  selectedAgent : Except String Unit
  key : SigningKey
  trustStore : Except String VerificationKeyRing
  socketpair : Except String Unit
  secured : Except String Unit
  spawned : Option (UInt32 × Option UInt64)
  cloned : Option Unit
  arrival : Arrival
  turns : List Turn
  waited : Except String ExitStatus

namespace RegisteredLaunch

variable (launch : RegisteredLaunch)

def claims : GameRegistrationClaimsV1 := launch.registered.claims

def binding : RegistrationBinding where
  registrationId := launch.claims.registrationId
  tenantId := launch.claims.tenantId
  gameId := launch.claims.gameId
  environmentId := launch.claims.environmentId
  launchAttemptId := launch.launchAttemptId

def update (stateRoot : String) : AutomaticUpdateBinding where
  metadataUrl := launch.claims.updateMetadataUrl
  targetsUrl := launch.claims.updateTargetsUrl
  stateRoot := stateRoot
  installRoot := launch.installRoot
  channel := launch.claims.updateChannel
  platform := launch.targetPlatform
  targetName := "certael-agent/" ++ launch.claims.updateChannel ++ "/" ++ launch.targetPlatform
  installedName := launch.platformAgentName

end RegisteredLaunch

def publishBinding (registration : RegistrationBinding) (runtimeState : String)
    (reason : Option String) : Serving Unit :=
  .emit (.publish (bindingStatus registration runtimeState reason))

/-- `?` on a result whose error has a text. -/
def passed {α : Type} (x : Except String α) : Serving α := .lift (x.mapError .error)

/-- The outermost text of an error. -/
def outermost : Anyhow.Error → String
  | .io => ""
  | .message text => text
  | .context text _ => text

def hexTo32 (value : String) : Serving Bytes :=
  if len value ≠ 64 then bail "invalid SHA-256 digest"
  else context (Except.ofOption () (Hex.decode value)) "invalid SHA-256 digest"

/-- What the status file holds after some actions. -/
def lastStatus (out : List Action) : Option RuntimeStatus := (statusesOf out).getLast?

/-- The status is a failure of this launch that the launcher leaves alone. -/
def alreadyPublished (registration : RegistrationBinding) (status : RuntimeStatus) : Bool :=
  status.launchAttemptId == some registration.launchAttemptId &&
    (status.state == "launch_failed" || status.state == "update_failed" ||
      status.state == "update_ready")

/-- The end of `launch_registered`: a failure that is not published yet is published. -/
def publishFailure {α : Type} (registration : RegistrationBinding) (launched : Serving α) :
    Serving α :=
  match launched.result with
  | .error (.error _) =>
    if (lastStatus launched.emitted).any (alreadyPublished registration) then launched
    else ⟨launched.emitted ++ (publishBinding registration "launch_failed"
      (some "PROTECTED_LAUNCH_FAILED")).emitted, launched.result⟩
  | _ => launched

/-- The end of `launch_unix`: a game that was served is waited for, any other is killed. -/
def attend {α : Type} (launch : RegisteredLaunch) (session : Serving α) : Serving α :=
  match session.result with
  | .error (.ok ()) =>
    let ending : Serving α := do
      let status ← passed launch.waited
      match status with
      | .success => finish
      | .failure status => bail ("game exited unsuccessfully: " ++ status)
    ⟨session.emitted ++ ending.emitted, ending.result⟩
  | _ => session

section

variable [Crates]

/-- `launch_registered` up to the files of the game; returns where updates are kept. -/
def prepareLaunch (launch : RegisteredLaunch) : Serving String := do
  let stateRoot ← context (Except.ofOption () launch.updateState)
    "registered game has no user update-state directory"
  publishBinding launch.binding "verifying_agent_version" none
  match launch.selectedAgent with
  | .error message => do
    publishBinding launch.binding "launch_failed" (some "AGENT_VERSION_UNVERIFIED")
    bail message
  | .ok () =>
  publishBinding launch.binding "loading_signed_registration" none
  publishBinding launch.binding "hashing_registered_game_files" none
  if launch.claims.registeredFiles ≠ [] then
    match Platform.verifyBuildManifest launch.rules launch.files launch.registered.gameRoot
        (registrationManifest launch.claims) with
    | .error _ => do
      publishBinding launch.binding "launch_failed" (some "REGISTERED_GAME_FILES_UNREADABLE")
      bail "registered game files could not be hashed"
    | .ok (_ :: _) => do
      publishBinding launch.binding "launch_failed" (some "REGISTERED_GAME_FILES_MISMATCH")
      bail "registered game files do not match their signed registration"
    | .ok [] => .value stateRoot
  else do
    let _ ← context (Platform.inspectExecutable launch.files launch.registered.game)
      "registered game executable could not be hashed"
    .value stateRoot

/-- `launch_with_root` up to the start of the game. -/
def openState (launch : RegisteredLaunch) (stateRoot : String) : Serving RuntimeState := do
  let snapshot ← passed
    ((Platform.inspectExecutable launch.files launch.registered.game).mapError outermost)
  let executableSha256 ← hexTo32 snapshot.executableSha256
  let trust ← passed launch.trustStore
  let state : RuntimeState := {
    gameProcessId := 0
    gameProcessIdentity := none
    key := launch.key
    hello := {
      protocolVersion := PROTOCOL_VERSION
      agentVersion := CARGO_PKG_VERSION
      agentPublicKey := (Crates.verifyingKey launch.key).1
      buildId := snapshot.executableSha256
      executableSha256 := executableSha256 }
    trust := trust
    registration := some launch.binding
    automaticUpdate := some (launch.update stateRoot) }
  publishRuntime state "starting_game" none
  .value state

omit [Crates] in
/-- `launch_unix` up to the session. -/
def startGame (launch : RegisteredLaunch) (state : RuntimeState) : Serving RuntimeState := do
  passed (launch.socketpair.mapError ("failed to create private Agent socketpair: " ++ ·))
  passed (launch.secured.mapError ("failed to secure private Agent socketpair: " ++ ·))
  let (processId, identity) ← context (Except.ofOption () launch.spawned) "failed to launch game"
  context (Except.ofOption () launch.cloned) "failed to clone private Agent channel"
  .value { state with gameProcessId := processId, gameProcessIdentity := identity }

def launchUnix (launch : RegisteredLaunch) (state : RuntimeState) : Serving Session := do
  let state ← startGame launch state
  attend launch (serve state launch.arrival launch.turns)

def launchWithRoot (launch : RegisteredLaunch) (stateRoot : String) : Serving Session := do
  let state ← openState launch stateRoot
  launchUnix launch state

/-- The whole launch; a failure before the game is started with its root has been published where
it was noticed. -/
def launchRegistered (launch : RegisteredLaunch) : Serving Session :=
  let prepared := prepareLaunch launch
  match prepared.result with
  | .error exit => ⟨prepared.emitted, .error exit⟩
  | .ok stateRoot =>
    publishFailure launch.binding
      ⟨prepared.emitted ++ (launchWithRoot launch stateRoot).emitted,
        (launchWithRoot launch stateRoot).result⟩

/-- The launch gets as far as serving the game with this state. -/
def Serves (launch : RegisteredLaunch) (state : RuntimeState) : Prop :=
  ∃ stateRoot opened, (prepareLaunch launch).result = .ok stateRoot ∧
    (openState launch stateRoot).result = .ok opened ∧ (startGame launch opened).result = .ok state

/-- The session ends with an error after it has published a status that ends a session. -/
structure EndsFinally (session : Serving Session) (status : RuntimeStatus) : Prop where
  failed : ∃ message, session.result = .error (.error message)
  last : lastStatus session.emitted = some status
  final : ∃ reason, finalReason status.state = some reason ∧ status.publicReason = some reason

end

/-! ## What is published last -/

theorem lastStatus_append (before after : List Action) :
    lastStatus (before ++ after) = (lastStatus after).or (lastStatus before) := by
  unfold lastStatus
  rw [statusesOf_append, List.getLast?_append]

theorem lastStatus_publishBinding (registration : RegistrationBinding) (runtimeState : String)
    (reason : Option String) (before : List Action) :
    lastStatus (before ++ (publishBinding registration runtimeState reason).emitted) =
      some (bindingStatus registration runtimeState reason) := by
  rw [lastStatus_append]
  rfl

theorem attend_of_failed {α : Type} {launch : RegisteredLaunch} {session : Serving α}
    {message : String} (h : session.result = .error (.error message)) :
    attend launch session = session := by
  unfold attend
  rw [h]

/-- The launcher leaves none of the statuses alone that end a session. -/
theorem not_alreadyPublished_of_final {registration : RegistrationBinding} {status : RuntimeStatus}
    {reason : String} (h : finalReason status.state = some reason) :
    ¬ alreadyPublished registration status := by
  intro hpublished
  unfold alreadyPublished at hpublished
  simp only [Bool.and_eq_true, Bool.or_eq_true, beq_iff_eq] at hpublished
  rcases hpublished.2 with (hstate | hstate) | hstate <;> simp [hstate, finalReason] at h

/-- A failure whose last status is not one that is left alone ends as a failed launch. -/
theorem lastStatus_publishFailure {α : Type} {registration : RegistrationBinding}
    {launched : Serving α} {status : RuntimeStatus} {message : String}
    (hfailed : launched.result = .error (.error message))
    (hlast : lastStatus launched.emitted = some status)
    (hnew : ¬ alreadyPublished registration status) :
    lastStatus (publishFailure registration launched).emitted =
      some (bindingStatus registration "launch_failed" (some "PROTECTED_LAUNCH_FAILED")) := by
  unfold publishFailure
  simp only [hfailed, hlast, Option.any_some]
  rw [if_neg hnew]
  exact lastStatus_publishBinding ..

theorem publishFailure_of_published {α : Type} {registration : RegistrationBinding}
    {launched : Serving α} {status : RuntimeStatus}
    (hlast : lastStatus launched.emitted = some status)
    (hpublished : alreadyPublished registration status) :
    publishFailure registration launched = launched := by
  unfold publishFailure
  split
  · rw [hlast, Option.any_some, if_pos hpublished]
  · rfl

section

variable [Crates] {launch : RegisteredLaunch} {state : RuntimeState}

/-- A launch that serves the game emits something before the session, and what comes after it is
decided by how the session ends. -/
theorem launchRegistered_of_serves (h : Serves launch state) :
    ∃ before, launchRegistered launch = publishFailure launch.binding
      ⟨before ++ (attend launch (serve state launch.arrival launch.turns)).emitted,
        (attend launch (serve state launch.arrival launch.turns)).result⟩ := by
  obtain ⟨stateRoot, opened, hprepared, hopened, hstarted⟩ := h
  have hunix : launchUnix launch opened = _ := Transcript.bind_of_ok hstarted _
  have hroot : launchWithRoot launch stateRoot = _ := Transcript.bind_of_ok hopened _
  refine ⟨(prepareLaunch launch).emitted ++ ((openState launch stateRoot).emitted ++
    (startGame launch opened).emitted), ?_⟩
  unfold launchRegistered
  simp only [hprepared, hroot, hunix, List.append_assoc]

theorem lastStatus_of_failed {status : RuntimeStatus} {message : String}
    (hserves : Serves launch state)
    (hfailed : (serve state launch.arrival launch.turns).result = .error (.error message))
    (hlast : lastStatus (serve state launch.arrival launch.turns).emitted = some status) :
    lastStatus (launchRegistered launch).emitted =
      if alreadyPublished launch.binding status then some status
      else some (bindingStatus launch.binding "launch_failed" (some "PROTECTED_LAUNCH_FAILED")) := by
  obtain ⟨before, hlaunch⟩ := launchRegistered_of_serves hserves
  rw [hlaunch, attend_of_failed hfailed]
  have hend : lastStatus (before ++ (serve state launch.arrival launch.turns).emitted) =
      some status := by
    rw [lastStatus_append, hlast, Option.some_or]
  by_cases hpublished : alreadyPublished launch.binding status
  · rw [if_pos hpublished, publishFailure_of_published hend hpublished]
    exact hend
  · rw [if_neg hpublished]
    exact lastStatus_publishFailure hfailed hend hpublished

/-- Whenever a session ends with an error after it published that it expired, was lost or was
revoked, the launch ends with another status. -/
theorem final_status_replaced {status : RuntimeStatus} (hserves : Serves launch state)
    (hends : EndsFinally (serve state launch.arrival launch.turns) status) :
    lastStatus (launchRegistered launch).emitted =
        some (bindingStatus launch.binding "launch_failed" (some "PROTECTED_LAUNCH_FAILED")) ∧
      ¬ ∃ last, lastStatus (launchRegistered launch).emitted = some last ∧
        last.state = status.state ∧ last.publicReason = status.publicReason := by
  obtain ⟨message, hfailed⟩ := hends.failed
  obtain ⟨reason, hfinal, hreason⟩ := hends.final
  have hlast := lastStatus_of_failed hserves hfailed hends.last
  rw [if_neg (not_alreadyPublished_of_final hfinal)] at hlast
  refine ⟨hlast, ?_⟩
  rintro ⟨last, hsame, hstate, -⟩
  obtain rfl := Option.some.inj (hlast.symm.trans hsame)
  rw [← hstate] at hfinal
  simp [bindingStatus, finalReason] at hfinal

theorem sessionTurn_of_expired {arrival : Arrival} {admitted : BoundAgentLaunch}
    {session : Session} {turn : Turn} (hadmits : Admits state arrival admitted)
    (hexpired : admitted.policyExpiresAtUnix ≤ turn.now) :
    sessionTurn state admitted session turn =
      ⟨.write (healthFrame admitted.sessionId "expired" session.lastReportAt ["POLICY_EXPIRED"]) ::
        published state "expired" (some "POLICY_EXPIRED"),
        .error (.error "Agent policy expired")⟩ := by
  have hsendable : Sendable
      (healthFrame admitted.sessionId "expired" session.lastReportAt ["POLICY_EXPIRED"]) :=
    sendable_healthFrame (len_pos_of_identifier hadmits.sessionId).2 (by decide) (by decide)
      (by decide)
  unfold sessionTurn writeHealth
  rw [if_pos hexpired, sendFrame_of_sendable hsendable, Transcript.emit_bind, publishRuntime_bind]
  simp

theorem endsFinally_of_expired {arrival : Arrival} {admitted : BoundAgentLaunch} {turn : Turn}
    {turns : List Turn} {registration : RegistrationBinding}
    (hadmits : Admits state arrival admitted) (hhello : Sendable (helloFrame state))
    (hregistration : state.registration = some registration)
    (hexpired : admitted.policyExpiresAtUnix ≤ turn.now) :
    EndsFinally (serve state arrival (turn :: turns))
      (bindingStatus registration "expired" (some "POLICY_EXPIRED")) := by
  have hturn := @sessionTurn_of_expired _ _ _ _ (openSession arrival admitted) _ hadmits hexpired
  have hrun := Transcript.run_cons_of_error (congrArg Transcript.result hturn) turns
  rw [hadmits.serve_eq hhello, hrun, hturn]
  refine ⟨⟨_, rfl⟩, ?_, _, rfl, rfl⟩
  rw [← List.cons_append, lastStatus_append]
  simp [lastStatus, published, hregistration, statusesOf]

end

theorem hexTo32_encode {bytes : Bytes} (h : bytes.length = 32) :
    hexTo32 (Hex.encode bytes) = .value bytes := by
  have hlen : len (Hex.encode bytes) = 64 := by
    unfold len
    rw [Hex.utf8ByteSize_encode, h]
  unfold hexTo32
  rw [if_neg (not_not.mpr hlen), Hex.decode_encode]
  rfl

namespace ExpiredLaunch

open Runtime.Sample

/-- The game of the sample launch. -/
def files : FileSystem :=
  FileSystem.ofTable [([], .directory true), (["chess.bin"], .file contents 0o755)] (by decide)
    (by decide)

/-- The loop wakes up at the second at which the policy expires. -/
def expiry : Turn where
  now := 1005
  received := .timeout
  after := 1005
  executable := none
  gameProcess :=
    { running := false, executableMatches := false, parentIsAgent := none,
      loadedModuleBasenames := [], processIdentityStable := none }
  processIdentity := none
  agentProcessId := 7

def launch : RegisteredLaunch where
  registered :=
    { claims := { Agent.Sample.registrationFor "chess" with registeredFiles := [] }
      game := ["chess.bin"]
      gameRoot := [] }
  launchAttemptId := "attempt"
  updateState := some "updates"
  installRoot := "/usr/local/lib/certael-agent"
  targetPlatform := "x86_64-unknown-linux-gnu"
  platformAgentName := "certael-agent"
  rules := Agent.Sample.unix
  files := files
  selectedAgent := .ok ()
  key := agentSeed
  trustStore := .ok trust
  socketpair := .ok ()
  secured := .ok ()
  spawned := some (7, none)
  cloned := some ()
  arrival := arrival
  turns := [expiry]
  waited := .ok .success

def opened : RuntimeState :=
  { Runtime.Sample.state with
    registration := some launch.binding
    automaticUpdate := some (launch.update "updates") }

def served : RuntimeState := { opened with gameProcessId := 7 }

theorem serves : Serves launch served := by
  have hsnapshot : Platform.inspectExecutable launch.files launch.registered.game =
      .ok ⟨"chess.bin", buildId, 4⟩ := by
    have hdigest : Crates.sha256 contents = contentsDigest := by decide +kernel
    show Except.ok _ = Except.ok _
    rw [buildId, ← hdigest]
    rfl
  have hopened : openState launch "updates" = publishRuntime opened "starting_game" none >>=
      fun _ => .value opened := by
    unfold openState
    rw [hsnapshot]
    simp only [Except.mapError, passed, Transcript.lift_ok_bind]
    rw [buildId, hexTo32_encode contentsDigest.2]
    rfl
  refine ⟨"updates", opened, rfl, ?_, rfl⟩
  rw [hopened]
  rfl

theorem ends : EndsFinally (serve served launch.arrival launch.turns)
    (bindingStatus launch.binding "expired" (some "POLICY_EXPIRED")) := by
  have hadmits : Admits served arrival Runtime.Sample.launch :=
    ⟨admits.bundle, by decide, admits.files⟩
  exact endsFinally_of_expired hadmits (by decide +kernel) rfl (by decide +kernel)

end ExpiredLaunch

theorem final_status_replaced_sample :
    ¬ ∃ last, lastStatus (launchRegistered ExpiredLaunch.launch).emitted = some last ∧
      last.state = "expired" ∧ last.publicReason = some "POLICY_EXPIRED" :=
  (final_status_replaced ExpiredLaunch.serves ExpiredLaunch.ends).2

/-- A launch whose policy expires ends as one that failed. -/
theorem not_final_status_kept : ¬ ∀ [Crates] (launch : RegisteredLaunch) (state : RuntimeState)
    (status : RuntimeStatus), Serves launch state →
      EndsFinally (serve state launch.arrival launch.turns) status →
        ∃ last, lastStatus (launchRegistered launch).emitted = some last ∧
          last.state = status.state ∧ last.publicReason = status.publicReason := by
  intro h
  obtain ⟨last, hlast, hstate, -⟩ := h _ _ _ ExpiredLaunch.serves ExpiredLaunch.ends
  obtain ⟨message, hfailed⟩ := ExpiredLaunch.ends.failed
  have hreplaced := lastStatus_of_failed ExpiredLaunch.serves hfailed ExpiredLaunch.ends.last
  rw [if_neg (not_alreadyPublished_of_final rfl)] at hreplaced
  obtain rfl := Option.some.inj (hreplaced.symm.trans hlast)
  exact absurd hstate (by decide)

end CertaelAgent.Agent
