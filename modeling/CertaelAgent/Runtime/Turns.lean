import CertaelAgent.Runtime.Serve

/-!
# What admission and one iteration can do

The session loop has one arm for each thing the channel can deliver and many early exits. They
are sorted here once into the few outcomes that later results distinguish, each with everything
that has to hold for it. Nothing later looks into the routines themselves.
-/

namespace CertaelAgent.Runtime

open ProtoWire Protocol Ipc

def framesOf (out : List Action) : List Frame :=
  out.filterMap fun
    | .write frame => some frame
    | .publish _ => none

def statusesOf (out : List Action) : List RuntimeStatus :=
  out.filterMap fun
    | .write _ => none
    | .publish status => some status

@[simp] theorem framesOf_nil : framesOf [] = [] := rfl

@[simp] theorem framesOf_append (a b : List Action) :
    framesOf (a ++ b) = framesOf a ++ framesOf b :=
  List.filterMap_append

@[simp] theorem framesOf_write (frame : Frame) (out : List Action) :
    framesOf (.write frame :: out) = frame :: framesOf out := rfl

@[simp] theorem statusesOf_nil : statusesOf [] = [] := rfl

@[simp] theorem statusesOf_append (a b : List Action) :
    statusesOf (a ++ b) = statusesOf a ++ statusesOf b :=
  List.filterMap_append

@[simp] theorem statusesOf_write (frame : Frame) (out : List Action) :
    statusesOf (.write frame :: out) = statusesOf out := rfl

theorem mem_framesOf {frame : Frame} {out : List Action} :
    frame ∈ framesOf out ↔ Action.write frame ∈ out := by
  constructor
  · intro h
    obtain ⟨action, hmem, heq⟩ := List.mem_filterMap.mp h
    cases action with
    | write f => rwa [← Option.some.inj heq]
    | publish s => exact absurd heq nofun
  · intro h
    exact List.mem_filterMap.mpr ⟨_, h, rfl⟩

theorem mem_statusesOf {status : RuntimeStatus} {out : List Action} :
    status ∈ statusesOf out ↔ Action.publish status ∈ out := by
  constructor
  · intro h
    obtain ⟨action, hmem, heq⟩ := List.mem_filterMap.mp h
    cases action with
    | write f => exact absurd heq nofun
    | publish s => rwa [← Option.some.inj heq]
  · intro h
    exact List.mem_filterMap.mpr ⟨_, h, rfl⟩

/-- The actions of `publishRuntime`. -/
def published (state : RuntimeState) (runtimeState : String) (reason : Option String) :
    List Action :=
  match state.registration with
  | none => []
  | some registration => [.publish (bindingStatus registration runtimeState reason)]

theorem publishRuntime_bind {α : Type} (state : RuntimeState) (runtimeState : String)
    (reason : Option String) (f : Unit → Serving α) :
    publishRuntime state runtimeState reason >>= f =
      ⟨published state runtimeState reason ++ (f ()).emitted, (f ()).result⟩ := by
  unfold publishRuntime published
  cases state.registration with
  | none => rfl
  | some registration => rfl

@[simp] theorem framesOf_published (state : RuntimeState) (runtimeState : String)
    (reason : Option String) : framesOf (published state runtimeState reason) = [] := by
  unfold published
  cases state.registration <;> rfl

theorem state_of_mem_published {state : RuntimeState} {runtimeState : String}
    {reason : Option String} {status : RuntimeStatus}
    (h : status ∈ statusesOf (published state runtimeState reason)) :
    status.state = runtimeState := by
  unfold published at h
  cases hr : state.registration with
  | none => simp [hr] at h
  | some registration =>
    simp only [hr, statusesOf, List.filterMap_cons, List.filterMap_nil, List.mem_singleton] at h
    rw [h]
    rfl

@[simp] theorem bail_bind {α β : Type} (message : String) (f : α → Serving β) :
    (bail message : Serving α) >>= f = bail message := rfl

@[simp] theorem bail_emitted {α : Type} (message : String) :
    (bail message : Serving α).emitted = [] := rfl

@[simp] theorem bail_result {α : Type} (message : String) :
    (bail message : Serving α).result = .error (.error message) := rfl

/-- A frame that `writeFrame` takes. -/
def Sendable (frame : Frame) : Prop := frame.payload.length ≤ MAX_FRAME_PAYLOAD

instance (frame : Frame) : Decidable (Sendable frame) := inferInstanceAs (Decidable (_ ≤ _))

theorem sendFrame_of_sendable {frame : Frame} (h : Sendable frame) (message : String) :
    sendFrame frame message = .emit (.write frame) := by
  obtain ⟨bytes, hbytes⟩ := writeFrame_isOk_iff.mpr h
  unfold sendFrame
  rw [hbytes]
  rfl

theorem sendFrame_of_not_sendable {frame : Frame} (h : ¬ Sendable frame) (message : String) :
    sendFrame frame message = bail message := by
  unfold sendFrame writeFrame
  rw [if_pos (not_le.mp h)]
  rfl

/-- A health frame shows its state: no other state is encoded by the same bytes. -/
def IsHealth (health : String) (frame : Frame) : Prop :=
  ∃ sessionId lastReportAtUnix reasons, frame = healthFrame sessionId health lastReportAtUnix reasons

theorem IsHealth.unique {a b : String} {frame : Frame} (hs : Sendable frame)
    (ha : IsHealth a frame) (hb : IsHealth b frame) : a = b := by
  obtain ⟨sa, ta, ra, rfl⟩ := ha
  obtain ⟨sb, tb, rb, hb⟩ := hb
  have hlen : (healthFrame sa a ta ra).payload.length < 2 ^ 64 :=
    lt_of_le_of_lt hs (by decide)
  have hmessage := encode_injective hlen (congrArg Frame.payload hb)
  exact congrArg AgentHealthV1.state hmessage

theorem IsHealth.messageType {health : String} {frame : Frame} (h : IsHealth health frame) :
    frame.messageType = .health := by
  obtain ⟨_, _, _, rfl⟩ := h
  rfl

theorem not_isHealth_helloFrame {health : String} (state : RuntimeState) :
    ¬ IsHealth health (helloFrame state) := by
  intro h
  simpa [helloFrame] using h.messageType

theorem isHealth_healthFrame (sessionId health : String) (at' : Int64) (reasons : List String) :
    IsHealth health (healthFrame sessionId health at' reasons) :=
  ⟨sessionId, at', reasons, rfl⟩

variable [Crates]

/-- A challenge that the session at hand has to answer. -/
structure Accepts (launch : BoundAgentLaunch) (session : Session) (turn : Turn) (payload : Bytes)
    (challenge : AgentReportChallengeV1) : Prop where
  unexpired : turn.now < launch.policyExpiresAtUnix
  onTime : turn.now < session.reportDeadline
  received : turn.received = .frame ⟨.challenge, payload⟩
  decoded : decodeChallenge payload turn.after = .ok challenge
  session : challenge.agentSessionId = launch.sessionId

def reportFrame (report : AgentIntegrityReportV1) : Frame where
  messageType := .integrityReport
  payload := encode report

/-- The report that answers a challenge: the executable still has the digest of the hello, the
report over that digest is signed with the Agent's key, and it can be counted and sent. -/
structure Answers (state : RuntimeState) (launch : BoundAgentLaunch) (session : Session)
    (turn : Turn) (challenge : AgentReportChallengeV1) (report : AgentIntegrityReportV1) :
    Prop where
  signed : ∃ reading, turn.executable = some reading ∧
    (integritySnapshot reading).executableSha256 = state.hello.buildId ∧
    signReport (challengeReport state launch session turn challenge (integritySnapshot reading)
      (Crates.sha256 reading.contents).1) state.key = .ok report
  notExhausted : session.sequence ≠ UInt64.ofNat (2 ^ 64 - 1)
  sendable : Sendable (reportFrame report)

omit [Crates] in
theorem not_isHealth_reportFrame {health : String} (report : AgentIntegrityReportV1) :
    ¬ IsHealth health (reportFrame report) := by
  intro h
  simpa [reportFrame] using h.messageType

/-- The loop variables after a report has been sent. -/
def Session.afterReport (session : Session) (launch : BoundAgentLaunch) (turn : Turn)
    (report : AgentIntegrityReportV1) : Session where
  sequence := session.sequence + 1
  previousDigest := reportDigest report
  lastReportAt := turn.after
  nextHeartbeat := session.nextHeartbeat
  reportDeadline := turn.after + reportWindow launch

/-- A revocation of the session at hand. -/
def Revokes (state : RuntimeState) (launch : BoundAgentLaunch) (turn : Turn) : Prop :=
  ∃ payload signed revocation, turn.received = .frame ⟨.revocation, payload⟩ ∧
    encode signed = payload ∧ verifyRevocation signed state.trust turn.after = .ok revocation ∧
    revocation.agentSessionId = launch.sessionId ∧ revocation.tenantId = launch.tenantId ∧
    revocation.gameId = launch.gameId ∧ revocation.environmentId = launch.environmentId

/-- The health states that end a session, with the reason each is reported under. -/
def finalReason (health : String) : Option String :=
  if health = "expired" then some "POLICY_EXPIRED"
  else if health = "lost" then some "REPORT_DEADLINE_MISSED"
  else if health = "revoked" then some "SESSION_REVOKED"
  else none

/-- The outcomes of an iteration. -/
inductive TurnCases (state : RuntimeState) (launch : BoundAgentLaunch) (session : Session)
    (turn : Turn) : Serving Session → Prop
  /-- The session ends and the game is told nothing. -/
  | silent (exit : Exit) (statuses : List Action)
      (hframes : framesOf statuses = [])
      (hstatuses : ∀ status ∈ statusesOf statuses, status.state = "stopped") :
      TurnCases state launch session turn ⟨statuses, .error exit⟩
  /-- The session ends with a last health frame. -/
  | closed (health reason message : String) (hreason : finalReason health = some reason)
      (hsendable : Sendable (healthFrame launch.sessionId health session.lastReportAt [reason]))
      (hexpired : health = "expired" → launch.policyExpiresAtUnix ≤ turn.now)
      (hlost : health = "lost" → session.reportDeadline ≤ turn.now)
      (hrevoked : health = "revoked" → Revokes state launch turn) :
      TurnCases state launch session turn
        ⟨.write (healthFrame launch.sessionId health session.lastReportAt [reason]) ::
          published state health (some reason), .error (.error message)⟩
  /-- A timeout with nothing to do. -/
  | idle (hreceived : turn.received = .timeout) :
      TurnCases state launch session turn ⟨[], .ok session⟩
  | heartbeat (hunexpired : turn.now < launch.policyExpiresAtUnix)
      (honTime : turn.now < session.reportDeadline)
      (hreceived : turn.received = .timeout) (hdue : session.nextHeartbeat ≤ turn.after)
      (hdeadline : turn.after < session.reportDeadline)
      (hsendable : Sendable (healthFrame launch.sessionId "protected" session.lastReportAt [])) :
      TurnCases state launch session turn
        ⟨.write (healthFrame launch.sessionId "protected" session.lastReportAt []) ::
          published state "protected" none,
          .ok { session with nextHeartbeat := turn.after + seconds launch.heartbeatSeconds }⟩
  | answered (payload : Bytes) (challenge : AgentReportChallengeV1)
      (report : AgentIntegrityReportV1) (haccepts : Accepts launch session turn payload challenge)
      (hanswers : Answers state launch session turn challenge report) :
      TurnCases state launch session turn
        ⟨.write (reportFrame report) :: published state "protected" none,
          .ok (session.afterReport launch turn report)⟩

variable {state : RuntimeState} {launch : BoundAgentLaunch} {session : Session} {turn : Turn}

theorem TurnCases.bail (message : String) :
    TurnCases state launch session turn (bail message) :=
  .silent _ [] rfl (by simp)

theorem TurnCases.finish (reason : Option String) :
    TurnCases state launch session turn
      (publishRuntime state "stopped" reason >>= fun _ => finish) := by
  rw [publishRuntime_bind]
  refine .silent (.ok ()) _ (by simp [Runtime.finish, Transcript.stop]) ?_
  intro status h
  rw [statusesOf_append] at h
  exact state_of_mem_published (by simpa [Runtime.finish, Transcript.stop] using h)

theorem TurnCases.close (health reason message : String)
    (hreason : finalReason health = some reason)
    (hexpired : health = "expired" → launch.policyExpiresAtUnix ≤ turn.now)
    (hlost : health = "lost" → session.reportDeadline ≤ turn.now)
    (hrevoked : health = "revoked" → Revokes state launch turn) :
    TurnCases state launch session turn (do
      writeHealth launch.sessionId health session.lastReportAt [reason]
      publishRuntime state health (some reason)
      Runtime.bail message) := by
  unfold writeHealth
  by_cases hsend : Sendable (healthFrame launch.sessionId health session.lastReportAt [reason])
  · have hclosed : TurnCases state launch session turn _ :=
      .closed health reason message hreason hsend hexpired hlost hrevoked
    rw [sendFrame_of_sendable hsend, Transcript.emit_bind, publishRuntime_bind]
    simpa using hclosed
  · rw [sendFrame_of_not_sendable hsend]
    exact .bail _

theorem heartbeat_cases (hunexpired : turn.now < launch.policyExpiresAtUnix)
    (honTime : turn.now < session.reportDeadline) (hreceived : turn.received = .timeout) :
    TurnCases state launch session turn (heartbeat state launch session turn.after) := by
  unfold heartbeat
  by_cases hdue : session.nextHeartbeat ≤ turn.after ∧ turn.after < session.reportDeadline
  · rw [if_pos hdue]
    unfold writeHealth
    by_cases hsend : Sendable (healthFrame launch.sessionId "protected" session.lastReportAt [])
    · have hbeat : TurnCases state launch session turn _ :=
        .heartbeat hunexpired honTime hreceived hdue.1 hdue.2 hsend
      rw [sendFrame_of_sendable hsend, Transcript.emit_bind, publishRuntime_bind]
      simpa [Transcript.value] using hbeat
    · rw [sendFrame_of_not_sendable hsend]
      exact .bail _
  · rw [if_neg hdue]
    exact .idle hreceived

theorem answerChallenge_of_answers {payload : Bytes} {challenge : AgentReportChallengeV1}
    {report : AgentIntegrityReportV1} (haccepts : Accepts launch session turn payload challenge)
    (hanswers : Answers state launch session turn challenge report) :
    answerChallenge state launch session turn payload =
      ⟨.write (reportFrame report) :: published state "protected" none,
        .ok (session.afterReport launch turn report)⟩ := by
  obtain ⟨reading, hreading, hbuild, hsign⟩ := hanswers.signed
  have hdecode : Hex.decode (integritySnapshot reading).executableSha256 =
      some (Crates.sha256 reading.contents).1 := Hex.decode_encode _
  unfold answerChallenge
  simp only [haccepts.decoded, haccepts.session, hreading, inspectExecutable, Option.map_some,
    Except.ofOption, context, Except.mapError, Transcript.lift_ok_bind, ne_eq, not_true_eq_false,
    if_false, hbuild ▸ hdecode, hbuild, hsign, if_neg hanswers.notExhausted]
  rw [show Frame.mk .integrityReport (encode report) = reportFrame report from rfl,
    sendFrame_of_sendable hanswers.sendable, Transcript.emit_bind, publishRuntime_bind]
  simp [Transcript.value, Session.afterReport]

theorem answerChallenge_cases {payload : Bytes} (hunexpired : turn.now < launch.policyExpiresAtUnix)
    (honTime : turn.now < session.reportDeadline)
    (hreceived : turn.received = .frame ⟨.challenge, payload⟩) :
    TurnCases state launch session turn (answerChallenge state launch session turn payload) := by
  unfold answerChallenge
  cases hdecode : decodeChallenge payload turn.after with
  | error e => exact .bail _
  | ok challenge =>
  simp only [context, Except.mapError, Transcript.lift_ok_bind]
  by_cases hsession : challenge.agentSessionId ≠ launch.sessionId
  · rw [if_pos hsession]
    exact .bail _
  rw [if_neg hsession]
  cases hreading : turn.executable with
  | none => exact .bail _
  | some reading =>
  simp only [inspectExecutable, Option.map_some, Except.ofOption, Transcript.lift_ok_bind]
  by_cases hbuild : (integritySnapshot reading).executableSha256 ≠ state.hello.buildId
  · rw [if_pos hbuild]
    exact .bail _
  have hdigest : Hex.decode (integritySnapshot reading).executableSha256 =
      some (Crates.sha256 reading.contents).1 := Hex.decode_encode _
  rw [if_neg hbuild, hdigest]
  simp only [Transcript.lift_ok_bind]
  cases hsign : signReport (challengeReport state launch session turn challenge
      (integritySnapshot reading) (Crates.sha256 reading.contents).1) state.key with
  | error e => exact .bail _
  | ok report =>
  simp only [Transcript.lift_ok_bind]
  by_cases hexhausted : session.sequence = UInt64.ofNat (2 ^ 64 - 1)
  · rw [if_pos hexhausted]
    exact .bail _
  rw [if_neg hexhausted, show Frame.mk .integrityReport (encode report) = reportFrame report from rfl]
  by_cases hsend : Sendable (reportFrame report)
  · have hanswered : TurnCases state launch session turn _ :=
      .answered payload challenge report
        ⟨hunexpired, honTime, hreceived, hdecode, not_not.mp hsession⟩
        ⟨⟨reading, hreading, not_not.mp hbuild, hsign⟩, hexhausted, hsend⟩
    rw [sendFrame_of_sendable hsend, Transcript.emit_bind, publishRuntime_bind]
    simpa [Transcript.value, Session.afterReport] using hanswered
  · rw [sendFrame_of_not_sendable hsend]
    exact .bail _

theorem acceptRevocation_cases {payload : Bytes}
    (hreceived : turn.received = .frame ⟨.revocation, payload⟩) :
    TurnCases state launch session turn (acceptRevocation state launch session turn payload) := by
  unfold acceptRevocation decodeRevocation
  cases hdecode : decode (M := SignedAgentRevocationV1) payload with
  | none => exact .bail _
  | some signed =>
  by_cases hcanonical : encode signed ≠ payload
  · simp only [if_pos hcanonical]
    exact .bail _
  simp only [if_neg hcanonical, Transcript.value_bind]
  cases hverify : verifyRevocation signed state.trust turn.after with
  | error e => exact .bail _
  | ok revocation =>
  simp only [context, Except.mapError, Transcript.lift_ok_bind]
  by_cases hother : revocation.agentSessionId ≠ launch.sessionId
      ∨ revocation.tenantId ≠ launch.tenantId
      ∨ revocation.gameId ≠ launch.gameId
      ∨ revocation.environmentId ≠ launch.environmentId
  · rw [if_pos hother]
    exact .bail _
  rw [if_neg hother]
  simp only [not_or, not_not] at hother hcanonical
  exact .close "revoked" "SESSION_REVOKED" _ rfl (fun h => absurd h (by decide))
    (fun h => absurd h (by decide))
    fun _ => ⟨payload, signed, revocation, hreceived, hcanonical, hverify, hother⟩

theorem sessionTurn_cases (state : RuntimeState) (launch : BoundAgentLaunch) (session : Session)
    (turn : Turn) :
    TurnCases state launch session turn (sessionTurn state launch session turn) := by
  unfold sessionTurn
  by_cases hexpired : launch.policyExpiresAtUnix ≤ turn.now
  · rw [if_pos hexpired]
    exact .close "expired" "POLICY_EXPIRED" _ rfl (fun _ => hexpired)
      (fun h => absurd h (by decide)) (fun h => absurd h (by decide))
  by_cases hlost : session.reportDeadline ≤ turn.now
  · rw [if_neg hexpired, if_pos hlost]
    exact .close "lost" "REPORT_DEADLINE_MISSED" _ rfl (fun h => absurd h (by decide))
      (fun _ => hlost) (fun h => absurd h (by decide))
  rw [if_neg hexpired, if_neg hlost]
  rw [Int64.not_le] at hexpired hlost
  cases hreceived : turn.received with
  | failed error =>
    cases error with
    | io => exact .finish _
    | invalidHeader => exact .bail _
    | unknownMessage => exact .bail _
    | tooLarge => exact .bail _
  | timeout => exact heartbeat_cases hexpired hlost hreceived
  | disconnected => exact .finish _
  | frame frame =>
    obtain ⟨messageType, payload⟩ := frame
    cases messageType with
    | challenge => exact answerChallenge_cases hexpired hlost hreceived
    | revocation => exact acceptRevocation_cases hreceived
    | shutdown =>
      simp only [handleFrame]
      split_ifs
      · exact .bail _
      · exact .finish _
    | agentHello => exact .bail _
    | launchGrant => exact .bail _
    | integrityReport => exact .bail _
    | health => exact .bail _

/-- A heartbeat that the session at hand sends. -/
structure HeartbeatDue (launch : BoundAgentLaunch) (session : Session) (turn : Turn) : Prop where
  unexpired : turn.now < launch.policyExpiresAtUnix
  onTime : turn.now < session.reportDeadline
  received : turn.received = .timeout
  due : session.nextHeartbeat ≤ turn.after
  beforeDeadline : turn.after < session.reportDeadline
  sendable : Sendable (healthFrame launch.sessionId "protected" session.lastReportAt [])

/-- The received frame is a challenge that the session at hand accepts and answers. -/
def Answerable (state : RuntimeState) (launch : BoundAgentLaunch) (session : Session)
    (turn : Turn) : Prop :=
  ∃ payload challenge report, Accepts launch session turn payload challenge ∧
    Answers state launch session turn challenge report

theorem sessionTurn_of_answers {payload : Bytes} {challenge : AgentReportChallengeV1}
    {report : AgentIntegrityReportV1} (haccepts : Accepts launch session turn payload challenge)
    (hanswers : Answers state launch session turn challenge report) :
    sessionTurn state launch session turn =
      ⟨.write (reportFrame report) :: published state "protected" none,
        .ok (session.afterReport launch turn report)⟩ := by
  unfold sessionTurn
  rw [if_neg (Int64.not_le.mpr haccepts.unexpired), if_neg (Int64.not_le.mpr haccepts.onTime),
    haccepts.received]
  exact answerChallenge_of_answers haccepts hanswers

omit [Crates] in
theorem heartbeat_of_due (h : HeartbeatDue launch session turn) :
    heartbeat state launch session turn.after =
      ⟨.write (healthFrame launch.sessionId "protected" session.lastReportAt []) ::
        published state "protected" none,
        .ok { session with nextHeartbeat := turn.after + seconds launch.heartbeatSeconds }⟩ := by
  unfold heartbeat writeHealth
  rw [if_pos ⟨h.due, h.beforeDeadline⟩, sendFrame_of_sendable h.sendable, Transcript.emit_bind,
    publishRuntime_bind]
  simp [Transcript.value]

/-- A report is written exactly in answer to a challenge. -/
theorem writes_report_iff :
    (∃ frame ∈ framesOf (sessionTurn state launch session turn).emitted,
      frame.messageType = .integrityReport) ↔ Answerable state launch session turn := by
  constructor
  · rintro ⟨frame, hmem, htype⟩
    have hcases := sessionTurn_cases state launch session turn
    generalize sessionTurn state launch session turn = t at hcases hmem
    cases hcases with
    | silent exit statuses hframes => simp [hframes] at hmem
    | closed health reason message =>
      obtain rfl : frame = _ := by simpa using hmem
      exact absurd htype nofun
    | idle => simp at hmem
    | heartbeat =>
      obtain rfl : frame = _ := by simpa using hmem
      exact absurd htype nofun
    | answered payload challenge report haccepts hanswers =>
      exact ⟨payload, challenge, report, haccepts, hanswers⟩
  · rintro ⟨payload, challenge, report, haccepts, hanswers⟩
    rw [sessionTurn_of_answers haccepts hanswers]
    exact ⟨reportFrame report, by simp, rfl⟩

theorem writes_heartbeat_iff :
    (∃ frame ∈ framesOf (sessionTurn state launch session turn).emitted,
      IsHealth "protected" frame) ↔ HeartbeatDue launch session turn := by
  constructor
  · rintro ⟨frame, hmem, hhealth⟩
    have hcases := sessionTurn_cases state launch session turn
    generalize sessionTurn state launch session turn = t at hcases hmem
    cases hcases with
    | silent exit statuses hframes => simp [hframes] at hmem
    | closed health reason message hreason hsendable =>
      obtain rfl : frame = _ := by simpa using hmem
      obtain rfl := hhealth.unique hsendable (isHealth_healthFrame ..)
      exact absurd hreason nofun
    | idle => simp at hmem
    | heartbeat hunexpired honTime hreceived hdue hdeadline hsendable =>
      exact ⟨hunexpired, honTime, hreceived, hdue, hdeadline, hsendable⟩
    | answered payload challenge report =>
      obtain rfl : frame = reportFrame report := by simpa using hmem
      exact absurd hhealth (not_isHealth_reportFrame report)
  · intro h
    unfold sessionTurn
    rw [if_neg (Int64.not_le.mpr h.unexpired), if_neg (Int64.not_le.mpr h.onTime), h.received]
    simp only [heartbeat_of_due h]
    exact ⟨healthFrame launch.sessionId "protected" session.lastReportAt [], by simp,
      isHealth_healthFrame ..⟩

/-- Everything that an admitted launch rests on. -/
structure Admits (state : RuntimeState) (arrival : Arrival) (launch : BoundAgentLaunch) : Prop where
  bundle : ∃ payload, arrival.received = .frame ⟨.launchGrant, payload⟩ ∧
    verifyLaunchBundle payload state.trust arrival.verifiedAt (Crates.verifyingKey state.key)
      state.hello.buildId CARGO_PKG_VERSION = .ok launch
  registration : ∀ registration ∈ state.registration, registrationMatches registration launch
  files : arrival.verifyFiles (platformManifest launch.buildManifest) = .ok []

/-- What is seen of a successful admission. -/
def greeting (state : RuntimeState) (launch : BoundAgentLaunch) : List Action :=
  published state "awaiting_server_admission" none ++
    (published state "verifying_signed_launch_bundle" none ++
      .write (healthFrame launch.sessionId "ready" 0 []) :: published state "protected" none)

omit [Crates] in
/-- A refused game sees at most one health frame, and nothing says that it is protected. -/
structure Refusal (out : List Action) : Prop where
  frames : framesOf out = [] ∨ ∃ health frame, framesOf out = [frame] ∧ Sendable frame ∧
    IsHealth health frame ∧ (health = "rejected" ∨ health = "update_required")
  statuses : ∀ status ∈ statusesOf out, status.state ≠ "protected"

omit [Crates] in
theorem Refusal.nil : Refusal [] := ⟨.inl rfl, by simp⟩

omit [Crates] in
theorem Refusal.publish_before {out : List Action} (h : Refusal out) (state : RuntimeState)
    {runtimeState : String} (hstate : runtimeState ≠ "protected") (reason : Option String) :
    Refusal (published state runtimeState reason ++ out) := by
  refine ⟨by simpa using h.frames, fun status hmem => ?_⟩
  rcases List.mem_append.mp (statusesOf_append .. ▸ hmem) with hmem | hmem
  · rw [state_of_mem_published hmem]
    exact hstate
  · exact h.statuses status hmem

omit [Crates] in
theorem Refusal.publish_after {out : List Action} (h : Refusal out) (state : RuntimeState)
    {runtimeState : String} (hstate : runtimeState ≠ "protected") (reason : Option String) :
    Refusal (out ++ published state runtimeState reason) := by
  refine ⟨by simpa using h.frames, fun status hmem => ?_⟩
  rcases List.mem_append.mp (statusesOf_append .. ▸ hmem) with hmem | hmem
  · exact h.statuses status hmem
  · rw [state_of_mem_published hmem]
    exact hstate

omit [Crates] in
theorem Refusal.health (sessionId health : String) (lastReportAt : Int64) (reasons : List String)
    (hhealth : health = "rejected" ∨ health = "update_required") :
    Refusal (writeHealth sessionId health lastReportAt reasons).emitted := by
  unfold writeHealth
  by_cases hsend : Sendable (healthFrame sessionId health lastReportAt reasons)
  · rw [sendFrame_of_sendable hsend]
    exact ⟨.inr ⟨health, _, rfl, hsend, isHealth_healthFrame .., hhealth⟩, nofun⟩
  · rw [sendFrame_of_not_sendable hsend]
    exact .nil

/-- The outcomes of admission. -/
inductive AdmissionCases (state : RuntimeState) (arrival : Arrival) :
    Serving (BoundAgentLaunch × Session) → Prop
  | refused (out : List Action) (exit : Exit) (h : Refusal out) :
      AdmissionCases state arrival ⟨out, .error exit⟩
  | admitted (launch : BoundAgentLaunch) (hadmits : Admits state arrival launch)
      (hsendable : Sendable (healthFrame launch.sessionId "ready" 0 [])) :
      AdmissionCases state arrival ⟨greeting state launch, .ok (launch, openSession arrival launch)⟩

variable {arrival : Arrival}

omit [Crates] in
theorem reject_eq {α : Type} (state : RuntimeState) (sessionId code message : String) :
    ∃ out, (reject state sessionId code message : Serving α) = ⟨out, .error (.error message)⟩ ∧
      Refusal out := by
  unfold reject
  rw [publishRuntime_bind]
  refine ⟨_, rfl, .publish_before ?_ state (by decide) _⟩
  simpa using
    Refusal.health sessionId "rejected" 0 [code] (.inl rfl)

omit [Crates] in
theorem requireUpdate_eq {α : Type} (state : RuntimeState) (arrival : Arrival) :
    ∃ out exit, (requireUpdate state arrival : Serving α) = ⟨out, .error exit⟩ ∧ Refusal out := by
  have hhealth : Refusal (writeHealth "unbound" "update_required" 0
      ["AGENT_UPDATE_REQUIRED"]).emitted := .health _ _ _ _ (.inr rfl)
  unfold requireUpdate
  simp only [publishRuntime_bind, Transcript.ignore_bind]
  cases state.automaticUpdate with
  | none =>
    refine ⟨_, _, rfl, .publish_before ?_ state (by decide) _⟩
    simpa using hhealth
  | some update =>
    have hinstalling := hhealth.publish_after state
      (show "installing_required_update" ≠ "protected" by decide) (some "AGENT_UPDATE_REQUIRED")
    dsimp only
    cases arrival.update update with
    | installed =>
      have hready := hinstalling.publish_after state
        (show "update_ready" ≠ "protected" by decide) (some "RELAUNCH_TO_ACTIVATE_UPDATE")
      refine ⟨_, _, rfl, .publish_before ?_ state (by decide) _⟩
      simpa [publishRuntime_bind, List.append_assoc] using hready
    | failed =>
      have hfailed := hinstalling.publish_after state
        (show "update_failed" ≠ "protected" by decide) (some "AGENT_UPDATE_FAILED")
      refine ⟨_, _, rfl, .publish_before ?_ state (by decide) _⟩
      simpa [publishRuntime_bind, List.append_assoc] using hfailed
    | runtimeUnavailable =>
      refine ⟨_, _, rfl, .publish_before ?_ state (by decide) _⟩
      simpa using hinstalling
    | invalidMetadataUrl =>
      refine ⟨_, _, rfl, .publish_before ?_ state (by decide) _⟩
      simpa using hinstalling
    | invalidTargetsUrl =>
      refine ⟨_, _, rfl, .publish_before ?_ state (by decide) _⟩
      simpa using hinstalling

theorem admission_cases (state : RuntimeState) (arrival : Arrival) :
    AdmissionCases state arrival (admission state arrival) := by
  unfold admission
  rw [publishRuntime_bind]
  have hawaiting : ∀ {out : List Action}, Refusal out →
      Refusal (published state "awaiting_server_admission" none ++ out) :=
    fun h => h.publish_before state (by decide) _
  have hverifying : ∀ {out : List Action}, Refusal out →
      Refusal (published state "verifying_signed_launch_bundle" none ++ out) :=
    fun h => h.publish_before state (by decide) _
  cases hreceived : arrival.received with
  | failed error =>
    obtain ⟨out, hout, h⟩ := reject_eq (α := Frame) state "unbound"
      "AGENT_ADMISSION_CHANNEL_FAILED" "protected game channel failed before Agent admission"
    simp only [hout]
    exact .refused _ _ (hawaiting h)
  | timeout =>
    obtain ⟨out, hout, h⟩ := reject_eq (α := Frame) state "unbound" "AGENT_ADMISSION_TIMEOUT"
      "protected game did not provide Agent admission in time"
    simp only [hout]
    exact .refused _ _ (hawaiting h)
  | disconnected =>
    obtain ⟨out, hout, h⟩ := reject_eq (α := Frame) state "unbound"
      "AGENT_ADMISSION_CHANNEL_CLOSED" "protected game channel closed before Agent admission"
    simp only [hout]
    exact .refused _ _ (hawaiting h)
  | frame bootstrap =>
  obtain ⟨messageType, payload⟩ := bootstrap
  simp only [Transcript.value_bind]
  by_cases htype : messageType ≠ .launchGrant
  · rw [if_pos htype]
    obtain ⟨out, hout, h⟩ := reject_eq (α := BoundAgentLaunch × Session) state "unbound"
      "AGENT_ADMISSION_TYPE_INVALID" "protected game did not provide a signed Agent launch bundle"
    rw [hout]
    exact .refused _ _ (hawaiting h)
  rw [if_neg htype]
  obtain rfl := not_not.mp htype
  rw [publishRuntime_bind]
  generalize hverify : verifyLaunchBundle payload state.trust arrival.verifiedAt
    (Crates.verifyingKey state.key) state.hello.buildId CARGO_PKG_VERSION = verdict
  split
  · next launch =>
    by_cases hreg : ∃ registration ∈ state.registration, ¬ registrationMatches registration launch
    · rw [if_pos hreg]
      obtain ⟨out, hout, h⟩ := reject_eq (α := BoundAgentLaunch × Session) state launch.sessionId
        "AGENT_REGISTRATION_MISMATCH" "signed launch bundle does not match the registered game"
      rw [hout]
      exact .refused _ _ (hawaiting (hverifying h))
    rw [if_neg hreg]
    simp only [not_exists, not_and, not_not] at hreg
    cases hfiles : arrival.verifyFiles (platformManifest launch.buildManifest) with
    | error e =>
      obtain ⟨out, hout, h⟩ := reject_eq (α := BoundAgentLaunch × Session) state launch.sessionId
        "AGENT_MANIFEST_VERIFICATION_FAILED" "protected build manifest could not be verified"
      rw [hout]
      exact .refused _ _ (hawaiting (hverifying h))
    | ok mismatches =>
    cases mismatches with
    | cons mismatch rest =>
      obtain ⟨out, hout, h⟩ := reject_eq (α := BoundAgentLaunch × Session) state launch.sessionId
        "AGENT_BUILD_MISMATCH" "protected build does not match its signed manifest"
      rw [hout]
      exact .refused _ _ (hawaiting (hverifying h))
    | nil =>
    simp only [writeHealth]
    by_cases hsend : Sendable (healthFrame launch.sessionId "ready" 0 [])
    · have hadmitted : AdmissionCases state arrival _ :=
        .admitted launch ⟨⟨payload, hreceived, hverify⟩, hreg, hfiles⟩ hsend
      rw [sendFrame_of_sendable hsend, Transcript.emit_bind, publishRuntime_bind]
      simpa [greeting, Transcript.value] using hadmitted
    · rw [sendFrame_of_not_sendable hsend]
      exact .refused _ _ (hawaiting (hverifying .nil))
  · obtain ⟨out, exit, hout, h⟩ := requireUpdate_eq (α := BoundAgentLaunch) state arrival
    rw [hout]
    exact .refused _ _ (hawaiting (hverifying h))
  · obtain ⟨out, hout, h⟩ := reject_eq (α := BoundAgentLaunch) state "unbound"
      "AGENT_LAUNCH_BUNDLE_REJECTED" "signed Agent launch bundle was rejected"
    rw [hout]
    exact .refused _ _ (hawaiting (hverifying h))

/-- The outcomes of a whole run. -/
inductive ServeCases (state : RuntimeState) (arrival : Arrival) (turns : List Turn) :
    Serving Session → Prop
  | mute (h : ¬ Sendable (helloFrame state)) :
      ServeCases state arrival turns ⟨[], .error (.error "failed to send Agent hello")⟩
  | refused (out : List Action) (exit : Exit) (h : Refusal out) :
      ServeCases state arrival turns ⟨.write (helloFrame state) :: out, .error exit⟩
  | admitted (launch : BoundAgentLaunch) (hadmits : Admits state arrival launch)
      (hsendable : Sendable (healthFrame launch.sessionId "ready" 0 [])) :
      ServeCases state arrival turns
        ⟨.write (helloFrame state) :: (greeting state launch ++
          (Transcript.run (sessionTurn state launch) (openSession arrival launch) turns).emitted),
        (Transcript.run (sessionTurn state launch) (openSession arrival launch) turns).result⟩

theorem serve_cases (state : RuntimeState) (arrival : Arrival) (turns : List Turn) :
    ServeCases state arrival turns (serve state arrival turns) := by
  unfold serve
  by_cases hsend : Sendable (helloFrame state)
  · rw [sendFrame_of_sendable hsend, Transcript.emit_bind]
    have hadmission := admission_cases state arrival
    generalize admission state arrival = t at hadmission ⊢
    cases hadmission with
    | refused out exit h => exact .refused out exit h
    | admitted launch hadmits hready => exact .admitted launch hadmits hready
  · rw [sendFrame_of_not_sendable hsend]
    exact .mute hsend

end CertaelAgent.Runtime
