import CertaelAgent.Runtime.Admission

/-!
# What is vouched for, and until when

A heartbeat or a report vouches for the game. The session loop compares the clock with the
policy's expiry and the report deadline at its head, then waits, and reads the clock again when
the wait is over. The second reading is compared with the deadline in the timeout arm only, and
with the expiry in no arm.
-/

namespace CertaelAgent.Runtime

open ProtoWire Protocol Ipc

section

variable [Crates]

/-- In every iteration of the run, what is vouched for is vouched for before the policy expires
and before the report deadline in force. -/
def VouchesInTime (state : RuntimeState) (arrival : Arrival) (launch : BoundAgentLaunch)
    (turns : List Turn) : Prop :=
  ∀ visit ∈ Transcript.visits (sessionTurn state launch) (openSession arrival launch) turns,
    ∀ frame ∈ framesOf (sessionTurn state launch visit.1 visit.2).emitted, IsSessionFrame frame →
      visit.2.after < launch.policyExpiresAtUnix ∧ visit.2.after < visit.1.reportDeadline

/-- A heartbeat is not due after the policy has expired, and a challenge that is answered has
arrived before both limits. -/
structure ArrivesInTime (state : RuntimeState) (launch : BoundAgentLaunch) (session : Session)
    (turn : Turn) : Prop where
  heartbeat : turn.received = .timeout → session.nextHeartbeat ≤ turn.after →
    turn.now < launch.policyExpiresAtUnix → turn.after < session.reportDeadline →
      turn.after < launch.policyExpiresAtUnix
  challenge : Answerable state launch session turn →
    turn.after < launch.policyExpiresAtUnix ∧ turn.after < session.reportDeadline

variable {state : RuntimeState} {arrival : Arrival} {launch : BoundAgentLaunch}
  {session : Session} {turn : Turn}

/-- The limits hold for one iteration exactly when what it waited for came in time. The clock
read after the wait is not behind the one read before it. -/
theorem vouches_turn_iff (hclock : turn.now ≤ turn.after)
    (hsendable : Sendable (healthFrame launch.sessionId "protected" session.lastReportAt [])) :
    (∀ frame ∈ framesOf (sessionTurn state launch session turn).emitted, IsSessionFrame frame →
      turn.after < launch.policyExpiresAtUnix ∧ turn.after < session.reportDeadline) ↔
      ArrivesInTime state launch session turn := by
  constructor
  · intro h
    constructor
    · intro hreceived hdue hunexpired hdeadline
      have honTime : turn.now < session.reportDeadline := Int64.lt_of_le_of_lt hclock hdeadline
      obtain ⟨frame, hmem, hhealth⟩ := writes_heartbeat_iff.mpr
        ⟨hunexpired, honTime, hreceived, hdue, hdeadline, hsendable⟩
      exact (h frame hmem (.inl hhealth)).1
    · intro hanswerable
      obtain ⟨frame, hmem, htype⟩ := writes_report_iff.mpr hanswerable
      exact h frame hmem (.inr htype)
  · rintro h frame hmem (hhealth | htype)
    · have hdue : HeartbeatDue launch session turn := writes_heartbeat_iff.mp ⟨frame, hmem, hhealth⟩
      exact ⟨h.heartbeat hdue.received hdue.due hdue.unexpired hdue.beforeDeadline,
        hdue.beforeDeadline⟩
    · exact h.challenge (writes_report_iff.mp ⟨frame, hmem, htype⟩)

omit [Crates] in
theorem ClockNondecreasing.now_le_after {turns : List Turn} (h : ClockNondecreasing arrival turns) :
    ∀ turn ∈ turns, turn.now ≤ turn.after := by
  unfold ClockNondecreasing at h
  have hturns := (List.isChain_append.mp h).2.1
  clear h
  induction turns with
  | nil => simp
  | cons first turns ih =>
    intro turn hturn
    rw [List.flatMap_cons] at hturns
    rcases List.mem_cons.mp hturn with rfl | hturn
    · exact (List.isChain_cons_cons.mp hturns).1
    · exact ih (List.isChain_append.mp hturns).2.1 turn hturn

/-- A run vouches in time exactly when every heartbeat and every answered challenge of it comes
in time. -/
theorem vouchesInTime_iff (hadmits : Admits state arrival launch) {turns : List Turn}
    (hclock : ClockNondecreasing arrival turns) :
    VouchesInTime state arrival launch turns ↔
      ∀ visit ∈ Transcript.visits (sessionTurn state launch) (openSession arrival launch) turns,
        ArrivesInTime state launch visit.1 visit.2 := by
  unfold VouchesInTime
  refine forall₂_congr fun visit hvisit => ?_
  have hturn : visit.2 ∈ turns :=
    (Transcript.visits_inputs_prefix _ turns).subset (List.mem_map_of_mem hvisit)
  exact vouches_turn_iff (hclock.now_le_after visit.2 hturn) (hadmits.sendable_protected _)

end

namespace Sample

/-- The wait of the first iteration ends when the heartbeat is due, at the second at which the
policy expires. -/
def lastHeartbeat : Turn where
  now := 1000
  received := .timeout
  after := 1005
  executable := none
  gameProcess :=
    { running := false, executableMatches := false, parentIsAgent := none,
      loadedModuleBasenames := [], processIdentityStable := none }
  processIdentity := none
  agentProcessId := 7

def challenge : AgentReportChallengeV1 where
  agentSessionId := "session"
  nonce := nonce
  expiresAtUnix := 1100

/-- An iteration in which the challenge is delivered. -/
def challengeAt (time : Int64) : Turn where
  now := time
  received := .frame ⟨.challenge, encode challenge⟩
  after := time
  executable := some
    { contents := contents, debuggerObserved := false, platform := "linux",
      loadedModuleBasenames := [], executableBuildId := none }
  gameProcess :=
    { running := false, executableMatches := false, parentIsAgent := none,
      loadedModuleBasenames := [], processIdentityStable := none }
  processIdentity := none
  agentProcessId := 7

def firstSigned : AgentIntegrityReportV1 := { firstReport with signature := firstSignature.1 }

/-- The launch arrives one second earlier. -/
def earlyArrival : Arrival :=
  { arrival with verifiedAt := 999, heartbeatFrom := 999, deadlineFrom := 999 }

theorem earlyAdmits : Admits state earlyArrival launch where
  bundle := ⟨encode bundle, rfl, verifyLaunchBundle_eq_ok_iff.mpr
    ⟨evidence, authentic_at (by decide) (by decide +kernel) (by decide +kernel) (by decide +kernel),
      by decide +kernel, le_refl _, rfl⟩⟩
  registration := by simp [state]
  files := rfl

/-- A challenge that is answered, and a wait that ends when the heartbeat is due, a second before
the policy expires. -/
def earlyTurns : List Turn := [challengeAt 1001, { lastHeartbeat with now := 1001, after := 1004 }]

def opened : Session := openSession arrival launch

theorem accepts {session : Session} {time : Int64}
    (hunexpired : time < launch.policyExpiresAtUnix) (honTime : time < session.reportDeadline)
    (hdecoded : decodeChallenge (encode challenge) time = .ok challenge) :
    Accepts launch session (challengeAt time) (encode challenge) challenge :=
  ⟨hunexpired, honTime, rfl, hdecoded, rfl⟩

theorem firstAccepted : Accepts launch opened (challengeAt 1001) (encode challenge) challenge :=
  accepts (by decide +kernel) (by decide +kernel) (by decide +kernel)

theorem firstAnswered : Answers state launch opened (challengeAt 1001) challenge firstSigned :=
  ⟨⟨_, rfl, by decide +kernel, by decide +kernel⟩, by decide +kernel, by decide +kernel⟩

end Sample

/-- A report and a heartbeat, both in time. -/
theorem vouchesInTime_iff_sample :
    VouchesInTime Sample.state Sample.earlyArrival Sample.launch Sample.earlyTurns ∧
      framesOf (Transcript.run (sessionTurn Sample.state Sample.launch)
        (openSession Sample.earlyArrival Sample.launch) Sample.earlyTurns).emitted =
        [reportFrame Sample.firstSigned, healthFrame "session" "protected" 1001 []] := by
  constructor
  · apply (vouchesInTime_iff Sample.earlyAdmits (by decide)).mpr
    intro visit hvisit
    have hlimits : ∀ visit ∈ Transcript.visits (sessionTurn Sample.state Sample.launch)
        (openSession Sample.earlyArrival Sample.launch) Sample.earlyTurns,
        visit.2.after < Sample.launch.policyExpiresAtUnix ∧
          visit.2.after < visit.1.reportDeadline := by decide +kernel
    obtain ⟨hunexpired, honTime⟩ := hlimits visit hvisit
    exact ⟨fun _ _ _ _ => hunexpired, fun _ => ⟨hunexpired, honTime⟩⟩
  · decide +kernel

/-- The game is called protected at the time its policy has expired. -/
theorem not_vouchesInTime : ¬ ∀ [Crates] (state : RuntimeState) (arrival : Arrival)
    (launch : BoundAgentLaunch) (turns : List Turn), Admits state arrival launch →
      ClockNondecreasing arrival turns → VouchesInTime state arrival launch turns := by
  intro h
  have htimely := h Sample.state Sample.arrival Sample.launch [Sample.lastHeartbeat]
    Sample.admits (by decide)
  have hdue : HeartbeatDue Sample.launch (openSession Sample.arrival Sample.launch)
      Sample.lastHeartbeat :=
    ⟨by decide +kernel, by decide +kernel, rfl, by decide +kernel, by decide +kernel,
      Sample.admits.sendable_protected _⟩
  obtain ⟨frame, hmem, hhealth⟩ : ∃ frame ∈ framesOf (sessionTurn Sample.state Sample.launch
      (openSession Sample.arrival Sample.launch) Sample.lastHeartbeat).emitted,
      IsHealth "protected" frame := writes_heartbeat_iff.mpr hdue
  have hlate := htimely _ (List.mem_cons_self ..) frame hmem (.inl hhealth)
  exact absurd hlate.1 (by decide +kernel)

end CertaelAgent.Runtime
