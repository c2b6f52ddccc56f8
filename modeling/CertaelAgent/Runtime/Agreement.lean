import CertaelAgent.Runtime.ReportChain
import CertaelAgent.Session.Binding

/-!
# Two sessions of one launch

The loop of the Agent and the session of the library answer challenges each in its own way: the
loop numbers the next report, the session the last one, and only the session remembers which
challenge it has answered last. Given the same challenges they make the same reports, until a
challenge comes twice in a row.
-/

namespace CertaelAgent.Runtime

open ProtoWire Protocol Ipc
open CertaelAgent.Session (AgentSession ReportCall challengeDigest createReport_ok createReport_error
  accepted_cons_ok accepted_cons_error Activates exists_activate activate_ok)

section

variable [Crates]

/-- The arguments that the loop would pass for an answer. -/
def callOf (state : RuntimeState) (challenge : AgentReportChallengeV1) (turn : Turn)
    (reading : ExecutableReading) : ReportCall where
  challenge := challenge
  nowUnix := turn.after
  executableSha256 := Crates.sha256 reading.contents
  observations := observations state turn.agentProcessId (integritySnapshot reading)
    (inspectGameProcessBound state.gameProcessId turn.gameProcess turn.processIdentity
      state.gameProcessIdentity)

/-- The call that corresponds to an iteration with an answer. -/
def answeredCall (state : RuntimeState) (launch : BoundAgentLaunch) (visit : Session × Turn) :
    Option ReportCall :=
  match acceptedChallenge launch visit, visit.2.executable,
      (sessionTurn state launch visit.1 visit.2).result with
  | some challenge, some reading, .ok _ => some (callOf state challenge visit.2 reading)
  | _, _, _ => none

def answeredCalls (state : RuntimeState) (launch : BoundAgentLaunch) (session : Session)
    (turns : List Turn) : List ReportCall :=
  (Transcript.visits (sessionTurn state launch) session turns).filterMap (answeredCall state launch)

/-- The two sessions are at the same place of one chain. -/
structure SamePlace (state : RuntimeState) (launch : BoundAgentLaunch) (session : Session)
    (agent : AgentSession) : Prop where
  key : agent.signingKey = state.key
  sessionId : agent.agentSessionId = launch.sessionId
  buildId : agent.grant.buildId = launch.buildId
  sequence : session.sequence.toNat = agent.sequence.toNat + 1
  previous : agent.previousDigest = session.previousDigest

variable {state : RuntimeState} {arrival : Arrival} {launch : BoundAgentLaunch} {session : Session}
  {turn : Turn} {turns : List Turn} {agent : AgentSession}

omit [Crates] in
theorem admissible_of_decodeChallenge {payload : Bytes} {challenge : AgentReportChallengeV1}
    {nowUnix : Int64} (h : decodeChallenge payload nowUnix = .ok challenge)
    (hsession : challenge.agentSessionId = agent.agentSessionId) :
    agent.Admissible challenge nowUnix := by
  obtain ⟨found, -, h⟩ := Except.bind_eq_ok_iff.mp h
  split_ifs at h with hbad
  obtain rfl := Except.ok.inj h
  simp only [not_or, not_not, not_lt, Int64.not_le] at hbad
  obtain ⟨-, hshort, hlong, hunexpired, hsoon⟩ := hbad
  have hlimit : ¬ 120 < found.expiresAtUnix - nowUnix := by
    -- the sum is in range because the challenge expires behind the clock
    have hlow := nowUnix.le_toInt
    have hhigh := found.expiresAtUnix.toInt_lt
    have hconstant : (120 : Int64).toInt = 120 := rfl
    rw [Int64.lt_iff_toInt_lt] at hunexpired ⊢
    rw [Int64.lt_iff_toInt_lt, Int64.toInt_add, hconstant] at hsoon
    rw [Int64.toInt_sub, hconstant]
    unfold Int.bmod at hsoon ⊢
    dsimp only at hsoon ⊢
    push_cast at hsoon ⊢
    split_ifs at hsoon ⊢ <;> omega
  unfold AgentSession.Admissible
  rw [not_or, not_or, not_or, not_or, not_not, not_lt, not_lt, Int64.not_le]
  exact ⟨hsession, hshort, hlong, hunexpired, hlimit⟩

theorem answeredCall_of_answers {payload : Bytes} {challenge : AgentReportChallengeV1}
    {report : AgentIntegrityReportV1} {session' : Session}
    (hresult : (sessionTurn state launch session turn).result = .ok session')
    (haccepts : Accepts launch session turn payload challenge)
    (hanswers : Answers state launch session turn challenge report) :
    ∃ reading, answeredCall state launch (session, turn) = some (callOf state challenge turn reading) ∧
      signReport (challengeReport state launch session turn challenge (integritySnapshot reading)
        (Crates.sha256 reading.contents).1) state.key = .ok report := by
  obtain ⟨reading, hreading, -, hsigned⟩ := hanswers.signed
  refine ⟨reading, ?_, hsigned⟩
  rw [answeredCall, acceptedChallenge_of_accepts haccepts, hreading, hresult]

omit [Crates] in
theorem SamePlace.checkedAdd (hplace : SamePlace state launch session agent) :
    agent.sequence.checkedAdd 1 = some session.sequence := by
  have hone : (1 : UInt64).toNat = 1 := rfl
  have hfits : agent.sequence.toNat + (1 : UInt64).toNat < 2 ^ 64 := by
    rw [hone, ← hplace.sequence]
    exact session.sequence.toNat_lt
  rw [UInt64.checkedAdd, if_pos hfits, Option.some.injEq, ← UInt64.toNat_inj, UInt64.toNat_add,
    Nat.mod_eq_of_lt hfits, hone, hplace.sequence]

/-- What the loop answers, the session answers alike, unless it has answered it before. -/
theorem createReport_of_signed {payload : Bytes} {challenge : AgentReportChallengeV1}
    {report : AgentIntegrityReportV1} {reading : ExecutableReading}
    (hplace : SamePlace state launch session agent)
    (haccepts : Accepts launch session turn payload challenge)
    (hnotExhausted : session.sequence ≠ UInt64.ofNat (2 ^ 64 - 1))
    (hsigned : signReport (challengeReport state launch session turn challenge
      (integritySnapshot reading) (Crates.sha256 reading.contents).1) state.key = .ok report)
    (hfresh : agent.lastChallengeDigest ≠
      some (challengeDigest (callOf state challenge turn reading).challenge)) :
    (agent.createReport (callOf state challenge turn reading)).1 = .ok report ∧
      SamePlace state launch (session.afterReport launch turn report)
        (agent.createReport (callOf state challenge turn reading)).2 ∧
      (agent.createReport (callOf state challenge turn reading)).2.lastChallengeDigest =
        some (challengeDigest challenge) := by
  have hadmissible : agent.Admissible (callOf state challenge turn reading).challenge
      (callOf state challenge turn reading).nowUnix :=
    admissible_of_decodeChallenge haccepts.decoded (haccepts.session.trans hplace.sessionId.symm)
  have hreport : agent.nextReport (callOf state challenge turn reading) session.sequence =
      challengeReport state launch session turn challenge (integritySnapshot reading)
        (Crates.sha256 reading.contents).1 := by
    unfold AgentSession.nextReport challengeReport callOf
    rw [hplace.sessionId, hplace.buildId, hplace.previous]
  have hcreate : agent.createReport (callOf state challenge turn reading) = (.ok report, { agent with
      sequence := session.sequence
      previousDigest := reportDigest report
      lastChallengeDigest := some (challengeDigest challenge) }) := by
    unfold AgentSession.createReport
    rw [if_neg (not_not.mpr hadmissible), if_neg hfresh, hplace.checkedAdd]
    dsimp only
    rw [hreport, hplace.key, hsigned]
    rfl
  rw [hcreate]
  refine ⟨rfl, ?_, rfl⟩
  exact
    { key := hplace.key
      sessionId := hplace.sessionId
      buildId := hplace.buildId
      sequence := toNat_sequence_succ hnotExhausted
      previous := rfl }

theorem createReport_of_repeated {call : ReportCall}
    (h : agent.lastChallengeDigest = some (challengeDigest call.challenge)) :
    (agent.createReport call).1 = .error .challenge := by
  unfold AgentSession.createReport
  split_ifs <;> rfl

theorem length_accepted_le (agent : AgentSession) (calls : List ReportCall) :
    (agent.accepted calls).length ≤ calls.length := by
  induction calls generalizing agent with
  | nil => exact Nat.le_refl 0
  | cons call calls ih =>
    cases hresult : (agent.createReport call).1 with
    | error e =>
      rw [accepted_cons_error hresult]
      exact (ih agent).trans (Nat.le_succ _)
    | ok report =>
      rw [accepted_cons_ok hresult]
      exact Nat.succ_le_succ (ih _)

/-- How the loop goes on from a session: with each answer comes the call that corresponds to it. -/
inductive Answering (state : RuntimeState) (launch : BoundAgentLaunch) :
    Session → List ReportCall → List Frame → Prop
  | done {session : Session} : Answering state launch session [] []
  | idle {session session' : Session} {calls : List ReportCall} {frames : List Frame}
      (hsequence : session'.sequence = session.sequence)
      (hprevious : session'.previousDigest = session.previousDigest)
      (hrest : Answering state launch session' calls frames) :
      Answering state launch session calls frames
  | answered {session : Session} {turn : Turn} {payload : Bytes}
      {challenge : AgentReportChallengeV1} {report : AgentIntegrityReportV1}
      {reading : ExecutableReading} {calls : List ReportCall} {frames : List Frame}
      (haccepts : Accepts launch session turn payload challenge)
      (hnotExhausted : session.sequence ≠ UInt64.ofNat (2 ^ 64 - 1))
      (hsigned : signReport (challengeReport state launch session turn challenge
        (integritySnapshot reading) (Crates.sha256 reading.contents).1) state.key = .ok report)
      (hrest : Answering state launch (session.afterReport launch turn report) calls frames) :
      Answering state launch session (callOf state challenge turn reading :: calls)
        (reportFrame report :: frames)

theorem answeredCall_of_timeout (h : turn.received = .timeout) :
    answeredCall state launch (session, turn) = none := by
  rw [answeredCall, acceptedChallenge_of_timeout h]

theorem answeredCall_of_error {exit : Exit}
    (h : (sessionTurn state launch session turn).result = .error exit) :
    answeredCall state launch (session, turn) = none := by
  unfold answeredCall
  rw [h]
  cases acceptedChallenge launch (session, turn) with
  | none => rfl
  | some challenge => cases turn.executable <;> rfl

theorem answering_run (state : RuntimeState) (launch : BoundAgentLaunch) (session : Session)
    (turns : List Turn) : Answering state launch session
      (answeredCalls state launch session turns)
      (reportFrames (framesOf (Transcript.run (sessionTurn state launch) session turns).emitted)) := by
  refine Transcript.run_rule (L := fun session turns out => Answering state launch session
    (answeredCalls state launch session turns) (reportFrames (framesOf out))) ?_ ?_ ?_ session turns
  · exact fun session => .done
  · intro session turn turns session' out hresult hout
    rw [answeredCalls, Transcript.visits_cons_of_ok hresult]
    have hanswered := fun payload challenge report =>
      @answeredCall_of_answers _ state launch session turn payload challenge report _ hresult
    have hcases := sessionTurn_cases state launch session turn
    rw [answeredCalls] at hout
    generalize sessionTurn state launch session turn = t at hcases hresult ⊢
    cases hcases with
    | silent exit statuses => cases hresult
    | closed health reason message => cases hresult
    | idle hreceived =>
      obtain rfl := Except.ok.inj hresult
      rw [List.filterMap_cons_none (answeredCall_of_timeout hreceived)]
      exact hout
    | heartbeat hunexpired honTime hreceived =>
      obtain rfl := Except.ok.inj hresult
      rw [List.filterMap_cons_none (answeredCall_of_timeout hreceived)]
      have hframes : reportFrames (framesOf
          (.write (healthFrame launch.sessionId "protected" session.lastReportAt []) ::
            published state "protected" none ++ out)) = reportFrames (framesOf out) := by
        simp [reportFrames, healthFrame]
      rw [hframes]
      exact .idle (by rfl) (by rfl) hout
    | answered payload challenge report haccepts hanswers =>
      obtain rfl := Except.ok.inj hresult
      obtain ⟨reading, hcall, hsigned⟩ := hanswered payload challenge report haccepts hanswers
      have hframes : reportFrames (framesOf
          (.write (reportFrame report) :: published state "protected" none ++ out)) =
          reportFrame report :: reportFrames (framesOf out) := by
        simp [reportFrames, reportFrame]
      rw [List.filterMap_cons_some hcall, hframes]
      exact .answered haccepts hanswers.notExhausted hsigned hout
  · intro session turn turns e hresult
    rw [answeredCalls, Transcript.visits_cons_of_error hresult,
      List.filterMap_cons_none (answeredCall_of_error hresult)]
    have hcases := sessionTurn_cases state launch session turn
    generalize sessionTurn state launch session turn = t at hcases hresult ⊢
    cases hcases with
    | silent exit statuses hframes =>
      rw [hframes]
      exact .done
    | closed health reason message =>
      simpa [reportFrames, healthFrame] using Answering.done
    | idle => cases hresult
    | heartbeat => cases hresult
    | answered => cases hresult

theorem Answering.length_eq {calls : List ReportCall} {frames : List Frame}
    (h : Answering state launch session calls frames) : frames.length = calls.length := by
  induction h with
  | done => rfl
  | idle _ _ _ ih => exact ih
  | answered _ _ _ _ ih => exact congrArg (· + 1) ih

/-- Two sessions at the same place stay together until a challenge comes again at once. -/
theorem Answering.accepted_iff {calls : List ReportCall} {frames : List Frame}
    (h : Answering state launch session calls frames)
    (hplace : SamePlace state launch session agent) :
    (agent.accepted calls).map (fun entry => reportFrame entry.2) = frames ↔
      List.IsChain (· ≠ ·) (agent.lastChallengeDigest.toList ++
        calls.map fun call => challengeDigest call.challenge) := by
  induction h generalizing agent with
  | done =>
    have hnone : agent.accepted [] = [] := rfl
    rw [hnone]
    cases agent.lastChallengeDigest <;> simp
  | idle hsequence hprevious hrest ih =>
    apply ih
    exact
      { key := hplace.key
        sessionId := hplace.sessionId
        buildId := hplace.buildId
        sequence := hsequence ▸ hplace.sequence
        previous := hplace.previous.trans hprevious.symm }
  | @answered session turn payload challenge report reading calls frames haccepts hnotExhausted
      hsigned hrest ih =>
    by_cases hfresh : agent.lastChallengeDigest =
      some (challengeDigest (callOf state challenge turn reading).challenge)
    · -- the session makes one report less than the loop
      have hrefused := createReport_of_repeated hfresh
      rw [accepted_cons_error hrefused]
      have hlength : ((agent.accepted calls).map fun entry => reportFrame entry.2).length <
          (reportFrame report :: frames).length := by
        have hle := length_accepted_le agent calls
        rw [List.length_map, List.length_cons, hrest.length_eq]
        omega
      constructor
      · intro heq
        rw [heq] at hlength
        exact absurd hlength (Nat.lt_irrefl _)
      · intro hchain
        rw [hfresh, List.map_cons, Option.toList_some, List.singleton_append,
          List.isChain_cons_cons] at hchain
        exact absurd rfl hchain.1
    · obtain ⟨hok, hplace', hlast⟩ :=
        createReport_of_signed hplace haccepts hnotExhausted hsigned hfresh
      have hrest' := ih hplace'
      rw [hlast, Option.toList_some, List.singleton_append] at hrest'
      rw [accepted_cons_ok hok, List.map_cons, List.cons_eq_cons, List.map_cons]
      rw [and_iff_right rfl, hrest']
      cases hdigest : agent.lastChallengeDigest with
      | none => rfl
      | some last =>
        rw [Option.toList_some, List.singleton_append, List.isChain_cons_cons]
        rw [hdigest, Option.some.injEq] at hfresh
        exact (and_iff_right hfresh).symm

theorem grant_of_activate {key : SigningKey} {grant : AgentLaunchGrantClaimsV1}
    {policy : AgentPolicyClaimsV1} {signedPolicy : SignedAgentPolicyV1} {agentSessionId : String}
    (h : AgentSession.activate key grant policy signedPolicy agentSessionId = .ok agent) :
    agent.grant = grant := by
  unfold AgentSession.activate at h
  split_ifs at h
  obtain rfl := Except.ok.inj h
  rfl

theorem Admits.exists_agent (h : Admits state arrival launch) :
    ∃ (payload : Bytes) (evidence : LaunchEvidence) (agent : AgentSession),
      arrival.received = .frame ⟨.launchGrant, payload⟩ ∧
      evidence.Authentic payload state.trust arrival.verifiedAt CARGO_PKG_VERSION ∧
      launch = evidence.launch ∧
      AgentSession.activate state.key evidence.grant evidence.policy evidence.policyEnvelope
        launch.sessionId = .ok agent ∧
      SamePlace state launch (openSession arrival launch) agent ∧
      agent.lastChallengeDigest = none := by
  obtain ⟨payload, evidence, hreceived, hauth, hbound, hlaunch⟩ := h.evidence
  obtain ⟨hkey, hbuild, htenant, hgame, henvironment, hdigest, hrest⟩ := hbound
  have hpolicy : encode evidence.policyEnvelope = evidence.bundle.signedPolicy :=
    hauth.policyEnvelope.1.symm
  have hactivates : Activates state.key evidence.grant evidence.policy evidence.policyEnvelope
      launch.sessionId :=
    { key := hkey
      game := hgame.symm
      environment := henvironment.symm
      digest := by rw [hpolicy, hdigest]
      sessionId := len_pos_of_identifier h.sessionId }
  obtain ⟨agent, hagent⟩ := exists_activate hactivates
  obtain ⟨hagentKey, hid, hsequence, hprevious, hlast⟩ := activate_ok hagent
  refine ⟨payload, evidence, agent, hreceived, hauth, hlaunch, hagent, ?_, hlast⟩
  exact
    { key := hagentKey
      sessionId := hid
      buildId := by rw [grant_of_activate hagent, hlaunch]; rfl
      sequence := by rw [hsequence]; rfl
      previous := hprevious }

/-- The loop and a session activated with the grant and the policy of the bundle that was received
make the same reports exactly if no challenge is answered twice in a row. -/
theorem sessions_agree_iff (hadmits : Admits state arrival launch)
    (hhello : Sendable (helloFrame state)) (turns : List Turn) :
    ∃ (payload : Bytes) (evidence : LaunchEvidence) (agent : AgentSession),
      arrival.received = .frame ⟨.launchGrant, payload⟩ ∧
      evidence.Authentic payload state.trust arrival.verifiedAt CARGO_PKG_VERSION ∧
      launch = evidence.launch ∧
      AgentSession.activate state.key evidence.grant evidence.policy evidence.policyEnvelope
        launch.sessionId = .ok agent ∧
      ((agent.accepted (answeredCalls state launch (openSession arrival launch) turns)).map
          (fun entry => reportFrame entry.2) =
          reportFrames (framesOf (serve state arrival turns).emitted) ↔
        List.IsChain (· ≠ ·) ((answeredCalls state launch (openSession arrival launch) turns).map
          fun call => challengeDigest call.challenge)) := by
  obtain ⟨payload, evidence, agent, hreceived, hauth, hlaunch, hagent, hplace, hlast⟩ :=
    hadmits.exists_agent
  refine ⟨payload, evidence, agent, hreceived, hauth, hlaunch, hagent, ?_⟩
  have hrun := answering_run state launch (openSession arrival launch) turns
  have hagree := hrun.accepted_iff hplace
  rw [hlast, Option.toList_none, List.nil_append] at hagree
  rw [← hagree, hadmits.serve_eq hhello]
  have hframes : reportFrames (framesOf (.write (helloFrame state) :: (greeting state launch ++
      (Transcript.run (sessionTurn state launch) (openSession arrival launch) turns).emitted))) =
      reportFrames (framesOf (Transcript.run (sessionTurn state launch)
        (openSession arrival launch) turns).emitted) := by
    simp [reportFrames, greeting, helloFrame, healthFrame]
  rw [hframes]

end

/-- One challenge, answered by the loop twice in a row: the session makes other reports. -/
theorem sessions_agree_iff_sample :
    ∃ (payload : Bytes) (evidence : LaunchEvidence) (agent : AgentSession),
      evidence.Authentic payload Sample.state.trust 1000 CARGO_PKG_VERSION ∧
      AgentSession.activate Sample.state.key evidence.grant evidence.policy
        evidence.policyEnvelope Sample.launch.sessionId = .ok agent ∧
      (agent.accepted (answeredCalls Sample.state Sample.launch
        (openSession Sample.arrival Sample.launch)
        [Sample.challengeAt 1001, Sample.challengeAt 1002])).map
        (fun entry => reportFrame entry.2) ≠
        reportFrames (framesOf (serve Sample.state Sample.arrival
          [Sample.challengeAt 1001, Sample.challengeAt 1002]).emitted) := by
  obtain ⟨payload, evidence, agent, -, hauth, -, hagent, hagree⟩ :=
    sessions_agree_iff Sample.admits (by decide +kernel)
      [Sample.challengeAt 1001, Sample.challengeAt 1002]
  refine ⟨payload, evidence, agent, hauth, hagent, ?_⟩
  rw [ne_eq, hagree]
  decide +kernel

end CertaelAgent.Runtime
