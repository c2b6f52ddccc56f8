import CertaelAgent.Runtime.Freshness

/-!
# The chain of reports

The reports of a run are numbered from one, each carries the digest of the bytes of the one
before it, and each answers the challenge that the loop accepted at its place. The chain is
followed by one induction over the run, which carries the sequence and the digest that the loop
variables hold.
-/

namespace CertaelAgent.Runtime

open ProtoWire Protocol Ipc

def reportFrames (frames : List Frame) : List Frame :=
  frames.filter fun frame => frame.messageType = .integrityReport

section

variable [Crates]

/-- The challenge that an iteration accepts: it passes `decodeChallenge`, names the session, and
the loop gets as far as looking at it. -/
def acceptedChallenge (launch : BoundAgentLaunch) (visit : Session × Turn) :
    Option AgentReportChallengeV1 :=
  if launch.policyExpiresAtUnix ≤ visit.2.now ∨ visit.1.reportDeadline ≤ visit.2.now then none
  else match visit.2.received with
    | .frame ⟨.challenge, payload⟩ =>
      match decodeChallenge payload visit.2.after with
      | .ok challenge => if challenge.agentSessionId = launch.sessionId then some challenge else none
      | .error _ => none
    | _ => none

def acceptedChallenges (state : RuntimeState) (launch : BoundAgentLaunch) (session : Session)
    (turns : List Turn) : List AgentReportChallengeV1 :=
  (Transcript.visits (sessionTurn state launch) session turns).filterMap (acceptedChallenge launch)

variable {state : RuntimeState} {arrival : Arrival} {launch : BoundAgentLaunch}
  {session : Session} {turn : Turn}

omit [Crates] in
theorem acceptedChallenge_of_accepts {payload : Bytes} {challenge : AgentReportChallengeV1}
    (h : Accepts launch session turn payload challenge) :
    acceptedChallenge launch (session, turn) = some challenge := by
  have hopen : ¬ (launch.policyExpiresAtUnix ≤ turn.now ∨ session.reportDeadline ≤ turn.now) := by
    rw [not_or, Int64.not_le, Int64.not_le]
    exact ⟨h.unexpired, h.onTime⟩
  simp only [acceptedChallenge, if_neg hopen, h.received, h.decoded, h.session, if_true]

omit [Crates] in
theorem acceptedChallenge_of_timeout (h : turn.received = .timeout) :
    acceptedChallenge launch (session, turn) = none := by
  unfold acceptedChallenge
  split_ifs
  · rfl
  · simp only [h]

/-- What a report says apart from its place in the chain. -/
structure Attests (state : RuntimeState) (launch : BoundAgentLaunch)
    (challenge : AgentReportChallengeV1) (report : AgentIntegrityReportV1) : Prop where
  session : report.agentSessionId = launch.sessionId
  nonce : report.challengeNonce = challenge.nonce
  executable : Hex.encode report.executableSha256 = report.buildId
  hello : report.buildId = state.hello.buildId
  grant : report.buildId = launch.buildId
  manifest : report.buildId = launch.buildManifest.buildId
  verified : verifyReport report (Crates.verifyingKey state.key) = .ok ()

/-- Reports numbered from `sequence`, the first one carrying the digest `previous`, in answer to
the first of the challenges. -/
inductive Chain (state : RuntimeState) (launch : BoundAgentLaunch) :
    ℕ → Bytes → List Frame → List AgentReportChallengeV1 → Prop
  | nil (sequence : ℕ) (previous : Bytes) (challenges : List AgentReportChallengeV1) :
      Chain state launch sequence previous [] challenges
  | cons {sequence : ℕ} {previous : Bytes} {report : AgentIntegrityReportV1} {frames : List Frame}
      {challenge : AgentReportChallengeV1} {challenges : List AgentReportChallengeV1}
      (hsequence : report.sequence.toNat = sequence)
      (hprevious : report.previousReportDigest = previous)
      (hattests : Attests state launch challenge report)
      (hrest : Chain state launch (sequence + 1) (Crates.sha256 (reportFrame report).payload).1
        frames challenges) :
      Chain state launch sequence previous (reportFrame report :: frames) (challenge :: challenges)

theorem fields_of_signReport {report signed : AgentIntegrityReportV1} {key : SigningKey}
    (h : signReport report key = .ok signed) :
    signed.agentSessionId = report.agentSessionId ∧ signed.sequence = report.sequence ∧
      signed.challengeNonce = report.challengeNonce ∧ signed.buildId = report.buildId ∧
      signed.executableSha256 = report.executableSha256 ∧
      signed.previousReportDigest = report.previousReportDigest := by
  have hfields := unsigned_of_signReport h
  exact ⟨congrArg (·.agentSessionId) hfields, congrArg (·.sequence) hfields,
    congrArg (·.challengeNonce) hfields, congrArg (·.buildId) hfields,
    congrArg (·.executableSha256) hfields, congrArg (·.previousReportDigest) hfields⟩

theorem Answers.attests {challenge : AgentReportChallengeV1} {report : AgentIntegrityReportV1}
    (hadmits : Admits state arrival launch)
    (h : Answers state launch session turn challenge report) :
    report.sequence = session.sequence ∧ report.previousReportDigest = session.previousDigest.1 ∧
      Attests state launch challenge report := by
  obtain ⟨reading, _, hbuild, hsign⟩ := h.signed
  obtain ⟨hsession, hsequence, hnonce, hbuildId, hexecutable, hprevious⟩ :=
    fields_of_signReport hsign
  obtain ⟨hhello, hmanifest⟩ := hadmits.buildId
  refine ⟨hsequence, hprevious, ?_⟩
  exact
    { session := hsession
      nonce := hnonce
      executable := by rw [hexecutable, hbuildId]; exact hbuild.trans hhello.symm
      hello := hbuildId.trans hhello
      grant := hbuildId
      manifest := hbuildId.trans hmanifest.symm
      verified := verifyReport_of_signReport hsign }

omit [Crates] in
theorem toNat_sequence_succ (h : session.sequence ≠ UInt64.ofNat (2 ^ 64 - 1)) :
    (session.sequence + 1).toNat = session.sequence.toNat + 1 := by
  have hlt := session.sequence.toNat_lt
  have hne : session.sequence.toNat ≠ 2 ^ 64 - 1 := by
    intro heq
    exact h (UInt64.toNat_inj.mp (by simpa using heq))
  rw [UInt64.toNat_add]
  have hone : (1 : UInt64).toNat = 1 := rfl
  rw [hone]
  omega

/-- The rest of a run continues the chain at the place that its session holds. -/
theorem chain_run (hadmits : Admits state arrival launch) (session : Session)
    (turns : List Turn) :
    Chain state launch session.sequence.toNat session.previousDigest.1
      (reportFrames (framesOf (Transcript.run (sessionTurn state launch) session turns).emitted))
      (acceptedChallenges state launch session turns) := by
  refine Transcript.run_rule (L := fun session turns out =>
    Chain state launch session.sequence.toNat session.previousDigest.1 (reportFrames (framesOf out))
      (acceptedChallenges state launch session turns)) ?_ ?_ ?_ session turns
  · intro session
    exact .nil _ _ _
  · intro session turn turns session' out hresult hout
    have hvisits := Transcript.visits_cons_of_ok hresult turns
    have hcases := sessionTurn_cases state launch session turn
    simp only [acceptedChallenges, hvisits] at hout ⊢
    generalize sessionTurn state launch session turn = t at hcases hresult ⊢
    cases hcases with
    | silent exit statuses => simp at hresult
    | closed health reason message => simp at hresult
    | idle hreceived =>
      obtain rfl : session = session' := by simpa using hresult
      rw [List.filterMap_cons_none (acceptedChallenge_of_timeout hreceived)]
      exact hout
    | heartbeat hunexpired honTime hreceived =>
      obtain rfl := Except.ok.inj hresult
      rw [List.filterMap_cons_none (acceptedChallenge_of_timeout hreceived)]
      simpa [reportFrames, healthFrame] using hout
    | answered payload challenge report haccepts hanswers =>
      obtain rfl := Except.ok.inj hresult
      obtain ⟨hsequence, hprevious, hattests⟩ := hanswers.attests hadmits
      rw [List.filterMap_cons_some (acceptedChallenge_of_accepts haccepts)]
      have hframes : reportFrames (framesOf
          (.write (reportFrame report) :: published state "protected" none ++ out)) =
          reportFrame report :: reportFrames (framesOf out) := by
        simp [reportFrames, reportFrame]
      rw [hframes]
      refine .cons (congrArg UInt64.toNat hsequence) hprevious hattests ?_
      rw [← toNat_sequence_succ hanswers.notExhausted]
      exact hout
  · intro session turn turns e hresult
    have hcases := sessionTurn_cases state launch session turn
    generalize sessionTurn state launch session turn = t at hcases hresult ⊢
    cases hcases with
    | silent exit statuses hframes =>
      rw [hframes]
      exact .nil _ _ _
    | closed health reason message =>
      simpa [reportFrames, healthFrame] using Chain.nil _ _ _
    | idle => simp at hresult
    | heartbeat => simp at hresult
    | answered => simp at hresult

theorem Chain.get {sequence : ℕ} {previous : Bytes} {frames : List Frame}
    {challenges : List AgentReportChallengeV1}
    (h : Chain state launch sequence previous frames challenges) :
    ∀ k frame, frames[k]? = some frame → ∃ report challenge, frame = reportFrame report ∧
      challenges[k]? = some challenge ∧ report.sequence.toNat = sequence + k ∧
      (k = 0 → report.previousReportDigest = previous) ∧
      (∀ j earlier, k = j + 1 → frames[j]? = some earlier →
        report.previousReportDigest = (Crates.sha256 earlier.payload).1) ∧
      Attests state launch challenge report := by
  induction h with
  | nil sequence previous challenges => simp
  | @cons sequence previous first frames challenge challenges hsequence hprevious hattests hrest ih =>
    intro k frame hframe
    cases k with
    | zero =>
      obtain rfl : reportFrame first = frame := by simpa using hframe
      exact ⟨first, challenge, rfl, rfl, hsequence, fun _ => hprevious, by simp, hattests⟩
    | succ k =>
      obtain ⟨report, c, hreport, hc, hnumber, hfirst, hlater, hatt⟩ := ih k frame hframe
      refine ⟨report, c, hreport, hc, by omega, by simp, ?_, hatt⟩
      intro j earlier hj hearlier
      cases j with
      | zero =>
        obtain rfl : k = 0 := by omega
        obtain rfl : reportFrame first = earlier := by simpa using hearlier
        exact hfirst rfl
      | succ j => exact hlater j earlier (by omega) hearlier

theorem reportFrames_serve (state : RuntimeState) (arrival : Arrival) (turns : List Turn) :
    reportFrames (framesOf (serve state arrival turns).emitted) = [] ∨
      ∃ launch, Admits state arrival launch ∧
        reportFrames (framesOf (serve state arrival turns).emitted) =
          reportFrames (framesOf (Transcript.run (sessionTurn state launch)
            (openSession arrival launch) turns).emitted) := by
  have hcases := serve_cases state arrival turns
  generalize serve state arrival turns = t at hcases ⊢
  cases hcases with
  | mute => exact .inl rfl
  | refused out exit h =>
    refine .inl ?_
    rcases h.frames with hnone | ⟨health, frame, hone, _, hhealth, _⟩
    · simp [reportFrames, hnone, helloFrame]
    · simp [reportFrames, hone, helloFrame, hhealth.messageType]
  | admitted launch hadmits hready =>
    exact .inr ⟨launch, hadmits, by simp [reportFrames, greeting, helloFrame, healthFrame]⟩

/-- The report at every place of a run, counted from zero, and what it is bound to. -/
theorem serve_report_chain (state : RuntimeState) (arrival : Arrival) (turns : List Turn) (k : ℕ)
    (frame : Frame)
    (hframe : (reportFrames (framesOf (serve state arrival turns).emitted))[k]? = some frame) :
    ∃ launch report challenge, Admits state arrival launch ∧ frame = reportFrame report ∧
      (acceptedChallenges state launch (openSession arrival launch) turns)[k]? = some challenge ∧
      report.sequence.toNat = k + 1 ∧
      (k = 0 → report.previousReportDigest = zeroDigest.1) ∧
      (∀ j earlier, k = j + 1 →
        (reportFrames (framesOf (serve state arrival turns).emitted))[j]? = some earlier →
        report.previousReportDigest = (Crates.sha256 earlier.payload).1) ∧
      Attests state launch challenge report := by
  rcases reportFrames_serve state arrival turns with hnone | ⟨launch, hadmits, hrun⟩
  · simp [hnone] at hframe
  · have hchain := chain_run hadmits (openSession arrival launch) turns
    rw [hrun] at hframe ⊢
    obtain ⟨report, challenge, hreport, hc, hnumber, hfirst, hlater, hattests⟩ :=
      hchain.get k frame hframe
    refine ⟨launch, report, challenge, hadmits, hreport, hc, ?_, hfirst, hlater, hattests⟩
    rw [hnumber, show (openSession arrival launch).sequence.toNat = 1 from rfl]
    omega

end

theorem Sample.reportFrames_serve :
    reportFrames (framesOf (serve Sample.state Sample.arrival
      [Sample.challengeAt 1001, Sample.challengeAt 1002]).emitted) =
      [reportFrame Sample.firstSigned, reportFrame Sample.secondSigned] := by
  decide +kernel

theorem serve_report_chain_second : ∃ launch report challenge,
    Admits Sample.state Sample.arrival launch ∧
      reportFrame Sample.secondSigned = reportFrame report ∧
      (acceptedChallenges Sample.state launch (openSession Sample.arrival launch)
        [Sample.challengeAt 1001, Sample.challengeAt 1002])[1]? = some challenge ∧
      report.sequence.toNat = 1 + 1 ∧
      (1 = 0 → report.previousReportDigest = zeroDigest.1) ∧
      (∀ j earlier, 1 = j + 1 →
        (reportFrames (framesOf (serve Sample.state Sample.arrival
          [Sample.challengeAt 1001, Sample.challengeAt 1002]).emitted))[j]? = some earlier →
        report.previousReportDigest = (Crates.sha256 earlier.payload).1) ∧
      Attests Sample.state launch challenge report :=
  serve_report_chain Sample.state Sample.arrival _ 1 _ (by rw [Sample.reportFrames_serve]; rfl)

end CertaelAgent.Runtime
