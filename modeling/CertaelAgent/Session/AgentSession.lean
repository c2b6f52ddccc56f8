import CertaelAgent.Foundation.CheckedInt
import CertaelAgent.Protocol.Report

/-!
# Agent sessions

A session answers challenges with reports. It holds the number and the digest of its last report
and the digest of the last challenge it has answered. A call either answers its challenge, and then
all three advance, or fails and leaves the session alone.
-/

namespace CertaelAgent.Session

open ProtoWire Protocol

inductive SessionError
  | keyBinding
  | policyBinding
  | challenge
  | sequenceExhausted
  | protocol (source : ProtocolError)
deriving DecidableEq, Repr

structure AgentSession where
  signingKey : SigningKey
  grant : AgentLaunchGrantClaimsV1
  policy : AgentPolicyClaimsV1
  agentSessionId : String
  sequence : UInt64
  previousDigest : Digest
  lastChallengeDigest : Option Digest
deriving DecidableEq

/-- The arguments of `create_report`. -/
structure ReportCall where
  challenge : AgentReportChallengeV1
  nowUnix : Int64
  executableSha256 : Digest
  observations : List IntegrityObservationV1
deriving DecidableEq

variable [Crates]

def AgentSession.activate (signingKey : SigningKey) (grant : AgentLaunchGrantClaimsV1)
    (policy : AgentPolicyClaimsV1) (signedPolicy : SignedAgentPolicyV1) (agentSessionId : String) :
    Except SessionError AgentSession :=
  if grant.agentPublicKey ≠ (Crates.verifyingKey signingKey).1 then .error .keyBinding
  else if grant.gameId ≠ policy.gameId ∨ grant.environmentId ≠ policy.environmentId then
    .error .policyBinding
  else if grant.policyDigest ≠ (Crates.sha256 (encode signedPolicy)).1 then .error .policyBinding
  else if agentSessionId = "" ∨ 128 < len agentSessionId then .error .challenge
  else .ok {
    signingKey := signingKey
    grant := grant
    policy := policy
    agentSessionId := agentSessionId
    sequence := 0
    previousDigest := zeroDigest
    lastChallengeDigest := none }

/-- A challenge for the session, to be answered within the next two minutes. -/
def AgentSession.Admissible (session : AgentSession) (challenge : AgentReportChallengeV1)
    (nowUnix : Int64) : Prop :=
  ¬ (challenge.agentSessionId ≠ session.agentSessionId
    ∨ challenge.nonce.length < 16
    ∨ 256 < challenge.nonce.length
    ∨ challenge.expiresAtUnix ≤ nowUnix
    ∨ 120 < challenge.expiresAtUnix - nowUnix)

instance (session : AgentSession) (challenge : AgentReportChallengeV1) (nowUnix : Int64) :
    Decidable (session.Admissible challenge nowUnix) :=
  inferInstanceAs (Decidable (¬ _))

def challengeDigest (challenge : AgentReportChallengeV1) : Digest :=
  Crates.sha256 (encode challenge)

/-- The report with the next number, before it is signed. -/
def AgentSession.nextReport (session : AgentSession) (call : ReportCall) (sequence : UInt64) :
    AgentIntegrityReportV1 where
  protocolVersion := PROTOCOL_VERSION
  agentSessionId := session.agentSessionId
  sequence := sequence
  challengeNonce := call.challenge.nonce
  observedAtUnix := call.nowUnix
  buildId := session.grant.buildId
  executableSha256 := call.executableSha256.1
  observations := call.observations
  previousReportDigest := session.previousDigest.1
  signature := []

/-- The result of a call, and the session after it. -/
def AgentSession.createReport (session : AgentSession) (call : ReportCall) :
    Except SessionError AgentIntegrityReportV1 × AgentSession :=
  if ¬ session.Admissible call.challenge call.nowUnix then (.error .challenge, session)
  else if session.lastChallengeDigest = some (challengeDigest call.challenge) then
    (.error .challenge, session)
  else match session.sequence.checkedAdd 1 with
    | none => (.error .sequenceExhausted, session)
    | some sequence =>
      match signReport (session.nextReport call sequence) session.signingKey with
      | .error e => (.error (.protocol e), session)
      | .ok report => (.ok report, { session with
          sequence := sequence
          previousDigest := reportDigest report
          lastChallengeDigest := some (challengeDigest call.challenge) })

/-- The calls of a run, each with the session it finds. -/
def AgentSession.visits : AgentSession → List ReportCall → List (AgentSession × ReportCall)
  | _, [] => []
  | session, call :: calls => (session, call) :: visits (session.createReport call).2 calls

/-- The reports of a run, each with the call it answers. -/
def AgentSession.accepted (session : AgentSession) (calls : List ReportCall) :
    List (ReportCall × AgentIntegrityReportV1) :=
  (session.visits calls).filterMap fun visit =>
    match (visit.1.createReport visit.2).1 with
    | .ok report => some (visit.2, report)
    | .error _ => none

/-! ## What a call does -/

variable {session : AgentSession} {call : ReportCall} {report : AgentIntegrityReportV1}

/-- A failed call leaves the session alone. -/
theorem createReport_error {e : SessionError} (h : (session.createReport call).1 = .error e) :
    (session.createReport call).2 = session := by
  revert h
  unfold AgentSession.createReport
  split_ifs
  · exact fun _ => rfl
  · cases session.sequence.checkedAdd 1 with
    | none => exact fun _ => rfl
    | some sequence =>
      dsimp only
      cases signReport (session.nextReport call sequence) session.signingKey with
      | error e => exact fun _ => rfl
      | ok report => intro h; cases h
  · exact fun _ => rfl

/-- Everything a successful call has checked, and what it leaves behind. -/
structure Created (session : AgentSession) (call : ReportCall)
    (report : AgentIntegrityReportV1) (after : AgentSession) : Prop where
  admissible : session.Admissible call.challenge call.nowUnix
  fresh : session.lastChallengeDigest ≠ some (challengeDigest call.challenge)
  sequence : after.sequence.toNat = session.sequence.toNat + 1
  signed : signReport (session.nextReport call after.sequence) session.signingKey = .ok report
  after_eq : after = { session with
    sequence := after.sequence
    previousDigest := reportDigest report
    lastChallengeDigest := some (challengeDigest call.challenge) }

theorem createReport_ok (h : (session.createReport call).1 = .ok report) :
    Created session call report (session.createReport call).2 := by
  revert h
  unfold AgentSession.createReport
  split_ifs with hadmissible hseen
  · intro h
    cases h
  · cases hsequence : session.sequence.checkedAdd 1 with
    | none => intro h; cases h
    | some sequence =>
      dsimp only
      cases hsign : signReport (session.nextReport call sequence) session.signingKey with
      | error e => intro h; cases h
      | ok signed =>
        intro h
        obtain rfl := Except.ok.inj h
        exact
          { admissible := hadmissible
            fresh := hseen
            sequence := UInt64.toNat_of_checkedAdd hsequence
            signed := hsign
            after_eq := rfl }
  · intro h
    cases h

/-- What a report says apart from its place in the chain. -/
structure Attests (session : AgentSession) (call : ReportCall) (report : AgentIntegrityReportV1) :
    Prop where
  sessionId : report.agentSessionId = session.agentSessionId
  nonce : report.challengeNonce = call.challenge.nonce
  verified : verifyReport report (Crates.verifyingKey session.signingKey) = .ok ()

theorem Created.fields {after : AgentSession} (h : Created session call report after) :
    report.sequence.toNat = session.sequence.toNat + 1 ∧
      report.previousReportDigest = session.previousDigest.1 ∧ Attests session call report := by
  have hfields := unsigned_of_signReport h.signed
  have hsequence : report.sequence = after.sequence := congrArg (·.sequence) hfields
  refine ⟨hsequence ▸ h.sequence, congrArg (·.previousReportDigest) hfields, ?_⟩
  exact
    { sessionId := congrArg (·.agentSessionId) hfields
      nonce := congrArg (·.challengeNonce) hfields
      verified := verifyReport_of_signReport h.signed }

end CertaelAgent.Session
