import CertaelAgent.Session.AgentSession

/-!
# The chain of a session

The accepted reports of a session are numbered from one and each carries the digest of the one
before it, however many calls fail in between.
-/

namespace CertaelAgent.Session

open ProtoWire Protocol

section

variable [Crates] {session after : AgentSession} {call : ReportCall}
  {report : AgentIntegrityReportV1}

theorem accepted_cons_error {e : SessionError} (h : (session.createReport call).1 = .error e)
    (calls : List ReportCall) :
    session.accepted (call :: calls) = session.accepted calls := by
  unfold AgentSession.accepted
  rw [AgentSession.visits, List.filterMap_cons, createReport_error h]
  simp only [h]

theorem accepted_cons_ok (h : (session.createReport call).1 = .ok report)
    (calls : List ReportCall) :
    session.accepted (call :: calls) =
      (call, report) :: (session.createReport call).2.accepted calls := by
  unfold AgentSession.accepted
  rw [AgentSession.visits, List.filterMap_cons]
  simp only [h]

theorem Created.attests (h : Created session call report after) {call' : ReportCall}
    {report' : AgentIntegrityReportV1} (hattests : Attests after call' report') :
    Attests session call' report' := by
  have hid : after.agentSessionId = session.agentSessionId := by rw [h.after_eq]
  have hkey : after.signingKey = session.signingKey := by rw [h.after_eq]
  exact
    { sessionId := hid ▸ hattests.sessionId
      nonce := hattests.nonce
      verified := hkey ▸ hattests.verified }

/-- The place of a report in the chain that a session goes on with. -/
structure Placed (session : AgentSession) (calls : List ReportCall) (i : ℕ)
    (report : AgentIntegrityReportV1) : Prop where
  sequence : report.sequence.toNat = session.sequence.toNat + i + 1
  first : i = 0 → report.previousReportDigest = session.previousDigest.1
  later : ∀ j earlier, j + 1 = i → (session.accepted calls)[j]? = some earlier →
    report.previousReportDigest = (Crates.sha256 (encode earlier.2)).1

theorem accepted_placed {calls : List ReportCall} {i : ℕ}
    (h : (session.accepted calls)[i]? = some (call, report)) :
    Placed session calls i report ∧ Attests session call report := by
  induction calls generalizing session i with
  | nil => simp [AgentSession.accepted, AgentSession.visits] at h
  | cons next calls ih =>
    cases hresult : (session.createReport next).1 with
    | error e =>
      rw [accepted_cons_error hresult] at h
      obtain ⟨hplaced, hattests⟩ := ih h
      refine ⟨⟨hplaced.sequence, hplaced.first, ?_⟩, hattests⟩
      rw [accepted_cons_error hresult]
      exact hplaced.later
    | ok made =>
      have hcreated := createReport_ok hresult
      obtain ⟨hsequence, hprevious, hattests⟩ := hcreated.fields
      rw [accepted_cons_ok hresult] at h
      cases i with
      | zero =>
        obtain ⟨rfl, rfl⟩ := Prod.mk.inj (Option.some.inj h)
        refine ⟨⟨hsequence, fun _ => hprevious, ?_⟩, hattests⟩
        intro j earlier hj
        exact absurd hj (Nat.succ_ne_zero j)
      | succ i =>
        rw [List.getElem?_cons_succ] at h
        obtain ⟨hplaced, hattests'⟩ := ih h
        refine ⟨⟨?_, fun hzero => absurd hzero (Nat.succ_ne_zero i), ?_⟩,
          hcreated.attests hattests'⟩
        · have hnext := hcreated.sequence
          have hplace := hplaced.sequence
          omega
        · intro j earlier hj hearlier
          obtain rfl := Nat.succ.inj hj
          rw [accepted_cons_ok hresult] at hearlier
          cases j with
          | zero =>
            obtain rfl := Option.some.inj hearlier
            have hdigest : (session.createReport next).2.previousDigest = reportDigest made := by
              rw [hcreated.after_eq]
            rw [hplaced.first rfl, hdigest]
            rfl
          | succ j => exact hplaced.later j earlier rfl hearlier

theorem activate_ok {signingKey : SigningKey} {grant : AgentLaunchGrantClaimsV1}
    {policy : AgentPolicyClaimsV1} {signedPolicy : SignedAgentPolicyV1} {agentSessionId : String}
    (h : AgentSession.activate signingKey grant policy signedPolicy agentSessionId = .ok session) :
    session.signingKey = signingKey ∧ session.agentSessionId = agentSessionId ∧
      session.sequence = 0 ∧ session.previousDigest = zeroDigest ∧
      session.lastChallengeDigest = none := by
  unfold AgentSession.activate at h
  split_ifs at h
  obtain rfl := Except.ok.inj h
  exact ⟨rfl, rfl, rfl, rfl, rfl⟩

/-- The reports of an activated session are numbered without gap from one, each carries the digest
of the one before it, echoes its challenge and verifies under the key of the session; a failed call
changes nothing. -/
theorem activated_chain {signingKey : SigningKey} {grant : AgentLaunchGrantClaimsV1}
    {policy : AgentPolicyClaimsV1} {signedPolicy : SignedAgentPolicyV1} {agentSessionId : String}
    (hactivated :
      AgentSession.activate signingKey grant policy signedPolicy agentSessionId = .ok session)
    (calls : List ReportCall) :
    (∀ i call report, (session.accepted calls)[i]? = some (call, report) →
      report.sequence.toNat = i + 1 ∧
      (i = 0 → report.previousReportDigest = List.replicate 32 0) ∧
      (∀ j earlier, j + 1 = i → (session.accepted calls)[j]? = some earlier →
        report.previousReportDigest = (Crates.sha256 (encode earlier.2)).1) ∧
      report.challengeNonce = call.challenge.nonce ∧ report.agentSessionId = agentSessionId ∧
      verifyReport report (Crates.verifyingKey signingKey) = .ok ()) ∧
    ∀ visit ∈ session.visits calls, ∀ e, (visit.1.createReport visit.2).1 = .error e →
      (visit.1.createReport visit.2).2 = visit.1 := by
  obtain ⟨rfl, rfl, hsequence, hprevious, -⟩ := activate_ok hactivated
  constructor
  · intro i call report h
    obtain ⟨hplaced, hattests⟩ := accepted_placed h
    refine ⟨?_, ?_, hplaced.later, hattests.nonce, hattests.sessionId, hattests.verified⟩
    · have hplace := hplaced.sequence
      rw [hsequence] at hplace
      simpa using hplace
    · intro hzero
      rw [hplaced.first hzero, hprevious]
      rfl
  · intro visit _ e h
    exact createReport_error h

end

namespace SampleSession

def agentKey : VerifyingKey := publicKeyOfOnes

def seed : SigningKey := filled 32 1

def policy : AgentPolicyClaimsV1 where
  protocolVersion := 1
  policyId := "policy"
  gameId := "game"
  environmentId := "prod"
  requirementMode := 2
  heartbeatSeconds := 15
  reportSeconds := 60
  disconnectGraceSeconds := 30
  minimumAgentVersion := "0.1.0"
  expiresAtUnix := 2000000000
  tenantId := "tenant"

def signedPolicy : SignedAgentPolicyV1 where
  claims := encode policy
  signature := List.replicate 64 1
  keyId := "policy-key"

def policyDigest : Digest := ⟨[45, 231, 112, 74, 28, 108, 42, 126, 113, 244, 52, 202, 204, 218, 211,
  90, 6, 111, 203, 229, 76, 199, 229, 129, 164, 113, 86, 69, 172, 3, 140, 240], rfl⟩

def grant : AgentLaunchGrantClaimsV1 where
  protocolVersion := 1
  grantId := "grant"
  tenantId := "tenant"
  gameId := "game"
  environmentId := "prod"
  playerSubject := "player"
  matchId := "match"
  buildId := "build"
  agentPublicKey := agentKey.1
  issuedAtUnix := 1700000000
  expiresAtUnix := 1700000060
  policyDigest := policyDigest.1
  authoritativeServerId := "server"
  buildManifestDigest := List.replicate 32 4

def challengeOf (byte : UInt8) : AgentReportChallengeV1 where
  agentSessionId := "session"
  nonce := List.replicate 32 byte
  expiresAtUnix := 1700000030

def callAt (byte : UInt8) (nowUnix : Int64) : ReportCall where
  challenge := challengeOf byte
  nowUnix := nowUnix
  executableSha256 := filled 32 3
  observations := []

/-- A report in answer to a challenge of the sample. -/
def reportOf (sequence : UInt64) (byte : UInt8) (nowUnix : Int64) (previous : Digest)
    (signature : Bytes) : AgentIntegrityReportV1 where
  protocolVersion := 1
  agentSessionId := "session"
  sequence := sequence
  challengeNonce := List.replicate 32 byte
  observedAtUnix := nowUnix
  buildId := "build"
  executableSha256 := List.replicate 32 3
  observations := []
  previousReportDigest := previous.1
  signature := signature

def firstSignature : Signature := ⟨[160, 33, 111, 159, 110, 213, 70, 59, 67, 113, 92, 102, 62, 222,
  143, 237, 189, 194, 193, 27, 242, 101, 166, 85, 88, 92, 108, 125, 203, 247, 8, 169, 178, 90, 133,
  25, 68, 178, 254, 82, 86, 94, 88, 131, 93, 13, 248, 28, 8, 241, 202, 202, 81, 136, 255, 13, 9, 39,
  246, 154, 36, 200, 49, 10], rfl⟩

def firstDigest : Digest := ⟨[46, 147, 251, 130, 217, 140, 249, 143, 33, 47, 82, 164, 118, 250, 217,
  232, 20, 191, 33, 252, 99, 166, 164, 51, 107, 48, 33, 94, 189, 178, 130, 224], rfl⟩

def secondSignature : Signature := ⟨[231, 121, 159, 156, 39, 243, 212, 25, 227, 64, 103, 93, 117,
  149, 202, 241, 54, 147, 124, 169, 69, 93, 249, 244, 82, 132, 147, 111, 14, 243, 120, 72, 1, 178,
  167, 4, 195, 5, 204, 196, 119, 128, 50, 39, 34, 3, 185, 1, 158, 13, 237, 242, 197, 189, 79, 86, 38,
  152, 122, 247, 85, 127, 63, 13], rfl⟩

def secondDigest : Digest := ⟨[179, 187, 201, 125, 205, 16, 22, 87, 158, 81, 165, 22, 232, 88, 220,
  255, 249, 120, 69, 243, 87, 135, 208, 84, 142, 66, 17, 208, 160, 165, 22, 245], rfl⟩

def thirdSignature : Signature := ⟨[130, 17, 83, 84, 84, 236, 221, 216, 109, 25, 123, 162, 219, 159,
  20, 100, 37, 205, 124, 41, 64, 21, 212, 223, 65, 95, 204, 208, 182, 41, 104, 179, 20, 37, 18, 192,
  135, 63, 173, 254, 152, 198, 252, 173, 183, 97, 253, 197, 114, 171, 225, 76, 91, 241, 212, 9, 147,
  76, 153, 144, 176, 73, 59, 4], rfl⟩

def thirdDigest : Digest := ⟨[4, 92, 94, 122, 17, 50, 92, 237, 165, 236, 79, 244, 108, 158, 92, 26,
  253, 201, 254, 101, 87, 184, 132, 155, 71, 231, 44, 91, 110, 60, 127, 183], rfl⟩

def firstChallengeDigest : Digest := ⟨[65, 168, 130, 149, 5, 231, 196, 82, 23, 89, 17, 199, 182, 205,
  52, 36, 221, 189, 68, 199, 16, 105, 190, 234, 3, 230, 221, 165, 84, 95, 98, 145], rfl⟩

def secondChallengeDigest : Digest := ⟨[76, 117, 13, 170, 40, 71, 124, 151, 250, 179, 24, 132, 185,
  34, 215, 1, 33, 187, 231, 178, 73, 81, 128, 60, 18, 64, 247, 108, 253, 210, 5, 85], rfl⟩

def first : AgentIntegrityReportV1 := reportOf 1 9 1700000001 zeroDigest firstSignature.1

def second : AgentIntegrityReportV1 := reportOf 2 8 1700000002 firstDigest secondSignature.1

def third : AgentIntegrityReportV1 := reportOf 3 9 1700000003 secondDigest thirdSignature.1

/-- The digests of the sample; every other input gets zeros. -/
def digestOf (input : Bytes) : Digest :=
  if input = encode signedPolicy then policyDigest
  else if input = encode (challengeOf 9) then firstChallengeDigest
  else if input = encode (challengeOf 8) then secondChallengeDigest
  else if input = encode first then firstDigest
  else if input = encode second then secondDigest
  else if input = encode third then thirdDigest
  else zeroDigest

/-- The signatures of the sample; every other message gets zeros. -/
def signatureOf (key : VerifyingKey) (message : Bytes) : Signature :=
  if key ≠ agentKey then filled 64 0
  else if message = REPORT_DOMAIN ++ encode first.unsigned then firstSignature
  else if message = REPORT_DOMAIN ++ encode second.unsigned then secondSignature
  else if message = REPORT_DOMAIN ++ encode third.unsigned then thirdSignature
  else filled 64 0

def publicKey (key : SigningKey) : VerifyingKey := if key = seed then agentKey else key

scoped instance crates : Crates where
  sha256 := digestOf
  verifyingKey := publicKey
  sign key message := signatureOf (publicKey key) message
  verify key message signature := decide (signatureOf key message = signature)
  verify_sign _ _ := decide_eq_true rfl
  Version := ℕ
  versionOrder := inferInstance
  parseVersion _ := none

def session : AgentSession where
  signingKey := seed
  grant := grant
  policy := policy
  agentSessionId := "session"
  sequence := 0
  previousDigest := zeroDigest
  lastChallengeDigest := none

theorem activate_session :
    AgentSession.activate seed grant policy signedPolicy "session" = .ok session := by
  decide +kernel

/-- The first challenge comes again after the second one. -/
def calls : List ReportCall := [callAt 9 1700000001, callAt 8 1700000002, callAt 9 1700000003]

theorem accepted_calls : session.accepted calls =
    [(callAt 9 1700000001, first), (callAt 8 1700000002, second), (callAt 9 1700000003, third)] := by
  decide +kernel

end SampleSession

open SampleSession in
theorem activated_chain_sample : second.sequence.toNat = 2 ∧
    second.previousReportDigest = (Crates.sha256 (encode first)).1 := by
  have hsecond : (session.accepted calls)[1]? = some (callAt 8 1700000002, second) := by
    rw [accepted_calls]
    rfl
  have hfirst : (session.accepted calls)[0]? = some (callAt 9 1700000001, first) := by
    rw [accepted_calls]
    rfl
  obtain ⟨hsequence, -, hprevious, -⟩ :=
    (activated_chain activate_session calls).1 1 _ second hsecond
  exact ⟨hsequence, hprevious 0 (callAt 9 1700000001, first) rfl hfirst⟩

end CertaelAgent.Session
