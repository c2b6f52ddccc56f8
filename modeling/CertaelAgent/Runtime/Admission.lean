import CertaelAgent.Runtime.Grammar

/-!
# Admitted launches

What an admitted launch is known to satisfy, whatever bundle it came from: its session id is an
identifier, so every health frame of the session is short enough to be sent, and the four build
ids of hello, grant, manifest and launch are one.
-/

namespace CertaelAgent.Runtime

open ProtoWire Protocol Ipc

theorem sendable_healthFrame {sessionId health : String} {lastReportAt : Int64}
    {reasons : List String} (hid : len sessionId ≤ 128) (hhealth : len health ≤ 128)
    (hreasons : ∀ reason ∈ reasons, len reason ≤ 128) (hfew : reasons.length ≤ 1) :
    Sendable (healthFrame sessionId health lastReportAt reasons) := by
  have hlen : (healthFrame sessionId health lastReportAt reasons).payload.length ≤
      Field.string.size sessionId + (Field.string.size health +
        (Field.int64.size lastReportAt + (Field.repeatedString.size reasons + 0))) :=
    encode_length_le (M := AgentHealthV1) _
  have hsizeId := Field.size_string_le sessionId
  have hsizeHealth := Field.size_string_le health
  have hsizeTime := Field.size_int64_le lastReportAt
  have hsizeReasons : Field.repeatedString.size reasons ≤ 148 := by
    rw [Field.size_repeatedString]
    match reasons, hfew with
    | [], _ => simp
    | [reason], _ => simpa [len] using hreasons reason (by simp)
  unfold Sendable MAX_FRAME_PAYLOAD
  unfold len at hid hhealth
  omega

theorem identifier_of_validateLaunchGrant {claims : AgentLaunchGrantClaimsV1} {nowUnix : Int64}
    (h : validateLaunchGrant claims nowUnix = .ok ()) : identifier claims.grantId := by
  unfold validateLaunchGrant at h
  split_ifs at h with hinvalid
  simp only [not_or, not_not] at hinvalid
  exact hinvalid.2.1

/-- The clock never goes back: from admission to the timers, through every turn, and from each
turn to the next. -/
def ClockNondecreasing (arrival : Arrival) (turns : List Turn) : Prop :=
  List.IsChain (· ≤ ·) ([arrival.verifiedAt, arrival.heartbeatFrom, arrival.deadlineFrom] ++
    turns.flatMap fun turn => [turn.now, turn.after])

instance (arrival : Arrival) (turns : List Turn) : Decidable (ClockNondecreasing arrival turns) :=
  inferInstanceAs (Decidable (List.IsChain ..))

section

variable [Crates] {state : RuntimeState} {arrival : Arrival} {launch : BoundAgentLaunch}

theorem Admits.evidence (h : Admits state arrival launch) :
    ∃ (payload : Bytes) (evidence : LaunchEvidence),
      arrival.received = .frame ⟨.launchGrant, payload⟩ ∧
      evidence.Authentic payload state.trust arrival.verifiedAt CARGO_PKG_VERSION ∧
      evidence.Bound (Crates.verifyingKey state.key) state.hello.buildId ∧
      launch = evidence.launch := by
  obtain ⟨payload, hreceived, hverify⟩ := h.bundle
  obtain ⟨evidence, hauth, hbound, _, hlaunch⟩ := verifyLaunchBundle_eq_ok_iff.mp hverify
  exact ⟨payload, evidence, hreceived, hauth, hbound, hlaunch⟩

theorem Admits.sessionId (h : Admits state arrival launch) : identifier launch.sessionId := by
  obtain ⟨payload, evidence, _, hauth, _, rfl⟩ := h.evidence
  exact identifier_of_validateLaunchGrant hauth.grantValid

theorem Admits.buildId (h : Admits state arrival launch) :
    launch.buildId = state.hello.buildId ∧ launch.buildManifest.buildId = launch.buildId := by
  obtain ⟨payload, evidence, _, _, hbound, rfl⟩ := h.evidence
  obtain ⟨_, hgrant, _, _, _, _, _, _, _, _, hmanifest⟩ := hbound
  exact ⟨hgrant, hmanifest⟩

theorem Admits.sendable_protected (h : Admits state arrival launch) (lastReportAt : Int64) :
    Sendable (healthFrame launch.sessionId "protected" lastReportAt []) :=
  sendable_healthFrame (len_pos_of_identifier h.sessionId).2 (by decide) (by simp) (by simp)

theorem Admits.serve_eq (h : Admits state arrival launch) (hhello : Sendable (helloFrame state))
    (turns : List Turn) : serve state arrival turns =
      ⟨.write (helloFrame state) :: (greeting state launch ++
        (Transcript.run (sessionTurn state launch) (openSession arrival launch) turns).emitted),
        (Transcript.run (sessionTurn state launch) (openSession arrival launch) turns).result⟩ := by
  obtain ⟨payload, hreceived, hverify⟩ := h.bundle
  have hready : Sendable (healthFrame launch.sessionId "ready" 0 []) :=
    sendable_healthFrame (len_pos_of_identifier h.sessionId).2 (by decide) (by simp) (by simp)
  have hregistration :
      ¬ ∃ registration ∈ state.registration, ¬ registrationMatches registration launch := by
    simpa using h.registration
  have hadmission : admission state arrival =
      ⟨greeting state launch, .ok (launch, openSession arrival launch)⟩ := by
    unfold admission
    simp only [publishRuntime_bind, hreceived, Transcript.value_bind, ne_eq, not_true_eq_false,
      if_false, hverify, hregistration, h.files, writeHealth, sendFrame_of_sendable hready,
      Transcript.emit_bind]
    simp [greeting, Transcript.value]
  unfold serve
  rw [sendFrame_of_sendable hhello, Transcript.emit_bind, hadmission]
  rfl

end

/-! ## A sample launch

Everything below is one concrete launch of a game whose executable has four bytes. The digests
and signatures are those of SHA-256 and Ed25519 on the byte strings that occur. -/

namespace Sample

def serverKey : ByteArrayOf 32 := publicKeyOfOnes

def agentKey : ByteArrayOf 32 :=
  ⟨[129, 57, 119, 14, 168, 125, 23, 95, 86, 163, 84, 102, 195, 76, 126, 204, 203, 141, 138, 145,
    180, 238, 55, 162, 93, 246, 15, 91, 143, 201, 179, 148], rfl⟩

def agentSeed : ByteArrayOf 32 :=
  ⟨[2, 2, 2, 2, 2, 2, 2, 2, 2, 2, 2, 2, 2, 2, 2, 2, 2, 2, 2, 2, 2, 2, 2, 2, 2, 2, 2, 2, 2, 2, 2,
    2], rfl⟩

def contents : Bytes := [127, 69, 76, 70]

def contentsDigest : ByteArrayOf 32 :=
  ⟨[59, 219, 180, 254, 131, 151, 205, 43, 132, 36, 48, 179, 156, 207, 240, 26, 134, 99, 199, 81,
    148, 94, 245, 233, 160, 158, 38, 127, 184, 177, 211, 89], rfl⟩

def buildId : String := Hex.encode contentsDigest.1

def policy : AgentPolicyClaimsV1 where
  protocolVersion := 1
  policyId := "ranked"
  gameId := "chess"
  environmentId := "live"
  requirementMode := 2
  heartbeatSeconds := 5
  reportSeconds := 15
  disconnectGraceSeconds := 0
  minimumAgentVersion := "0.4.0-alpha.1"
  expiresAtUnix := 1005
  tenantId := "studio"

def policySignature : ByteArrayOf 64 :=
  ⟨[236, 165, 122, 143, 211, 196, 167, 102, 19, 193, 198, 106, 99, 254, 197, 165, 121, 52, 70,
    189, 243, 84, 181, 0, 228, 82, 224, 207, 214, 185, 27, 153, 59, 14, 3, 28, 187, 247, 22, 234,
    179, 48, 125, 118, 74, 139, 154, 73, 131, 74, 209, 121, 209, 176, 242, 113, 65, 28, 33, 50,
    205, 156, 91, 11], rfl⟩

def signedPolicy : SignedAgentPolicyV1 :=
  { claims := encode policy, signature := policySignature.1, keyId := "key" }

def policyDigest : ByteArrayOf 32 :=
  ⟨[62, 138, 69, 141, 243, 44, 9, 89, 24, 145, 194, 247, 18, 179, 117, 83, 106, 96, 253, 8, 159,
    208, 158, 238, 53, 220, 217, 127, 156, 9, 102, 104], rfl⟩

def manifest : BuildManifestClaimsV1 where
  protocolVersion := 1
  manifestId := "manifest"
  tenantId := "studio"
  gameId := "chess"
  environmentId := "live"
  buildId := buildId
  files := [{ path := "chess.bin", size := 4, sha256 := contentsDigest.1 }]
  notBeforeUnix := 990
  expiresAtUnix := 2000
  coreSdkVersion := "0.3.0"
  engineAdapter := "native"
  engineAdapterVersion := "0.3.0"
  coreCAbiVersion := 1
  actionProtocolVersion := 1
  agentProtocolVersion := 1
  agentProbeAbiVersion := 1

def manifestSignature : ByteArrayOf 64 :=
  ⟨[171, 31, 11, 55, 112, 83, 14, 118, 146, 41, 241, 58, 140, 18, 221, 35, 54, 255, 33, 221, 242,
    67, 172, 230, 100, 224, 214, 245, 75, 97, 83, 4, 204, 147, 180, 136, 73, 79, 111, 173, 229,
    149, 88, 1, 251, 111, 156, 90, 5, 218, 22, 1, 97, 131, 120, 32, 184, 181, 66, 66, 144, 113,
    54, 3], rfl⟩

def signedManifest : SignedBuildManifestV1 :=
  { claims := encode manifest, signature := manifestSignature.1, keyId := "key" }

def manifestDigest : ByteArrayOf 32 :=
  ⟨[132, 158, 10, 51, 187, 194, 63, 175, 180, 74, 217, 82, 196, 15, 81, 172, 22, 20, 100, 59, 32,
    40, 227, 226, 66, 246, 69, 248, 79, 201, 246, 150], rfl⟩

def grant : AgentLaunchGrantClaimsV1 where
  protocolVersion := 1
  grantId := "session"
  tenantId := "studio"
  gameId := "chess"
  environmentId := "live"
  playerSubject := "player"
  matchId := "match"
  buildId := buildId
  agentPublicKey := agentKey.1
  issuedAtUnix := 990
  expiresAtUnix := 1050
  policyDigest := policyDigest.1
  authoritativeServerId := "server"
  buildManifestDigest := manifestDigest.1

def grantSignature : ByteArrayOf 64 :=
  ⟨[143, 92, 62, 133, 229, 212, 10, 195, 1, 128, 147, 119, 81, 51, 30, 47, 147, 82, 57, 118, 127,
    225, 91, 72, 216, 40, 231, 95, 6, 77, 68, 168, 231, 47, 132, 222, 190, 111, 143, 244, 141,
    182, 222, 65, 42, 136, 59, 138, 64, 190, 37, 211, 155, 184, 146, 54, 169, 101, 132, 229, 104,
    214, 81, 11], rfl⟩

def signedGrant : SignedAgentLaunchGrantV1 :=
  { claims := encode grant, signature := grantSignature.1, keyId := "key" }

def bundle : AgentLaunchBundleV1 where
  signedPolicy := encode signedPolicy
  signedLaunchGrant := encode signedGrant
  signedBuildManifest := encode signedManifest

def nonce : Bytes := [0, 1, 2, 3, 4, 5, 6, 7, 8, 9, 10, 11, 12, 13, 14, 15]

/-- The reports that the session below signs. -/
def report (sequence : UInt64) (observedAt : Int64) (previous : Digest) :
    AgentIntegrityReportV1 where
  protocolVersion := 1
  agentSessionId := "session"
  sequence := sequence
  challengeNonce := nonce
  observedAtUnix := observedAt
  buildId := buildId
  executableSha256 := contentsDigest.1
  observations := [observation "agent.platform" "linux", observation "agent.process_id" "7",
    observation "game.process_id" "0", observation "game.process_running" "false",
    observation "game.executable_matches" "false",
    observation "game.parent_is_agent" "unknown",
    observation "agent.debugger_observed" "false",
    observation "agent.probe_health" "connected",
    observation "game.process_identity_stable" "unknown"]
  previousReportDigest := previous.1
  signature := []

def firstSignature : ByteArrayOf 64 :=
  ⟨[233, 220, 155, 99, 12, 39, 160, 255, 84, 71, 214, 63, 172, 217, 57, 233, 11, 22, 237, 251, 8,
    251, 187, 50, 80, 254, 78, 97, 45, 191, 42, 215, 44, 100, 57, 200, 4, 163, 199, 125, 247, 62,
    241, 228, 138, 202, 191, 248, 114, 4, 137, 69, 170, 172, 181, 165, 128, 117, 103, 240, 64,
    144, 84, 3], rfl⟩

def firstDigest : ByteArrayOf 32 :=
  ⟨[182, 163, 255, 101, 191, 181, 166, 13, 133, 176, 237, 101, 89, 253, 14, 13, 237, 81, 238, 249,
    229, 247, 42, 73, 49, 4, 44, 158, 227, 12, 111, 105], rfl⟩

def secondSignature : ByteArrayOf 64 :=
  ⟨[22, 178, 206, 153, 125, 229, 76, 227, 35, 23, 8, 16, 42, 169, 133, 173, 24, 46, 191, 112, 14,
    16, 47, 212, 52, 201, 190, 55, 147, 238, 161, 64, 117, 235, 98, 158, 213, 17, 169, 16, 200,
    76, 241, 217, 125, 187, 209, 249, 111, 11, 171, 244, 140, 127, 230, 94, 19, 31, 151, 158, 76,
    35, 217, 7], rfl⟩

def secondDigest : ByteArrayOf 32 :=
  ⟨[32, 212, 170, 128, 235, 156, 178, 217, 23, 128, 192, 218, 82, 101, 12, 49, 166, 45, 194, 3,
    101, 103, 150, 172, 214, 78, 201, 223, 96, 189, 131, 101], rfl⟩

def firstReport : AgentIntegrityReportV1 := report 1 1001 zeroDigest

def secondReport : AgentIntegrityReportV1 := report 2 1002 firstDigest

/-- SHA-256 on the byte strings of the sample. -/
def sha256 (bytes : Bytes) : Digest :=
  if bytes = contents then contentsDigest
  else if bytes = encode signedPolicy then policyDigest
  else if bytes = encode signedManifest then manifestDigest
  else if bytes = encode { firstReport with signature := firstSignature.1 } then firstDigest
  else if bytes = encode { secondReport with signature := secondSignature.1 } then secondDigest
  else zeroDigest

/-- The signatures of the sample, by the public key they verify under. -/
def signatureOf (key : VerifyingKey) (message : Bytes) : Signature :=
  if key = serverKey ∧ message = POLICY_DOMAIN ++ encode policy then policySignature
  else if key = serverKey ∧ message = LAUNCH_DOMAIN ++ encode grant then grantSignature
  else if key = serverKey ∧ message = BUILD_MANIFEST_DOMAIN ++ encode manifest then
    manifestSignature
  else if key = agentKey ∧ message = REPORT_DOMAIN ++ encode firstReport then firstSignature
  else if key = agentKey ∧ message = REPORT_DOMAIN ++ encode secondReport then secondSignature
  else filled 64 0

def publicKey (seed : SigningKey) : VerifyingKey := if seed = agentSeed then agentKey else seed

instance crates : Crates where
  sha256 := sha256
  verifyingKey := publicKey
  sign seed message := signatureOf (publicKey seed) message
  verify key message signature := decide (signatureOf key message = signature)
  verify_sign _ _ := decide_eq_true rfl
  Version := ℕ
  versionOrder := inferInstance
  parseVersion version := if version = "0.4.0-alpha.1" then some 0 else none

def trustedKey : VerificationKey :=
  { keyId := "key", key := serverKey, notBeforeUnix := 0, notAfterUnix := 10000, revoked := false }

def trust : VerificationKeyRing where
  keys := [trustedKey]
  nonempty := by decide
  wellFormed := by decide
  distinctIds := by decide

def state : RuntimeState where
  gameProcessId := 0
  gameProcessIdentity := none
  key := agentSeed
  hello :=
    { protocolVersion := 1, agentVersion := CARGO_PKG_VERSION, agentPublicKey := agentKey.1,
      buildId := buildId, executableSha256 := contentsDigest.1 }
  trust := trust
  registration := none
  automaticUpdate := none

def arrival : Arrival where
  received := .frame ⟨.launchGrant, encode bundle⟩
  verifiedAt := 1000
  verifyFiles _ := .ok []
  update _ := .failed
  heartbeatFrom := 1000
  deadlineFrom := 1000

def evidence : LaunchEvidence where
  bundle := bundle
  policyEnvelope := signedPolicy
  grantEnvelope := signedGrant
  manifestEnvelope := signedManifest
  policy := policy
  grant := grant
  manifest := manifest
  minimum := (0 : ℕ)
  current := (0 : ℕ)

def launch : BoundAgentLaunch := evidence.launch

theorem signedByRing {domain : Bytes} {signed : SignedEnvelope} {nowUnix : Int64}
    (hvalid : 0 ≤ nowUnix ∧ nowUnix < 10000) (hkey : signed.keyId = "key")
    (hsigned : (signatureOf serverKey (domain ++ signed.claims)).1 = signed.signature) :
    SignedByRing domain signed trust nowUnix :=
  ⟨trustedKey, List.mem_singleton_self _, hkey.symm, ⟨rfl, hvalid.1, hvalid.2⟩,
    _, hsigned, decide_eq_true rfl⟩

/-- The bundle is authentic at every time at which its documents and the key are valid. -/
theorem authentic_at {nowUnix : Int64} (hkey : 0 ≤ nowUnix ∧ nowUnix < 10000)
    (hpolicy : validatePolicy policy nowUnix = .ok ())
    (hgrant : validateLaunchGrant grant nowUnix = .ok ())
    (hmanifest : validateBuildManifest manifest nowUnix = .ok ()) :
    evidence.Authentic (encode bundle) trust nowUnix CARGO_PKG_VERSION where
  bundle := ⟨rfl, by decide +kernel, by decide +kernel⟩
  policyEnvelope := ⟨rfl, by decide +kernel, by decide +kernel⟩
  grantEnvelope := ⟨rfl, by decide +kernel, by decide +kernel⟩
  manifestEnvelope := ⟨rfl, by decide +kernel, by decide +kernel⟩
  policyClaims := ⟨rfl, by decide +kernel, by decide +kernel⟩
  policyValid := hpolicy
  policySigned := signedByRing hkey rfl (by decide +kernel)
  grantClaims := ⟨rfl, by decide +kernel, by decide +kernel⟩
  grantValid := hgrant
  grantSigned := signedByRing hkey rfl (by decide +kernel)
  manifestClaims := ⟨rfl, by decide +kernel, by decide +kernel⟩
  manifestValid := hmanifest
  manifestSigned := signedByRing hkey rfl (by decide +kernel)
  minimumParses := by decide +kernel
  currentParses := by decide +kernel

theorem evidence_authentic : evidence.Authentic (encode bundle) trust 1000 CARGO_PKG_VERSION :=
  authentic_at (by decide) (by decide +kernel) (by decide +kernel) (by decide +kernel)

theorem admits : Admits state arrival launch where
  bundle := ⟨encode bundle, rfl, verifyLaunchBundle_eq_ok_iff.mpr
    ⟨evidence, evidence_authentic, by decide +kernel, le_refl _, rfl⟩⟩
  registration := by simp [state]
  files := rfl

end Sample

end CertaelAgent.Runtime
