import CertaelAgent.Protocol.Signatures

/-!
# Integrity reports

A report is signed over its encoding with an empty signature, so verification first clears the
signature it checks. Its digest is that of the whole encoding, signature included.
-/

namespace CertaelAgent.Protocol

open ProtoWire

variable [Crates]

def signingBytes {M : Type} [Message M] (domain : Bytes) (message : M) :
    Except ProtocolError Bytes :=
  if MAX_MESSAGE_BYTES < (encode message).length then .error .tooLarge
  else .ok (domain ++ encode message)

def validateReport (report : AgentIntegrityReportV1) : Except ProtocolError Unit :=
  if report.protocolVersion ≠ PROTOCOL_VERSION then .error (.invalidField "protocol_version")
  else if report.agentSessionId = "" ∨ 128 < len report.agentSessionId then
    .error (.invalidField "agent_session_id")
  else if report.sequence = 0 then .error (.invalidField "sequence")
  else if report.challengeNonce.length < 16 ∨ 256 < report.challengeNonce.length then
    .error (.invalidField "challenge_nonce")
  else if report.buildId = "" ∨ 128 < len report.buildId then .error (.invalidField "build_id")
  else if report.executableSha256.length ≠ 32 then .error (.invalidField "executable_sha256")
  else if report.previousReportDigest ≠ [] ∧ report.previousReportDigest.length ≠ 32 then
    .error (.invalidField "previous_report_digest")
  else if 1024 < report.observations.length then .error (.invalidField "observations")
  else .ok ()

omit [Crates] in
theorem validateReport_of_fields {report : AgentIntegrityReportV1}
    (hversion : report.protocolVersion = PROTOCOL_VERSION)
    (hsession : report.agentSessionId ≠ "" ∧ len report.agentSessionId ≤ 128)
    (hsequence : report.sequence ≠ 0)
    (hnonce : 16 ≤ report.challengeNonce.length ∧ report.challengeNonce.length ≤ 256)
    (hbuild : report.buildId ≠ "" ∧ len report.buildId ≤ 128)
    (hexecutable : report.executableSha256.length = 32)
    (hprevious : report.previousReportDigest = [] ∨ report.previousReportDigest.length = 32)
    (hcount : report.observations.length ≤ 1024) : validateReport report = .ok () := by
  have hsessionOk : ¬ (report.agentSessionId = "" ∨ 128 < len report.agentSessionId) :=
    not_or.mpr ⟨hsession.1, not_lt.mpr hsession.2⟩
  have hnonceOk : ¬ (report.challengeNonce.length < 16 ∨ 256 < report.challengeNonce.length) := by
    omega
  have hbuildOk : ¬ (report.buildId = "" ∨ 128 < len report.buildId) :=
    not_or.mpr ⟨hbuild.1, not_lt.mpr hbuild.2⟩
  have hpreviousOk :
      ¬ (report.previousReportDigest ≠ [] ∧ report.previousReportDigest.length ≠ 32) := by
    tauto
  unfold validateReport
  rw [if_neg (not_not.mpr hversion), if_neg hsessionOk, if_neg hsequence, if_neg hnonceOk,
    if_neg hbuildOk, if_neg (not_not.mpr hexecutable), if_neg hpreviousOk,
    if_neg (not_lt.mpr hcount)]

/-- The report as it is signed. -/
def AgentIntegrityReportV1.unsigned (report : AgentIntegrityReportV1) : AgentIntegrityReportV1 :=
  { report with signature := [] }

def signReport (report : AgentIntegrityReportV1) (key : SigningKey) :
    Except ProtocolError AgentIntegrityReportV1 := do
  let report := report.unsigned
  validateReport report
  let bytes ← signingBytes REPORT_DOMAIN report
  .ok { report with signature := (Crates.sign key bytes).1 }

def verifyReport (report : AgentIntegrityReportV1) (key : VerifyingKey) :
    Except ProtocolError Unit := do
  validateReport report
  let signature ← Except.ofOption .invalidSignature (Signature.fromSlice report.signature)
  let bytes ← signingBytes REPORT_DOMAIN report.unsigned
  Except.require .invalidSignature (Crates.verify key bytes signature = true)

def reportDigest (report : AgentIntegrityReportV1) : Digest := Crates.sha256 (encode report)

omit [Crates] in
theorem validateReport_unsigned (report : AgentIntegrityReportV1) :
    validateReport report.unsigned = validateReport report := rfl

theorem unsigned_of_signReport {report signed : AgentIntegrityReportV1} {key : SigningKey}
    (h : signReport report key = .ok signed) : signed.unsigned = report.unsigned := by
  obtain ⟨_, _, h⟩ := Except.bind_eq_ok_iff.mp h
  obtain ⟨bytes, _, h⟩ := Except.bind_eq_ok_iff.mp h
  rw [← Except.ok.inj h]
  rfl

/-- A signed report is accepted under the public half of the key that signed it. -/
theorem verifyReport_of_signReport {report signed : AgentIntegrityReportV1} {key : SigningKey}
    (h : signReport report key = .ok signed) :
    verifyReport signed (Crates.verifyingKey key) = .ok () := by
  have hfields : signed.unsigned = report.unsigned := unsigned_of_signReport h
  obtain ⟨_, hvalid, h⟩ := Except.bind_eq_ok_iff.mp h
  obtain ⟨bytes, hbytes, h⟩ := Except.bind_eq_ok_iff.mp h
  have hsignature : signed.signature = (Crates.sign key bytes).1 := by
    rw [← Except.ok.inj h]
  unfold verifyReport
  rw [← validateReport_unsigned, hfields, hvalid, hsignature, Signature.fromSlice_coe, hbytes]
  exact Except.require_eq_ok_iff.mpr (Crates.verify_sign key bytes)

omit [Crates] in
theorem signingBytes_eq_ok_iff {M : Type} [Message M] {domain bytes : Bytes} {message : M} :
    signingBytes domain message = .ok bytes ↔
      (encode message).length ≤ MAX_MESSAGE_BYTES ∧ bytes = domain ++ encode message := by
  unfold signingBytes
  split_ifs with hlarge
  · simp
    omega
  · rw [Except.ok.injEq, eq_comm]
    exact ⟨fun h => ⟨not_lt.mp hlarge, h⟩, And.right⟩

theorem signed_of_verifyReport {report : AgentIntegrityReportV1} {key : VerifyingKey}
    (h : verifyReport report key = .ok ()) : ∃ (signature : Signature) (bytes : Bytes),
      signature.1 = report.signature ∧ signingBytes REPORT_DOMAIN report.unsigned = .ok bytes ∧
        Crates.verify key bytes signature = true := by
  obtain ⟨_, -, h⟩ := Except.bind_eq_ok_iff.mp h
  obtain ⟨signature, hsignature, h⟩ := Except.bind_eq_ok_iff.mp h
  obtain ⟨bytes, hbytes, h⟩ := Except.bind_eq_ok_iff.mp h
  rw [Except.ofOption_eq_ok_iff, Signature.fromSlice] at hsignature
  split_ifs at hsignature with hlength
  exact ⟨signature, bytes, by rw [← Option.some.inj hsignature], hbytes,
    Except.require_eq_ok_iff.mp h⟩

omit [Crates] in
/-- Reports of which the same bytes are signed agree in every field but the signature. -/
theorem unsigned_eq_of_signingBytes {report other : AgentIntegrityReportV1} {bytes : Bytes}
    (h : signingBytes REPORT_DOMAIN report.unsigned = .ok bytes)
    (hother : signingBytes REPORT_DOMAIN other.unsigned = .ok bytes) :
    other.unsigned = report.unsigned := by
  obtain ⟨-, rfl⟩ := signingBytes_eq_ok_iff.mp h
  obtain ⟨hlen, hbytes⟩ := signingBytes_eq_ok_iff.mp hother
  have hencode := List.append_cancel_left hbytes
  unfold MAX_MESSAGE_BYTES at hlen
  exact encode_injective (by omega) hencode.symm

end CertaelAgent.Protocol
