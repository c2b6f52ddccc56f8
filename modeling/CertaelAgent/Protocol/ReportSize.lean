import CertaelAgent.Foundation.EncodedSize
import CertaelAgent.Protocol.Report

/-!
# Sizes of reports

The encoding of a report, byte for byte from the sizes of its fields. The limit on messages is
applied to the encoding that is signed, and the signature adds 66 bytes to it.
-/

namespace CertaelAgent.Protocol

open ProtoWire

theorem len_replicate (n : ℕ) (c : Char) :
    len (String.ofList (List.replicate n c)) = n * (String.utf8EncodeChar c).length := by
  calc
    _ = (Field.utf8 (String.ofList (List.replicate n c))).length := (Field.length_utf8 _).symm
    _ = ((List.replicate n c).flatMap String.utf8EncodeChar).length := Field.length_utf8_ofList _
    _ = _ := by
      rw [List.length_flatMap, List.map_replicate, List.sum_replicate]
      rfl

def observationSize (observation : IntegrityObservationV1) : ℕ :=
  bodySize 1 (len observation.code) + bodySize 2 (len observation.value)

/-- The bytes that a list of observations takes in a report. -/
def observationsSize (observations : List IntegrityObservationV1) : ℕ :=
  (observations.map fun observation => delimitedSize 8 (observationSize observation)).sum

theorem observationsSize_append (first second : List IntegrityObservationV1) :
    observationsSize (first ++ second) = observationsSize first + observationsSize second := by
  simp [observationsSize]

namespace AgentIntegrityReportV1

/-- The bytes that a report takes without its signature. -/
def unsignedSize (report : AgentIntegrityReportV1) : ℕ :=
  varintSize 1 report.protocolVersion.toNat + bodySize 2 (len report.agentSessionId) +
    varintSize 3 report.sequence.toNat + bodySize 4 report.challengeNonce.length +
    varintSize 5 report.observedAtUnix.toUInt64.toNat + bodySize 6 (len report.buildId) +
    bodySize 7 report.executableSha256.length + observationsSize report.observations +
    bodySize 9 report.previousReportDigest.length

/-- The bytes of a signature under its key. -/
def signatureSize : ℕ := 66

theorem encode_observation_length (observation : IntegrityObservationV1) :
    (encode observation).length = observationSize observation := by
  rw [encode_length]
  exact congrArg₂ (· + ·) (Field.encodedSize_string 1 observation.code)
    (Field.encodedSize_string 2 observation.value)

theorem encode_report_length (report : AgentIntegrityReportV1) :
    (encode report).length = report.unsignedSize + bodySize 10 report.signature.length := by
  have hobservations : Field.encodedSize 8 (.repeatedMessage IntegrityObservationV1)
      report.observations = observationsSize report.observations := by
    rw [Field.encodedSize_repeatedMessage]
    simp only [encode_observation_length]
    rfl
  rw [encode_length]
  calc
    _ = Field.encodedSize 1 .uint32 report.protocolVersion +
        (Field.encodedSize 2 .string report.agentSessionId +
        (Field.encodedSize 3 .uint64 report.sequence +
        (Field.encodedSize 4 .bytes report.challengeNonce +
        (Field.encodedSize 5 .int64 report.observedAtUnix +
        (Field.encodedSize 6 .string report.buildId +
        (Field.encodedSize 7 .bytes report.executableSha256 +
        (Field.encodedSize 8 (.repeatedMessage IntegrityObservationV1) report.observations +
        (Field.encodedSize 9 .bytes report.previousReportDigest +
        (Field.encodedSize 10 .bytes report.signature + 0))))))))) := rfl
    _ = _ := by
      rw [hobservations, Field.encodedSize_uint32, Field.encodedSize_uint64,
        Field.encodedSize_int64, Field.encodedSize_string, Field.encodedSize_string,
        Field.encodedSize_bytes, Field.encodedSize_bytes, Field.encodedSize_bytes,
        Field.encodedSize_bytes]
      unfold unsignedSize len
      omega

theorem encode_unsigned_length (report : AgentIntegrityReportV1) :
    (encode report.unsigned).length = report.unsignedSize :=
  encode_report_length report.unsigned

/-- The report can be signed, and with its signature it is over the limit. -/
def Overlong (report : AgentIntegrityReportV1) : Prop :=
  validateReport report = .ok () ∧ report.unsignedSize ≤ MAX_MESSAGE_BYTES ∧
    MAX_MESSAGE_BYTES < report.unsignedSize + signatureSize

instance (report : AgentIntegrityReportV1) : Decidable report.Overlong :=
  inferInstanceAs (Decidable (_ ∧ _ ∧ _))

end AgentIntegrityReportV1

open AgentIntegrityReportV1

variable [Crates] {report signed : AgentIntegrityReportV1} {key : SigningKey}

theorem exists_signReport_iff : (∃ signed, signReport report key = .ok signed) ↔
    validateReport report = .ok () ∧ report.unsignedSize ≤ MAX_MESSAGE_BYTES := by
  constructor
  · rintro ⟨signed, h⟩
    obtain ⟨_, hvalid, h⟩ := Except.bind_eq_ok_iff.mp h
    obtain ⟨bytes, hbytes, -⟩ := Except.bind_eq_ok_iff.mp h
    have hlimit := (signingBytes_eq_ok_iff.mp hbytes).1
    rw [encode_unsigned_length] at hlimit
    exact ⟨hvalid, hlimit⟩
  · rintro ⟨hvalid, hlimit⟩
    have hbytes : signingBytes REPORT_DOMAIN report.unsigned =
        .ok (REPORT_DOMAIN ++ encode report.unsigned) := by
      apply signingBytes_eq_ok_iff.mpr
      rw [encode_unsigned_length]
      exact ⟨hlimit, rfl⟩
    simp only [signReport, validateReport_unsigned, hvalid, hbytes, Except.ok_bind]
    exact ⟨_, rfl⟩

theorem encode_signed_length (h : signReport report key = .ok signed) :
    (encode signed).length = report.unsignedSize + signatureSize := by
  have hsize : signed.unsignedSize = report.unsignedSize := by
    calc
      _ = signed.unsigned.unsignedSize := rfl
      _ = report.unsigned.unsignedSize := by rw [unsigned_of_signReport h]
      _ = report.unsignedSize := rfl
  obtain ⟨_, -, h⟩ := Except.bind_eq_ok_iff.mp h
  obtain ⟨bytes, -, h⟩ := Except.bind_eq_ok_iff.mp h
  have hsignature : signed.signature.length = 64 := by
    rw [← Except.ok.inj h]
    exact (Crates.sign key bytes).2
  rw [encode_report_length, hsize, hsignature]
  rfl

/-- Every signed form of a report is in the limit exactly when the report is not overlong. -/
theorem signed_in_limit_iff :
    (∀ signed, signReport report key = .ok signed → (encode signed).length ≤ MAX_MESSAGE_BYTES) ↔
      ¬ report.Overlong := by
  constructor
  · rintro h ⟨hvalid, hlimit, hover⟩
    have hexists : ∃ signed, signReport report key = .ok signed :=
      exists_signReport_iff.mpr ⟨hvalid, hlimit⟩
    obtain ⟨signed, hsigned⟩ := hexists
    have hsent := h signed hsigned
    rw [encode_signed_length hsigned] at hsent
    omega
  · intro h signed hsigned
    obtain ⟨hvalid, hlimit⟩ := exists_signReport_iff.mp ⟨signed, hsigned⟩
    rw [encode_signed_length hsigned]
    by_contra hover
    exact h ⟨hvalid, hlimit, not_le.mp hover⟩

end CertaelAgent.Protocol
