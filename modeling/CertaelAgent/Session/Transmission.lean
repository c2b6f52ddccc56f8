import CertaelAgent.Ipc.Frame
import CertaelAgent.Protocol.ReportSize
import CertaelAgent.Session.Chaining

/-!
# Reports that can be sent

A report is signed when it fits the limit without its signature and sent when it fits with it. The
two disagree in a band of 66 bytes below the limit, where a session signs a report and goes on to
the next one although no frame takes it.
-/

namespace CertaelAgent.Session

open ProtoWire Protocol Ipc

section

variable [Crates] {session : AgentSession} {call : ReportCall} {report : AgentIntegrityReportV1}

/-- The encoding of a report is in the limit of messages, and a frame of any type takes it. -/
def Transmissible (report : AgentIntegrityReportV1) : Prop :=
  (encode report).length ≤ MAX_MESSAGE_BYTES ∧
    ∀ messageType, ∃ bytes, writeFrame ⟨messageType, encode report⟩ = .ok bytes

omit [Crates] in
theorem transmissible_iff : Transmissible report ↔ (encode report).length ≤ MAX_MESSAGE_BYTES := by
  constructor
  · exact And.left
  · intro h
    exact ⟨h, fun _ => writeFrame_isOk_iff.mpr h⟩

/-- The session has a report for the call, but one that no frame takes. -/
def AgentSession.OverlongAnswer (session : AgentSession) (call : ReportCall) : Prop :=
  session.Admissible call.challenge call.nowUnix ∧
    session.lastChallengeDigest ≠ some (challengeDigest call.challenge) ∧
    ∃ sequence, session.sequence.checkedAdd 1 = some sequence ∧
      (session.nextReport call sequence).Overlong

theorem createReport_of_signed {sequence : UInt64}
    (hadmissible : session.Admissible call.challenge call.nowUnix)
    (hfresh : session.lastChallengeDigest ≠ some (challengeDigest call.challenge))
    (hsequence : session.sequence.checkedAdd 1 = some sequence)
    (hsigned : signReport (session.nextReport call sequence) session.signingKey = .ok report) :
    (session.createReport call).1 = .ok report ∧
      (session.createReport call).2.sequence = sequence := by
  unfold AgentSession.createReport
  rw [if_neg (not_not.mpr hadmissible), if_neg hfresh, hsequence]
  dsimp only
  rw [hsigned]
  exact ⟨rfl, rfl⟩

/-- A session that a call has changed has signed a report with the next number. -/
theorem signed_of_advanced (h : (session.createReport call).2 ≠ session) :
    ∃ report sequence, (session.createReport call).1 = .ok report ∧
      session.Admissible call.challenge call.nowUnix ∧
      session.lastChallengeDigest ≠ some (challengeDigest call.challenge) ∧
      session.sequence.checkedAdd 1 = some sequence ∧
      signReport (session.nextReport call sequence) session.signingKey = .ok report := by
  cases hresult : (session.createReport call).1 with
  | error e => exact absurd (createReport_error hresult) h
  | ok report =>
    have hcreated := createReport_ok hresult
    have hnumber := hcreated.sequence
    have hbound := (session.createReport call).2.sequence.toNat_lt
    have hone : (1 : UInt64).toNat = 1 := rfl
    have hsequence : session.sequence.checkedAdd 1 =
        some (session.createReport call).2.sequence := by
      unfold UInt64.checkedAdd
      rw [if_pos (by omega), Option.some.injEq, ← UInt64.toNat_inj, UInt64.toNat_add]
      omega
    exact ⟨report, _, rfl, hcreated.admissible, hcreated.fresh, hsequence, hcreated.signed⟩

omit [Crates] in
theorem sequence_ne_of_checkedAdd {a b : UInt64} (h : a.checkedAdd 1 = some b) : b ≠ a := by
  rintro rfl
  have hsum := UInt64.toNat_of_checkedAdd h
  have hone : (1 : UInt64).toNat = 1 := rfl
  omega

theorem signed_transmissible_iff (report : AgentIntegrityReportV1) (key : SigningKey) :
    (∀ signed, signReport report key = .ok signed → Transmissible signed) ↔ ¬ report.Overlong := by
  simp only [transmissible_iff]
  exact signed_in_limit_iff

theorem advance_transmissible_iff (session : AgentSession) (call : ReportCall) :
    ((session.createReport call).2 ≠ session →
      ∃ report, (session.createReport call).1 = .ok report ∧ Transmissible report) ↔
      ¬ session.OverlongAnswer call := by
  constructor
  · rintro h ⟨hadmissible, hfresh, sequence, hsequence, hoverlong⟩
    have hexists : ∃ signed,
        signReport (session.nextReport call sequence) session.signingKey = .ok signed :=
      exists_signReport_iff.mpr ⟨hoverlong.1, hoverlong.2.1⟩
    obtain ⟨signed, hsigned⟩ := hexists
    obtain ⟨hresult, hafter⟩ := createReport_of_signed hadmissible hfresh hsequence hsigned
    have hadvanced : (session.createReport call).2 ≠ session := by
      intro hsame
      rw [hsame] at hafter
      exact sequence_ne_of_checkedAdd hsequence hafter.symm
    obtain ⟨report, hreport, hfits⟩ := h hadvanced
    obtain rfl : signed = report := Except.ok.inj (hresult.symm.trans hreport)
    have hsent := transmissible_iff.mp hfits
    rw [encode_signed_length hsigned] at hsent
    exact absurd hsent (not_le.mpr hoverlong.2.2)
  · intro h hadvanced
    obtain ⟨report, sequence, hresult, hadmissible, hfresh, hsequence, hsigned⟩ :=
      signed_of_advanced hadvanced
    have hfits : ¬ (session.nextReport call sequence).Overlong := fun hoverlong =>
      h ⟨hadmissible, hfresh, sequence, hsequence, hoverlong⟩
    exact ⟨report, hresult, (signed_transmissible_iff _ _).mpr hfits report hsigned⟩

/-- Every signed form of a report can be sent exactly when the report is not overlong; and a session
moves on with reports that can be sent exactly when its answer is not. -/
theorem reports_transmissible_iff :
    (∀ (report : AgentIntegrityReportV1) (key : SigningKey),
      (∀ signed, signReport report key = .ok signed → Transmissible signed) ↔ ¬ report.Overlong) ∧
    ∀ (session : AgentSession) (call : ReportCall),
      ((session.createReport call).2 ≠ session →
        ∃ report, (session.createReport call).1 = .ok report ∧ Transmissible report) ↔
      ¬ session.OverlongAnswer call :=
  ⟨signed_transmissible_iff, advance_transmissible_iff⟩

end

/-! ## A report in the band

A session of the sample is given one observation of 65388 bytes: the report has 65536 bytes without
its signature and 65602 with it. -/

namespace LongReport

open SampleSession

def callWith (value : String) : ReportCall :=
  { callAt 9 1700000001 with observations := [{ code := "agent.note", value }] }

def reportWith (value : String) : AgentIntegrityReportV1 := session.nextReport (callWith value) 1

def note : String := String.ofList (List.replicate 65388 'a')

def report : AgentIntegrityReportV1 := reportWith note

def signature : Signature := ⟨[70, 2, 56, 89, 74, 236, 50, 225, 13, 208, 136, 88, 42, 134, 76, 53,
  42, 67, 145, 52, 197, 53, 153, 10, 185, 15, 104, 175, 35, 11, 148, 204, 126, 93, 0, 65, 153, 47,
  115, 49, 225, 8, 187, 45, 28, 215, 151, 151, 12, 168, 142, 242, 255, 5, 89, 42, 183, 39, 18, 232,
  182, 95, 196, 8], rfl⟩

def digest : Digest := ⟨[122, 104, 252, 212, 2, 130, 99, 189, 81, 12, 95, 127, 214, 229, 92, 34,
  135, 17, 194, 50, 145, 33, 38, 246, 250, 137, 123, 69, 243, 208, 67, 26], rfl⟩

def signatureOf (key : VerifyingKey) (message : Bytes) : Signature :=
  if key = agentKey ∧ message = REPORT_DOMAIN ++ encode report.unsigned then signature
  else SampleSession.signatureOf key message

/-- The primitives of the sample, and what they are on the long report. -/
scoped instance crates : Crates where
  sha256 input :=
    if input = encode { report with signature := signature.1 } then digest else digestOf input
  verifyingKey := publicKey
  sign key message := signatureOf (publicKey key) message
  verify key message signature := decide (signatureOf key message = signature)
  verify_sign _ _ := decide_eq_true rfl
  Version := ℕ
  versionOrder := inferInstance
  parseVersion _ := none

theorem len_note : len note = 65388 := by
  have hone : (String.utf8EncodeChar 'a').length = 1 := rfl
  calc
    _ = 65388 * (String.utf8EncodeChar 'a').length := len_replicate 65388 'a'
    _ = _ := by rw [hone, Nat.mul_one]

theorem unsignedSize_reportWith {value : String} (hvalue : len value = 65388) :
    (reportWith value).unsignedSize = 65536 := by
  have hcode : len "agent.note" = 10 := by decide
  have hobservation : observationsSize [{ code := "agent.note", value }] = 65408 := by
    simp only [observationsSize, observationSize, List.map_cons, List.map_nil, List.sum_cons,
      List.sum_nil, hvalue, hcode]
    decide
  calc
    _ = varintSize 1 1 + bodySize 2 (len "session") + varintSize 3 1 + bodySize 4 32 +
        varintSize 5 1700000001 + bodySize 6 (len "build") + bodySize 7 32 +
        observationsSize [{ code := "agent.note", value }] + bodySize 9 32 := rfl
    _ = _ := by
      rw [hobservation]
      decide

theorem overlong_reportWith {value : String} (hvalue : len value = 65388) :
    (reportWith value).Overlong := by
  have hsize := unsignedSize_reportWith hvalue
  refine ⟨rfl, ?_, ?_⟩
  · rw [hsize]
    decide
  · rw [hsize]
    decide

end LongReport

open LongReport in
/-- The session of the sample signs the long report and counts it, and no frame takes it. -/
theorem not_reports_transmissible : ¬ ((∀ (report : AgentIntegrityReportV1) (key : SigningKey),
      ∀ signed, signReport report key = .ok signed → Transmissible signed) ∧
    ∀ (session : AgentSession) (call : ReportCall), (session.createReport call).2 ≠ session →
      ∃ report, (session.createReport call).1 = .ok report ∧ Transmissible report) := by
  rintro ⟨-, h⟩
  have hadmissible : SampleSession.session.Admissible (SampleSession.challengeOf 9) 1700000001 := by
    decide
  have hanswer : ∀ value, len value = 65388 →
      SampleSession.session.OverlongAnswer (callWith value) := by
    intro value hvalue
    exact ⟨hadmissible, (Option.some_ne_none _).symm, 1, rfl, overlong_reportWith hvalue⟩
  exact (advance_transmissible_iff _ _).mp (h SampleSession.session (callWith note))
    (hanswer note len_note)

end CertaelAgent.Session
