import CertaelAgent.Session.Chaining

/-!
# What the signature of a report covers

Signing clears the signature of a report and verification the one of its copy, so both look at the
same bytes, and these determine every other field.

The signature scheme is taken as ideal: a signature that is presented for a message was made by the
owner of the key for that message. `made` is the record of what owners did.
-/

namespace CertaelAgent.Session

open ProtoWire Protocol

section

variable [Crates]

/-- A report that has been signed is accepted and keeps every field but the signature; and if its
signature is all that the owner of the key has made, any report that is accepted under the key
agrees with it in every field but the signature. -/
theorem report_signature_covers {made : VerifyingKey → Bytes → Signature → Prop}
    {presented : Signature → Prop}
    (hideal : ∀ key message signature, presented signature →
      Crates.verify key message signature = true → made key message signature)
    {report signed : AgentIntegrityReportV1} {key : SigningKey}
    (hsigned : signReport report key = .ok signed)
    (honly : ∀ message signature, made (Crates.verifyingKey key) message signature →
      signingBytes REPORT_DOMAIN signed.unsigned = .ok message) :
    verifyReport signed (Crates.verifyingKey key) = .ok () ∧
      { report with signature := signed.signature } = signed ∧
      ∀ other : AgentIntegrityReportV1,
        (∀ signature : Signature, signature.1 = other.signature → presented signature) →
        verifyReport other (Crates.verifyingKey key) = .ok () →
          { other with signature := signed.signature } = signed := by
  have hrestored : ∀ {other : AgentIntegrityReportV1}, other.unsigned = signed.unsigned →
      { other with signature := signed.signature } = signed := by
    intro other h
    have hfields := congrArg (fun report : AgentIntegrityReportV1 =>
      { report with signature := signed.signature }) h
    exact hfields
  refine ⟨verifyReport_of_signReport hsigned, ?_, ?_⟩
  · exact hrestored (unsigned_of_signReport hsigned).symm
  · intro other hpresented hother
    obtain ⟨signature, bytes, hsignature, hbytes, hverify⟩ := signed_of_verifyReport hother
    have hmade := hideal _ _ _ (hpresented signature hsignature) hverify
    exact hrestored (unsigned_eq_of_signingBytes (honly _ _ hmade) hbytes)

end

open SampleSession in
theorem report_signature_covers_sample :
    verifyReport { first with sequence := 2 } agentKey ≠ .ok () := by
  intro hother
  have hideal : ∀ key message signature, signature = firstSignature →
      Crates.verify key message signature = true →
        key = agentKey ∧ signingBytes REPORT_DOMAIN first.unsigned = .ok message := by
    rintro key message signature rfl hverify
    have hsignature : signatureOf key message = firstSignature := of_decide_eq_true hverify
    unfold signatureOf at hsignature
    split_ifs at hsignature with hkey hfirst hsecond hthird
    · exact absurd hsignature (by decide)
    · refine ⟨not_not.mp hkey, ?_⟩
      rw [hfirst]
      decide +kernel
    · exact absurd hsignature (by decide)
    · exact absurd hsignature (by decide)
    · exact absurd hsignature (by decide)
  have hsigned : signReport first seed = .ok first := by decide +kernel
  have hcovers := (@report_signature_covers _
    (fun key message _ => key = agentKey ∧ signingBytes REPORT_DOMAIN first.unsigned = .ok message)
    _ hideal first first seed hsigned fun message signature h => h.2).2.2
    { first with sequence := 2 } (fun signature h => Subtype.ext h) hother
  exact absurd (congrArg (·.sequence) hcovers) (by decide)

end CertaelAgent.Session
