import CertaelAgent.Protocol.Registration
import CertaelAgent.Protocol.Report
import CertaelAgent.Protocol.ShortLived

/-!
# Authenticity

Eight kinds of objects are signed, each over its own domain followed by its bytes, without a length
in between. A domain is a text without NUL followed by NUL, so a signed message tells its kind.

The signature scheme is taken as ideal: a key accepts a message with a signature only if its owner
made that signature for that message. `made` is the record of what owners did.
-/

namespace CertaelAgent.Protocol

open ProtoWire

/-- The kinds that come in an envelope and are verified with a key ring. -/
inductive SignedKind
  | policy
  | launchGrant
  | buildManifest
  | gameRegistration
  | brandingManifest
  | revocation
  | compatibilityManifest
deriving DecidableEq, Repr

inductive Kind
  | envelope (kind : SignedKind)
  | report
deriving DecidableEq, Repr

namespace SignedKind

/-- What an envelope of the kind carries. -/
def Claims : SignedKind → Type
  | policy => AgentPolicyClaimsV1
  | launchGrant => AgentLaunchGrantClaimsV1
  | buildManifest => BuildManifestClaimsV1
  | gameRegistration => GameRegistrationClaimsV1
  | brandingManifest => BrandingManifestClaimsV1
  | revocation => AgentRevocationClaimsV1
  | compatibilityManifest => CompatibilityManifestClaimsV1

instance : (kind : SignedKind) → Message kind.Claims
  | policy => inferInstanceAs (Message AgentPolicyClaimsV1)
  | launchGrant => inferInstanceAs (Message AgentLaunchGrantClaimsV1)
  | buildManifest => inferInstanceAs (Message BuildManifestClaimsV1)
  | gameRegistration => inferInstanceAs (Message GameRegistrationClaimsV1)
  | brandingManifest => inferInstanceAs (Message BrandingManifestClaimsV1)
  | revocation => inferInstanceAs (Message AgentRevocationClaimsV1)
  | compatibilityManifest => inferInstanceAs (Message CompatibilityManifestClaimsV1)

end SignedKind

/-- The text of a kind's domain. -/
def Kind.text : Kind → String
  | envelope .policy => "certael.agent.policy.v1"
  | envelope .launchGrant => "certael.agent.launch.v1"
  | envelope .buildManifest => "certael.agent.build-manifest.v1"
  | envelope .gameRegistration => "certael.agent.registration.v1"
  | envelope .brandingManifest => "certael.agent.branding.v1"
  | envelope .revocation => "certael.agent.revocation.v1"
  | envelope .compatibilityManifest => "certael.compatibility.v1"
  | report => "certael.agent.report.v1"

def Kind.domain (kind : Kind) : Bytes := Protocol.domain kind.text

/-- Before a terminator that neither text contains, the text and what follows can be told apart. -/
theorem append_terminator_inj {α : Type} {terminator : α} : ∀ {xs ys c c' : List α},
    terminator ∉ xs → terminator ∉ ys →
    xs ++ terminator :: c = ys ++ terminator :: c' → xs = ys ∧ c = c' := by
  intro xs
  induction xs with
  | nil =>
    intro ys c c' _ hys h
    cases ys with
    | nil => exact ⟨rfl, (List.cons.inj h).2⟩
    | cons y ys => exact absurd (List.mem_cons.mpr (.inl (List.cons.inj h).1)) hys
  | cons x xs ih =>
    intro ys c c' hxs hys h
    cases ys with
    | nil => exact absurd (List.mem_cons.mpr (.inl (List.cons.inj h).1.symm)) hxs
    | cons y ys =>
      obtain ⟨hhead, htail⟩ := List.cons.inj h
      obtain ⟨hrest, hc⟩ := ih (fun hmem => hxs (List.mem_cons_of_mem _ hmem))
        (fun hmem => hys (List.mem_cons_of_mem _ hmem)) htail
      exact ⟨by rw [hhead, hrest], hc⟩

theorem Kind.zero_notMem_text (kind : Kind) : (0 : UInt8) ∉ Field.utf8 kind.text := by
  rcases kind with kind | _
  · cases kind <;> decide +kernel
  · decide +kernel

theorem Kind.text_injective {kind other : Kind} (h : kind.text = other.text) : kind = other := by
  rcases kind with kind | _ <;> rcases other with other | _
  · cases kind <;> cases other <;> first | rfl | exact absurd h (by decide +kernel)
  · cases kind <;> exact absurd h (by decide +kernel)
  · cases other <;> exact absurd h (by decide +kernel)
  · rfl

theorem utf8_injective {value other : String} (h : Field.utf8 value = Field.utf8 other) :
    value = other := by
  have hvalue := Field.fromUtf8_utf8 value
  rw [h, Field.fromUtf8_utf8] at hvalue
  exact (Option.some.inj hvalue).symm

theorem Kind.domain_append_inj {kind other : Kind} {bytes bytes' : Bytes}
    (h : kind.domain ++ bytes = other.domain ++ bytes') : kind = other ∧ bytes = bytes' := by
  unfold Kind.domain Protocol.domain at h
  rw [List.append_assoc, List.append_assoc] at h
  obtain ⟨htext, hbytes⟩ :=
    append_terminator_inj kind.zero_notMem_text other.zero_notMem_text h
  exact ⟨Kind.text_injective (utf8_injective htext), hbytes⟩

section

variable [Crates]

/-- The verifier of each kind. -/
def SignedKind.verify : (kind : SignedKind) → SignedEnvelope → VerificationKeyRing → Int64 →
    Except ProtocolError kind.Claims
  | policy => verifyPolicy
  | launchGrant => verifyLaunchGrant
  | buildManifest => verifyBuildManifest
  | gameRegistration => verifyGameRegistration
  | brandingManifest => verifyBrandingManifest
  | revocation => verifyRevocation
  | compatibilityManifest => verifyCompatibilityManifest

/-- The checks of each kind in front of the signature. -/
def SignedKind.validate : (kind : SignedKind) → kind.Claims → Int64 → Except ProtocolError Unit
  | policy => validatePolicy
  | launchGrant => validateLaunchGrant
  | buildManifest => validateBuildManifest
  | gameRegistration => validateGameRegistration
  | brandingManifest => validateBrandingManifest
  | revocation => validateRevocation
  | compatibilityManifest => validateCompatibilityManifest

theorem SignedKind.verify_eq (kind : SignedKind) (signed : SignedEnvelope)
    (keys : VerificationKeyRing) (nowUnix : Int64) :
    kind.verify signed keys nowUnix =
      verifySigned kind.Claims (Kind.envelope kind).domain kind.validate signed keys nowUnix := by
  cases kind <;> rfl

/-- Some input with this signature is accepted as an object of the kind under this key. -/
def Kind.Verifies (key : VerifyingKey) (signature : Signature) : Kind → Prop
  | envelope kind => ∃ signed keys nowUnix claims, kind.verify signed keys nowUnix = .ok claims ∧
      signed.signature = signature.1 ∧
      ∃ entry ∈ keys.keys, entry.keyId = signed.keyId ∧ entry.key = key
  | report => ∃ report, verifyReport report key = .ok () ∧ report.signature = signature.1

section

variable {made : VerifyingKey → Bytes → Signature → Prop}
  (hideal : ∀ key message signature, Crates.verify key message signature = true →
    made key message signature)

include hideal

theorem made_of_verify {kind : SignedKind} {signed : SignedEnvelope} {keys : VerificationKeyRing}
    {nowUnix : Int64} {claims : kind.Claims} (h : kind.verify signed keys nowUnix = .ok claims) :
    IsCanonical claims signed.claims ∧ ∃ entry ∈ keys.keys, entry.keyId = signed.keyId ∧
      (∀ other ∈ keys.keys, other.keyId = signed.keyId → other = entry) ∧
      entry.Usable nowUnix ∧ ∃ signature : Signature, signature.1 = signed.signature ∧
        made entry.key ((Kind.envelope kind).domain ++ signed.claims) signature := by
  rw [kind.verify_eq, verifySigned_eq_ok_iff] at h
  obtain ⟨hcanonical, -, entry, hmem, hid, husable, signature, hsignature, hverify⟩ := h
  refine ⟨hcanonical, entry, hmem, hid, ?_, husable, signature, hsignature,
    hideal _ _ _ hverify⟩
  intro other hother hotherId
  exact List.inj_on_of_nodup_map keys.distinctIds hother hmem (hotherId.trans hid.symm)

theorem made_of_verifyReport {report : AgentIntegrityReportV1} {key : VerifyingKey}
    (h : verifyReport report key = .ok ()) : ∃ signature : Signature,
      signature.1 = report.signature ∧
        made key (Kind.report.domain ++ encode report.unsigned) signature := by
  obtain ⟨signature, bytes, hsignature, hbytes, hverify⟩ := signed_of_verifyReport h
  obtain ⟨-, rfl⟩ := signingBytes_eq_ok_iff.mp hbytes
  exact ⟨signature, hsignature, hideal _ _ _ hverify⟩

/-- Whatever is accepted with a signature, the owner made that signature for an object of that
kind. -/
theorem made_of_verifies {kind : Kind} {key : VerifyingKey} {signature : Signature}
    (h : kind.Verifies key signature) :
    ∃ bytes, made key (kind.domain ++ bytes) signature := by
  cases kind with
  | envelope kind =>
    obtain ⟨signed, keys, nowUnix, claims, hok, hsignature, entry, hmem, hid, rfl⟩ := h
    obtain ⟨-, found, -, -, hunique, -, signature', hsignature', hmade⟩ :=
      made_of_verify hideal hok
    obtain rfl := hunique entry hmem hid
    obtain rfl : signature' = signature := Subtype.ext (hsignature'.trans hsignature)
    exact ⟨_, hmade⟩
  | report =>
    obtain ⟨report, hok, hsignature⟩ := h
    obtain ⟨signature', hsignature', hmade⟩ := made_of_verifyReport hideal hok
    obtain rfl : signature' = signature := Subtype.ext (hsignature'.trans hsignature)
    exact ⟨_, hmade⟩

end

/-! ### The order of the keys -/

omit [Crates] in
theorem resolve_eq_of_perm {ring ring' : VerificationKeyRing} (h : ring.keys.Perm ring'.keys)
    (keyId : String) (nowUnix : Int64) : ring.resolve keyId nowUnix = ring'.resolve keyId nowUnix := by
  have hfind : (ring.keys.find? fun candidate => candidate.keyId == keyId) =
      ring'.keys.find? fun candidate => candidate.keyId == keyId := by
    apply Option.ext
    intro key
    rw [ring.find_eq_some_iff, ring'.find_eq_some_iff, h.mem_iff]
  unfold VerificationKeyRing.resolve
  rw [hfind]

theorem verify_eq_of_perm {ring ring' : VerificationKeyRing} (h : ring.keys.Perm ring'.keys)
    (kind : SignedKind) (signed : SignedEnvelope) (nowUnix : Int64) :
    kind.verify signed ring nowUnix = kind.verify signed ring' nowUnix := by
  rw [kind.verify_eq, kind.verify_eq]
  unfold verifySigned
  simp only [resolve_eq_of_perm h]

/-- Verification with a ring made from these keys, failures of the construction included. -/
def SignedKind.verifyWith (kind : SignedKind) (signed : SignedEnvelope)
    (keys : List VerificationKey) (nowUnix : Int64) : Except ProtocolError kind.Claims := do
  let ring ← VerificationKeyRing.new keys
  kind.verify signed ring nowUnix

theorem verifyWith_eq_of_perm {keys keys' : List VerificationKey} (h : keys.Perm keys')
    (kind : SignedKind) (signed : SignedEnvelope) (nowUnix : Int64) :
    kind.verifyWith signed keys nowUnix = kind.verifyWith signed keys' nowUnix := by
  have hbad : (keys = [] ∨ ∃ key ∈ keys, ¬ key.WellFormed) ↔
      (keys' = [] ∨ ∃ key ∈ keys', ¬ key.WellFormed) := by
    simp only [h.mem_iff]
    rw [← List.length_eq_zero_iff, ← List.length_eq_zero_iff, h.length_eq]
  have hdistinct := (h.map VerificationKey.keyId).nodup_iff
  unfold SignedKind.verifyWith VerificationKeyRing.new
  by_cases hkeys : keys = [] ∨ ∃ key ∈ keys, ¬ key.WellFormed
  · rw [dif_pos hkeys, dif_pos (hbad.mp hkeys)]
  · rw [dif_neg hkeys, dif_neg (mt hbad.mpr hkeys)]
    by_cases hnodup : (keys.map VerificationKey.keyId).Nodup
    · rw [dif_pos hnodup, dif_pos (hdistinct.mp hnodup)]
      exact verify_eq_of_perm h kind signed nowUnix
    · rw [dif_neg hnodup, dif_neg (mt hdistinct.mpr hnodup)]

/-- Authenticity without confusion of kinds. An accepted object was signed, in the domain of its
kind, by the owner of the one usable key it names; no message is of two kinds, and a signature that
was only ever made for objects of one kind is accepted for no other; and the order in which keys are
given does not matter. -/
theorem authentic {made : VerifyingKey → Bytes → Signature → Prop}
    (hideal : ∀ key message signature, Crates.verify key message signature = true →
      made key message signature) :
    (∀ (kind : SignedKind) signed (keys : VerificationKeyRing) nowUnix claims,
      kind.verify signed keys nowUnix = .ok claims →
        IsCanonical claims signed.claims ∧ ∃ entry ∈ keys.keys, entry.keyId = signed.keyId ∧
          (∀ other ∈ keys.keys, other.keyId = signed.keyId → other = entry) ∧
          entry.Usable nowUnix ∧ ∃ signature : Signature, signature.1 = signed.signature ∧
            made entry.key ((Kind.envelope kind).domain ++ signed.claims) signature) ∧
    (∀ (report : AgentIntegrityReportV1) key, verifyReport report key = .ok () →
      ∃ signature : Signature, signature.1 = report.signature ∧
        made key (Kind.report.domain ++ encode report.unsigned) signature) ∧
    (∀ (kind other : Kind) bytes bytes', kind.domain ++ bytes = other.domain ++ bytes' →
      kind = other ∧ bytes = bytes') ∧
    (∀ (kind other : Kind) key signature, kind ≠ other →
      (∀ message, made key message signature → ∃ bytes, message = other.domain ++ bytes) →
        ¬ kind.Verifies key signature) ∧
    (∀ (kind : SignedKind) signed keys keys' nowUnix, keys.Perm keys' →
      kind.verifyWith signed keys nowUnix = kind.verifyWith signed keys' nowUnix) := by
  refine ⟨?_, ?_, fun _ _ _ _ => Kind.domain_append_inj, ?_, ?_⟩
  · intro kind signed keys nowUnix claims h
    exact made_of_verify hideal h
  · intro report key h
    exact made_of_verifyReport hideal h
  · intro kind other key signature hne honly h
    obtain ⟨bytes, hmade⟩ := made_of_verifies hideal h
    obtain ⟨bytes', hmessage⟩ := honly _ hmade
    exact hne (Kind.domain_append_inj hmessage).1
  · intro kind signed keys keys' nowUnix h
    exact verifyWith_eq_of_perm h kind signed nowUnix

end

namespace SampleGrant

def serverKey : VerifyingKey := publicKeyOfOnes

def grantSignature : Signature := ⟨[50, 138, 103, 135, 224, 31, 161, 23, 72, 63, 210, 149, 92, 151,
  136, 73, 35, 41, 230, 233, 118, 15, 107, 243, 5, 10, 255, 78, 162, 129, 26, 250, 72, 248, 99, 123,
  197, 90, 99, 172, 141, 101, 149, 125, 76, 95, 59, 19, 253, 92, 200, 221, 95, 73, 236, 169, 183, 29,
  139, 245, 105, 91, 128, 3], rfl⟩

def grant : AgentLaunchGrantClaimsV1 := Sample.grantFor 990 1090

/-- The signature of the sample; every other message gets zeros. -/
def signatureOf (key : VerifyingKey) (message : Bytes) : Signature :=
  if key = serverKey ∧ message = LAUNCH_DOMAIN ++ encode grant then grantSignature
  else filled 64 0

scoped instance crates : Crates where
  sha256 _ := zeroDigest
  verifyingKey seed := if seed = filled 32 1 then serverKey
    else seed
  sign seed message := signatureOf (if seed = filled 32 1
    then serverKey else seed) message
  verify key message signature := decide (signatureOf key message = signature)
  verify_sign _ _ := decide_eq_true rfl
  Version := ℕ
  versionOrder := inferInstance
  parseVersion _ := none

def ring : VerificationKeyRing where
  keys := [{ keyId := "key", key := serverKey, notBeforeUnix := 0, notAfterUnix := 10000,
             revoked := false }]
  nonempty := by decide
  wellFormed := by decide
  distinctIds := by decide

def signedGrant : SignedAgentLaunchGrantV1 where
  claims := encode grant
  signature := grantSignature.1
  keyId := "key"

theorem verify_signedGrant : verifyLaunchGrant signedGrant ring 1000 = .ok grant := by
  apply verifySigned_eq_ok_iff.mpr
  refine ⟨⟨rfl, by decide +kernel, by decide +kernel⟩, by decide +kernel, ?_⟩
  exact ⟨_, List.mem_singleton_self _, rfl, ⟨rfl, by decide, by decide⟩, grantSignature, rfl,
    by decide +kernel⟩

theorem eq_of_signatureOf {key : VerifyingKey} {message : Bytes}
    (h : signatureOf key message = grantSignature) :
    message = LAUNCH_DOMAIN ++ encode grant := by
  unfold signatureOf at h
  split_ifs at h with hsigned
  · exact hsigned.2
  · exact absurd h (by decide)

end SampleGrant

open SampleGrant in
theorem authentic_sample :
    (Kind.envelope .launchGrant).Verifies serverKey grantSignature ∧
      ¬ (Kind.envelope .revocation).Verifies serverKey grantSignature := by
  constructor
  · exact ⟨signedGrant, ring, 1000, grant, verify_signedGrant, rfl, _, List.mem_singleton_self _,
      rfl, rfl⟩
  · have hideal : ∀ key message signature, Crates.verify key message signature = true →
        signatureOf key message = signature := fun _ _ _ => of_decide_eq_true
    apply (authentic hideal).2.2.2.1 (.envelope .revocation) (.envelope .launchGrant) _ _ (by decide)
    intro message hmade
    exact ⟨encode grant, eq_of_signatureOf hmade⟩

end CertaelAgent.Protocol
