import CertaelAgent.Protocol.Validation

/-!
# Key rings and signed claims

Every signed object is checked by the same three steps: its claims are decoded canonically, the
kind's validator accepts them at the given time, and the ring key named by the envelope verifies
the signature over the kind's domain followed by the claims.
-/

namespace CertaelAgent.Protocol

open ProtoWire

variable [Crates]

/-- A domain is a text followed by a NUL byte. -/
def domain (text : String) : Bytes := Field.utf8 text ++ [0]

def REPORT_DOMAIN : Bytes := domain "certael.agent.report.v1"
def LAUNCH_DOMAIN : Bytes := domain "certael.agent.launch.v1"
def POLICY_DOMAIN : Bytes := domain "certael.agent.policy.v1"
def BUILD_MANIFEST_DOMAIN : Bytes := domain "certael.agent.build-manifest.v1"
def REVOCATION_DOMAIN : Bytes := domain "certael.agent.revocation.v1"

structure VerificationKey where
  keyId : String
  key : VerifyingKey
  notBeforeUnix : Int64
  notAfterUnix : Int64
  revoked : Bool
deriving DecidableEq

/-- The checks of `VerificationKeyRing::new` on a single key. -/
def VerificationKey.WellFormed (key : VerificationKey) : Prop :=
  key.keyId ≠ "" ∧ len key.keyId ≤ 128 ∧ key.notBeforeUnix < key.notAfterUnix

instance (key : VerificationKey) : Decidable key.WellFormed :=
  inferInstanceAs (Decidable (_ ∧ _ ∧ _))

/-- A key that may be used at the given time. -/
def VerificationKey.Usable (key : VerificationKey) (nowUnix : Int64) : Prop :=
  key.revoked = false ∧ key.notBeforeUnix ≤ nowUnix ∧ nowUnix < key.notAfterUnix

/-- The field of a ring is private, so every ring has passed the checks of its constructor. -/
structure VerificationKeyRing where
  keys : List VerificationKey
  nonempty : keys ≠ []
  wellFormed : ∀ key ∈ keys, key.WellFormed
  distinctIds : (keys.map VerificationKey.keyId).Nodup

def VerificationKeyRing.new (keys : List VerificationKey) :
    Except ProtocolError VerificationKeyRing :=
  if h : keys = [] ∨ ∃ key ∈ keys, ¬ key.WellFormed then
    .error (.invalidField "verification_keys")
  else if hd : (keys.map VerificationKey.keyId).Nodup then
    .ok ⟨keys, fun he => h (.inl he),
      fun key hk => not_not.mp fun hw => h (.inr ⟨key, hk, hw⟩), hd⟩
  else .error (.invalidField "duplicate_key_id")

def VerificationKeyRing.resolve (ring : VerificationKeyRing) (keyId : String) (nowUnix : Int64) :
    Except ProtocolError VerifyingKey := do
  let key ← Except.ofOption .unknownKey (ring.keys.find? fun candidate => candidate.keyId == keyId)
  if key.revoked ∨ nowUnix < key.notBeforeUnix ∨ key.notAfterUnix ≤ nowUnix then .error .unknownKey
  else .ok key.key

omit [Crates] in
theorem VerificationKeyRing.find_eq_some_iff (ring : VerificationKeyRing) {keyId : String}
    {key : VerificationKey} :
    (ring.keys.find? fun candidate => candidate.keyId == keyId) = some key ↔
      key ∈ ring.keys ∧ key.keyId = keyId := by
  constructor
  · intro h
    exact ⟨List.mem_of_find?_eq_some h, by simpa using List.find?_some h⟩
  · rintro ⟨hmem, rfl⟩
    obtain ⟨found, hfound⟩ : ∃ found,
        (ring.keys.find? fun candidate => candidate.keyId == key.keyId) = some found :=
      Option.isSome_iff_exists.mp (List.find?_isSome.mpr ⟨key, hmem, by simp⟩)
    have hid : found.keyId = key.keyId := by simpa using List.find?_some hfound
    rw [hfound, List.inj_on_of_nodup_map ring.distinctIds (List.mem_of_find?_eq_some hfound) hmem hid]

omit [Crates] in
theorem VerificationKeyRing.resolve_eq_ok_iff (ring : VerificationKeyRing) {keyId : String}
    {nowUnix : Int64} {vk : VerifyingKey} :
    ring.resolve keyId nowUnix = .ok vk ↔
      ∃ key ∈ ring.keys, key.keyId = keyId ∧ key.Usable nowUnix ∧ key.key = vk := by
  unfold VerificationKeyRing.resolve
  rw [Except.bind_eq_ok_iff]
  constructor
  · rintro ⟨key, hfind, h⟩
    rw [Except.ofOption_eq_ok_iff, ring.find_eq_some_iff] at hfind
    split_ifs at h with hbad
    simp only [not_or, Bool.not_eq_true, Int64.not_lt, Int64.not_le] at hbad
    exact ⟨key, hfind.1, hfind.2, hbad, Except.ok.inj h⟩
  · rintro ⟨key, hmem, hid, ⟨hrev, hnb, hna⟩, rfl⟩
    refine ⟨key, Except.ofOption_eq_ok_iff.mpr (ring.find_eq_some_iff.mpr ⟨hmem, hid⟩), ?_⟩
    rw [if_neg]
    simp only [not_or, Bool.not_eq_true, Int64.not_lt, Int64.not_le]
    exact ⟨hrev, hnb, hna⟩

def verifySignedBytes (domain claims signature : Bytes) (key : VerifyingKey) :
    Except ProtocolError Unit := do
  let signature ← Except.ofOption .invalidSignature (Signature.fromSlice signature)
  Except.require .invalidSignature (Crates.verify key (domain ++ claims) signature = true)

/-- The signature bytes are a signature of the message under the key. -/
def Signs (key : VerifyingKey) (message signature : Bytes) : Prop :=
  ∃ s : Signature, s.1 = signature ∧ Crates.verify key message s = true

theorem verifySignedBytes_eq_ok_iff {domain claims signature : Bytes} {key : VerifyingKey}
    {u : Unit} :
    verifySignedBytes domain claims signature key = .ok u ↔ Signs key (domain ++ claims) signature := by
  unfold verifySignedBytes Signs
  rw [Except.bind_eq_ok_iff]
  constructor
  · rintro ⟨s, hs, h⟩
    rw [Except.ofOption_eq_ok_iff, Signature.fromSlice] at hs
    split_ifs at hs with hlen
    exact ⟨s, by rw [← Option.some.inj hs], Except.require_eq_ok_iff.mp h⟩
  · rintro ⟨s, rfl, h⟩
    exact ⟨s, Except.ofOption_eq_ok_iff.mpr (Signature.fromSlice_coe s),
      Except.require_eq_ok_iff.mpr h⟩

/-- The common shape of the verifiers; each kind passes its own domain and validator. -/
def verifySigned (M : Type) [Message M] (domain : Bytes)
    (validate : M → Int64 → Except ProtocolError Unit) (signed : SignedEnvelope)
    (keys : VerificationKeyRing) (nowUnix : Int64) : Except ProtocolError M := do
  let claims ← decodeCanonical M signed.claims
  validate claims nowUnix
  let key ← keys.resolve signed.keyId nowUnix
  verifySignedBytes domain signed.claims signed.signature key
  .ok claims

def verifyPolicy (signed : SignedAgentPolicyV1) (keys : VerificationKeyRing) (nowUnix : Int64) :
    Except ProtocolError AgentPolicyClaimsV1 :=
  verifySigned AgentPolicyClaimsV1 POLICY_DOMAIN validatePolicy signed keys nowUnix

def verifyLaunchGrant (signed : SignedAgentLaunchGrantV1) (keys : VerificationKeyRing)
    (nowUnix : Int64) : Except ProtocolError AgentLaunchGrantClaimsV1 :=
  verifySigned AgentLaunchGrantClaimsV1 LAUNCH_DOMAIN validateLaunchGrant signed keys nowUnix

def verifyBuildManifest (signed : SignedBuildManifestV1) (keys : VerificationKeyRing)
    (nowUnix : Int64) : Except ProtocolError BuildManifestClaimsV1 :=
  verifySigned BuildManifestClaimsV1 BUILD_MANIFEST_DOMAIN validateBuildManifest signed keys nowUnix

def verifyRevocation (signed : SignedAgentRevocationV1) (keys : VerificationKeyRing)
    (nowUnix : Int64) : Except ProtocolError AgentRevocationClaimsV1 :=
  verifySigned AgentRevocationClaimsV1 REVOCATION_DOMAIN validateRevocation signed keys nowUnix

/-- The envelope is signed, in a domain, by a ring key that is usable at the given time. -/
def SignedByRing (domain : Bytes) (signed : SignedEnvelope) (keys : VerificationKeyRing)
    (nowUnix : Int64) : Prop :=
  ∃ key ∈ keys.keys, key.keyId = signed.keyId ∧ key.Usable nowUnix ∧
    Signs key.key (domain ++ signed.claims) signed.signature

theorem verifySigned_eq_ok_iff {M : Type} [Message M] {domain : Bytes}
    {validate : M → Int64 → Except ProtocolError Unit} {signed : SignedEnvelope}
    {keys : VerificationKeyRing} {nowUnix : Int64} {claims : M} :
    verifySigned M domain validate signed keys nowUnix = .ok claims ↔
      IsCanonical claims signed.claims ∧ validate claims nowUnix = .ok () ∧
        SignedByRing domain signed keys nowUnix := by
  unfold verifySigned
  simp only [Except.bind_eq_ok_iff, decodeCanonical_eq_ok_iff, keys.resolve_eq_ok_iff,
    verifySignedBytes_eq_ok_iff, Except.ok.injEq]
  constructor
  · rintro ⟨c, hc, _, hv, _, ⟨key, hmem, hid, huse, rfl⟩, _, hs, rfl⟩
    exact ⟨hc, hv, key, hmem, hid, huse, hs⟩
  · rintro ⟨hc, hv, key, hmem, hid, huse, hs⟩
    exact ⟨claims, hc, (), hv, key.key, ⟨key, hmem, hid, huse, rfl⟩, (), hs, rfl⟩

end CertaelAgent.Protocol
