import CertaelAgent.Protocol.Signatures

/-!
# Launch bundles

A launch bundle carries three independently signed objects: the Agent policy, the launch grant
and the build manifest. Verification decodes each of them, binds them to each other, to this
Agent's key and build, and last compares the running version with the policy's minimum.
-/

namespace CertaelAgent.Protocol

open ProtoWire

variable [Crates]

/-- Failures inside a component of the bundle are wrapped with the component's name. -/
def launchComponentError (component : String) (source : ProtocolError) : ProtocolError :=
  .launchBundleComponent component source

omit [Crates] in
theorem launchComponentError_ne_invalidField (component : String) (source : ProtocolError)
    (field : String) : launchComponentError component source ≠ .invalidField field :=
  nofun

/-- The eleven comparisons that tie the three claims together. -/
def LaunchBinding (bundle : AgentLaunchBundleV1) (policy : AgentPolicyClaimsV1)
    (grant : AgentLaunchGrantClaimsV1) (manifest : BuildManifestClaimsV1)
    (expectedAgentPublicKey : VerifyingKey) (expectedBuildId : String) : Prop :=
  grant.agentPublicKey = expectedAgentPublicKey.1 ∧
    grant.buildId = expectedBuildId ∧
    policy.tenantId = grant.tenantId ∧
    policy.gameId = grant.gameId ∧
    policy.environmentId = grant.environmentId ∧
    grant.policyDigest = (Crates.sha256 bundle.signedPolicy).1 ∧
    grant.buildManifestDigest = (Crates.sha256 bundle.signedBuildManifest).1 ∧
    manifest.tenantId = grant.tenantId ∧
    manifest.gameId = grant.gameId ∧
    manifest.environmentId = grant.environmentId ∧
    manifest.buildId = grant.buildId

instance (bundle : AgentLaunchBundleV1) (policy : AgentPolicyClaimsV1)
    (grant : AgentLaunchGrantClaimsV1) (manifest : BuildManifestClaimsV1) (key : VerifyingKey)
    (buildId : String) : Decidable (LaunchBinding bundle policy grant manifest key buildId) :=
  inferInstanceAs (Decidable (_ ∧ _ ∧ _ ∧ _ ∧ _ ∧ _ ∧ _ ∧ _ ∧ _ ∧ _ ∧ _))

/-- The fields that an accepted bundle hands to the session. -/
def boundAgentLaunch (policy : AgentPolicyClaimsV1) (grant : AgentLaunchGrantClaimsV1)
    (manifest : BuildManifestClaimsV1) (manifestDigest : Digest) : BoundAgentLaunch where
  sessionId := grant.grantId
  tenantId := grant.tenantId
  gameId := grant.gameId
  environmentId := grant.environmentId
  playerSubject := grant.playerSubject
  matchId := grant.matchId
  buildId := grant.buildId
  authoritativeServerId := grant.authoritativeServerId
  buildManifest := manifest
  buildManifestDigest := manifestDigest.1
  heartbeatSeconds := policy.heartbeatSeconds
  reportSeconds := policy.reportSeconds
  disconnectGraceSeconds := policy.disconnectGraceSeconds
  policyExpiresAtUnix := policy.expiresAtUnix
  grantExpiresAtUnix := grant.expiresAtUnix

def verifyLaunchBundle (input : Bytes) (keys : VerificationKeyRing) (nowUnix : Int64)
    (expectedAgentPublicKey : VerifyingKey) (expectedBuildId currentAgentVersion : String) :
    Except ProtocolError BoundAgentLaunch := do
  let bundle ← decodeCanonical AgentLaunchBundleV1 input
  let policyEnvelope ← (decodeCanonical SignedAgentPolicyV1 bundle.signedPolicy).mapError
    (launchComponentError "signed_policy")
  let grantEnvelope ← (decodeCanonical SignedAgentLaunchGrantV1 bundle.signedLaunchGrant).mapError
    (launchComponentError "signed_launch_grant")
  let manifestEnvelope ←
    (decodeCanonical SignedBuildManifestV1 bundle.signedBuildManifest).mapError
      (launchComponentError "signed_build_manifest")
  let policy ← (verifyPolicy policyEnvelope keys nowUnix).mapError
    (launchComponentError "policy_claims")
  let grant ← (verifyLaunchGrant grantEnvelope keys nowUnix).mapError
    (launchComponentError "launch_grant_claims")
  let manifest ← (verifyBuildManifest manifestEnvelope keys nowUnix).mapError
    (launchComponentError "build_manifest_claims")
  let manifestDigest := Crates.sha256 bundle.signedBuildManifest
  let minimum ← Except.ofOption (.invalidField "minimum_agent_version")
    (Crates.parseVersion policy.minimumAgentVersion)
  let current ← Except.ofOption (.invalidField "current_agent_version")
    (Crates.parseVersion currentAgentVersion)
  if ¬ LaunchBinding bundle policy grant manifest expectedAgentPublicKey expectedBuildId then
    .error (.invalidField "launch_binding")
  else if current < minimum then .error (.invalidField "agent_update_required")
  else .ok (boundAgentLaunch policy grant manifest manifestDigest)

/-- What the verifier has in hand when it reaches the comparisons: the decoded bundle, its three
claims, and the two versions. -/
structure LaunchEvidence where
  bundle : AgentLaunchBundleV1
  policyEnvelope : SignedAgentPolicyV1
  grantEnvelope : SignedAgentLaunchGrantV1
  manifestEnvelope : SignedBuildManifestV1
  policy : AgentPolicyClaimsV1
  grant : AgentLaunchGrantClaimsV1
  manifest : BuildManifestClaimsV1
  minimum : Crates.Version
  current : Crates.Version

/-- Every part of the evidence is the canonical reading of the input, its claims are valid at the
given time and signed in their own domain by a usable ring key, and both versions parse. -/
structure LaunchEvidence.Authentic (evidence : LaunchEvidence) (input : Bytes)
    (keys : VerificationKeyRing) (nowUnix : Int64) (currentAgentVersion : String) : Prop where
  bundle : IsCanonical evidence.bundle input
  policyEnvelope : IsCanonical evidence.policyEnvelope evidence.bundle.signedPolicy
  grantEnvelope : IsCanonical evidence.grantEnvelope evidence.bundle.signedLaunchGrant
  manifestEnvelope : IsCanonical evidence.manifestEnvelope evidence.bundle.signedBuildManifest
  policyClaims : IsCanonical evidence.policy evidence.policyEnvelope.claims
  policyValid : validatePolicy evidence.policy nowUnix = .ok ()
  policySigned : SignedByRing POLICY_DOMAIN evidence.policyEnvelope keys nowUnix
  grantClaims : IsCanonical evidence.grant evidence.grantEnvelope.claims
  grantValid : validateLaunchGrant evidence.grant nowUnix = .ok ()
  grantSigned : SignedByRing LAUNCH_DOMAIN evidence.grantEnvelope keys nowUnix
  manifestClaims : IsCanonical evidence.manifest evidence.manifestEnvelope.claims
  manifestValid : validateBuildManifest evidence.manifest nowUnix = .ok ()
  manifestSigned : SignedByRing BUILD_MANIFEST_DOMAIN evidence.manifestEnvelope keys nowUnix
  minimumParses : Crates.parseVersion evidence.policy.minimumAgentVersion = some evidence.minimum
  currentParses : Crates.parseVersion currentAgentVersion = some evidence.current

/-- The evidence of an input is bound to this Agent's key and build. -/
def LaunchEvidence.Bound (evidence : LaunchEvidence) (expectedAgentPublicKey : VerifyingKey)
    (expectedBuildId : String) : Prop :=
  LaunchBinding evidence.bundle evidence.policy evidence.grant evidence.manifest
    expectedAgentPublicKey expectedBuildId

instance (evidence : LaunchEvidence) (key : VerifyingKey) (buildId : String) :
    Decidable (evidence.Bound key buildId) :=
  inferInstanceAs (Decidable (LaunchBinding ..))

def LaunchEvidence.launch (evidence : LaunchEvidence) : BoundAgentLaunch :=
  boundAgentLaunch evidence.policy evidence.grant evidence.manifest
    (Crates.sha256 evidence.bundle.signedBuildManifest)

/-- The comparisons at the end of the verifier. -/
def LaunchEvidence.conclude (evidence : LaunchEvidence) (expectedAgentPublicKey : VerifyingKey)
    (expectedBuildId : String) : Except ProtocolError BoundAgentLaunch :=
  if ¬ evidence.Bound expectedAgentPublicKey expectedBuildId then
    .error (.invalidField "launch_binding")
  else if evidence.current < evidence.minimum then .error (.invalidField "agent_update_required")
  else .ok evidence.launch

variable {input : Bytes} {keys : VerificationKeyRing} {nowUnix : Int64} {key : VerifyingKey}
  {buildId currentAgentVersion : String}

theorem LaunchEvidence.Authentic.verify_eq {evidence : LaunchEvidence}
    (h : evidence.Authentic input keys nowUnix currentAgentVersion) :
    verifyLaunchBundle input keys nowUnix key buildId currentAgentVersion =
      evidence.conclude key buildId := by
  have hpolicy : verifyPolicy evidence.policyEnvelope keys nowUnix = .ok evidence.policy :=
    verifySigned_eq_ok_iff.mpr ⟨h.policyClaims, h.policyValid, h.policySigned⟩
  have hgrant : verifyLaunchGrant evidence.grantEnvelope keys nowUnix = .ok evidence.grant :=
    verifySigned_eq_ok_iff.mpr ⟨h.grantClaims, h.grantValid, h.grantSigned⟩
  have hmanifest : verifyBuildManifest evidence.manifestEnvelope keys nowUnix =
      .ok evidence.manifest :=
    verifySigned_eq_ok_iff.mpr ⟨h.manifestClaims, h.manifestValid, h.manifestSigned⟩
  unfold verifyLaunchBundle
  rw [decodeCanonical_eq_ok_iff.mpr h.bundle]
  simp only [Except.ok_bind]
  rw [decodeCanonical_eq_ok_iff.mpr h.policyEnvelope,
    decodeCanonical_eq_ok_iff.mpr h.grantEnvelope,
    decodeCanonical_eq_ok_iff.mpr h.manifestEnvelope]
  simp only [Except.mapError, Except.ok_bind, hpolicy, hgrant, hmanifest]
  rw [h.minimumParses, h.currentParses]
  rfl

/-- Where the comparisons are reached the evidence is authentic; otherwise the failure is one of
the earlier ones. -/
theorem verifyLaunchBundle_cases (input : Bytes) (keys : VerificationKeyRing) (nowUnix : Int64)
    (key : VerifyingKey) (buildId currentAgentVersion : String) :
    (∃ evidence : LaunchEvidence, evidence.Authentic input keys nowUnix currentAgentVersion) ∨
      ∃ e, verifyLaunchBundle input keys nowUnix key buildId currentAgentVersion = .error e ∧
        e ≠ .invalidField "agent_update_required" := by
  unfold verifyLaunchBundle
  cases hbundle : decodeCanonical AgentLaunchBundleV1 input with
  | error e =>
    refine .inr ⟨e, rfl, ?_⟩
    rintro rfl
    exact decodeCanonical_ne_invalidField _ _ hbundle
  | ok bundle =>
  simp only [Except.ok_bind]
  cases hpe : decodeCanonical SignedAgentPolicyV1 bundle.signedPolicy with
  | error e => exact .inr ⟨_, rfl, launchComponentError_ne_invalidField _ _ _⟩
  | ok policyEnvelope =>
  cases hge : decodeCanonical SignedAgentLaunchGrantV1 bundle.signedLaunchGrant with
  | error e => exact .inr ⟨_, rfl, launchComponentError_ne_invalidField _ _ _⟩
  | ok grantEnvelope =>
  cases hme : decodeCanonical SignedBuildManifestV1 bundle.signedBuildManifest with
  | error e => exact .inr ⟨_, rfl, launchComponentError_ne_invalidField _ _ _⟩
  | ok manifestEnvelope =>
  simp only [Except.mapError, Except.ok_bind]
  cases hp : verifyPolicy policyEnvelope keys nowUnix with
  | error e => exact .inr ⟨_, rfl, launchComponentError_ne_invalidField _ _ _⟩
  | ok policy =>
  cases hg : verifyLaunchGrant grantEnvelope keys nowUnix with
  | error e => exact .inr ⟨_, rfl, launchComponentError_ne_invalidField _ _ _⟩
  | ok grant =>
  cases hm : verifyBuildManifest manifestEnvelope keys nowUnix with
  | error e => exact .inr ⟨_, rfl, launchComponentError_ne_invalidField _ _ _⟩
  | ok manifest =>
  simp only [Except.ok_bind]
  cases hmin : Crates.parseVersion policy.minimumAgentVersion with
  | none => exact .inr ⟨.invalidField "minimum_agent_version", rfl, by decide⟩
  | some minimum =>
  cases hcur : Crates.parseVersion currentAgentVersion with
  | none => exact .inr ⟨.invalidField "current_agent_version", rfl, by decide⟩
  | some current =>
  obtain ⟨hpc, hpv, hps⟩ := verifySigned_eq_ok_iff.mp hp
  obtain ⟨hgc, hgv, hgs⟩ := verifySigned_eq_ok_iff.mp hg
  obtain ⟨hmc, hmv, hms⟩ := verifySigned_eq_ok_iff.mp hm
  exact .inl ⟨⟨bundle, policyEnvelope, grantEnvelope, manifestEnvelope, policy, grant, manifest,
      minimum, current⟩,
    { bundle := decodeCanonical_eq_ok_iff.mp hbundle
      policyEnvelope := decodeCanonical_eq_ok_iff.mp hpe
      grantEnvelope := decodeCanonical_eq_ok_iff.mp hge
      manifestEnvelope := decodeCanonical_eq_ok_iff.mp hme
      policyClaims := hpc, policyValid := hpv, policySigned := hps
      grantClaims := hgc, grantValid := hgv, grantSigned := hgs
      manifestClaims := hmc, manifestValid := hmv, manifestSigned := hms
      minimumParses := hmin, currentParses := hcur }⟩

/-- A bundle is accepted exactly when its evidence is authentic, bound to this Agent and not
newer than it; the launch holds that evidence's fields. -/
theorem verifyLaunchBundle_eq_ok_iff {launch : BoundAgentLaunch} :
    verifyLaunchBundle input keys nowUnix key buildId currentAgentVersion = .ok launch ↔
      ∃ evidence : LaunchEvidence, evidence.Authentic input keys nowUnix currentAgentVersion ∧
        evidence.Bound key buildId ∧ evidence.minimum ≤ evidence.current ∧
        launch = evidence.launch := by
  constructor
  · intro h
    rcases verifyLaunchBundle_cases input keys nowUnix key buildId currentAgentVersion with
      ⟨evidence, hauth⟩ | ⟨e, he, _⟩
    · rw [hauth.verify_eq, LaunchEvidence.conclude] at h
      split_ifs at h with hbind hver
      exact ⟨evidence, hauth, hbind, not_lt.mp hver, (Except.ok.inj h).symm⟩
    · exact absurd (he.symm.trans h) nofun
  · rintro ⟨evidence, hauth, hbound, hver, rfl⟩
    rw [hauth.verify_eq, LaunchEvidence.conclude, if_neg (not_not.mpr hbound), if_neg (not_lt.mpr hver)]

theorem verifyLaunchBundle_eq_update_required_iff :
    verifyLaunchBundle input keys nowUnix key buildId currentAgentVersion =
        .error (.invalidField "agent_update_required") ↔
      ∃ evidence : LaunchEvidence, evidence.Authentic input keys nowUnix currentAgentVersion ∧
        evidence.Bound key buildId ∧ evidence.current < evidence.minimum := by
  constructor
  · intro h
    rcases verifyLaunchBundle_cases input keys nowUnix key buildId currentAgentVersion with
      ⟨evidence, hauth⟩ | ⟨e, he, hne⟩
    · rw [hauth.verify_eq, LaunchEvidence.conclude] at h
      split_ifs at h with hbind hver
      · exact ⟨evidence, hauth, hbind, hver⟩
      · exact absurd h (by decide)
    · exact absurd (Except.error.inj (he.symm.trans h)) hne
  · rintro ⟨evidence, hauth, hbound, hver⟩
    rw [hauth.verify_eq, LaunchEvidence.conclude, if_neg (not_not.mpr hbound), if_pos hver]

/-- Both outcomes that act on a bundle rest on the same authentic and bound evidence and differ
only in the comparison of the versions. -/
theorem verifyLaunchBundle_exact (input : Bytes) (keys : VerificationKeyRing) (nowUnix : Int64)
    (key : VerifyingKey) (buildId currentAgentVersion : String) :
    (∀ launch, verifyLaunchBundle input keys nowUnix key buildId currentAgentVersion = .ok launch ↔
      ∃ evidence : LaunchEvidence, evidence.Authentic input keys nowUnix currentAgentVersion ∧
        evidence.Bound key buildId ∧ ¬ evidence.current < evidence.minimum ∧
        launch = evidence.launch) ∧
    (verifyLaunchBundle input keys nowUnix key buildId currentAgentVersion =
        .error (.invalidField "agent_update_required") ↔
      ∃ evidence : LaunchEvidence, evidence.Authentic input keys nowUnix currentAgentVersion ∧
        evidence.Bound key buildId ∧ evidence.current < evidence.minimum) := by
  constructor
  · intro launch
    simp only [not_lt]
    exact verifyLaunchBundle_eq_ok_iff
  · exact verifyLaunchBundle_eq_update_required_iff

end CertaelAgent.Protocol
