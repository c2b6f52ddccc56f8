import CertaelAgent.Protocol.LaunchBundle
import CertaelAgent.Session.Chaining

/-!
# What activation binds

A session is given its policy twice: as claims, and inside the signed policy that the grant pins.
Activation compares the grant with the key, with two of the claims, and with the digest of the
signed policy. It looks at neither the tenant nor what the signed policy says, so the claims that
the session keeps are the pinned ones only if the caller took them from there.
-/

namespace CertaelAgent.Session

open ProtoWire Protocol

section

variable [Crates] {session : AgentSession} {signingKey : SigningKey}
  {grant : AgentLaunchGrantClaimsV1} {policy : AgentPolicyClaimsV1}
  {signedPolicy : SignedAgentPolicyV1} {agentSessionId : String}

/-- The grant names the key, agrees with the policy of the session and pins the signed policy, and
that policy is the claims inside the signed one. -/
structure BindsIdentity (session : AgentSession) (signingKey : SigningKey)
    (grant : AgentLaunchGrantClaimsV1) (signedPolicy : SignedAgentPolicyV1) : Prop where
  key : grant.agentPublicKey = (Crates.verifyingKey signingKey).1
  tenant : grant.tenantId = session.policy.tenantId
  game : grant.gameId = session.policy.gameId
  environment : grant.environmentId = session.policy.environmentId
  digest : grant.policyDigest = (Crates.sha256 (encode signedPolicy)).1
  claims : decode signedPolicy.claims = some session.policy

/-- The comparisons that activation makes. -/
structure Activates (signingKey : SigningKey) (grant : AgentLaunchGrantClaimsV1)
    (policy : AgentPolicyClaimsV1) (signedPolicy : SignedAgentPolicyV1) (agentSessionId : String) :
    Prop where
  key : grant.agentPublicKey = (Crates.verifyingKey signingKey).1
  game : grant.gameId = policy.gameId
  environment : grant.environmentId = policy.environmentId
  digest : grant.policyDigest = (Crates.sha256 (encode signedPolicy)).1
  sessionId : agentSessionId ≠ "" ∧ len agentSessionId ≤ 128

theorem activate_eq_ok
    (h : AgentSession.activate signingKey grant policy signedPolicy agentSessionId = .ok session) :
    Activates signingKey grant policy signedPolicy agentSessionId ∧ session.policy = policy := by
  unfold AgentSession.activate at h
  split_ifs at h with hkey hgame hdigest hsession
  obtain rfl := Except.ok.inj h
  obtain ⟨hgame, henvironment⟩ := not_or.mp hgame
  obtain ⟨hempty, hlong⟩ := not_or.mp hsession
  refine ⟨?_, rfl⟩
  exact
    { key := not_not.mp hkey
      game := not_not.mp hgame
      environment := not_not.mp henvironment
      digest := not_not.mp hdigest
      sessionId := ⟨hempty, not_lt.mp hlong⟩ }

theorem exists_activate (h : Activates signingKey grant policy signedPolicy agentSessionId) :
    ∃ session, AgentSession.activate signingKey grant policy signedPolicy agentSessionId =
      .ok session := by
  have hgame : ¬ (grant.gameId ≠ policy.gameId ∨ grant.environmentId ≠ policy.environmentId) :=
    not_or.mpr ⟨not_not.mpr h.game, not_not.mpr h.environment⟩
  have hsession : ¬ (agentSessionId = "" ∨ 128 < len agentSessionId) :=
    not_or.mpr ⟨h.sessionId.1, not_lt.mpr h.sessionId.2⟩
  unfold AgentSession.activate
  rw [if_neg (not_not.mpr h.key), if_neg hgame, if_neg (not_not.mpr h.digest), if_neg hsession]
  exact ⟨_, rfl⟩

/-- Activation binds the whole identity exactly where it is not given another tenant's claims or
other claims than those in the signed policy. -/
theorem activation_binds_iff (signingKey : SigningKey) (grant : AgentLaunchGrantClaimsV1)
    (policy : AgentPolicyClaimsV1) (signedPolicy : SignedAgentPolicyV1) (agentSessionId : String) :
    (∀ session,
      AgentSession.activate signingKey grant policy signedPolicy agentSessionId = .ok session →
        BindsIdentity session signingKey grant signedPolicy) ↔
      (Activates signingKey grant policy signedPolicy agentSessionId →
        grant.tenantId = policy.tenantId ∧ decode signedPolicy.claims = some policy) := by
  constructor
  · intro h hactivates
    obtain ⟨session, hsession⟩ := exists_activate hactivates
    have hbinds := h session hsession
    have hpolicy := (activate_eq_ok hsession).2
    exact ⟨hpolicy ▸ hbinds.tenant, hpolicy ▸ hbinds.claims⟩
  · intro h session hsession
    obtain ⟨hactivates, hpolicy⟩ := activate_eq_ok hsession
    obtain ⟨htenant, hclaims⟩ := h hactivates
    exact
      { key := hactivates.key
        tenant := hpolicy ▸ htenant
        game := hpolicy ▸ hactivates.game
        environment := hpolicy ▸ hactivates.environment
        digest := hactivates.digest
        claims := hpolicy ▸ hclaims }

theorem binding_of_evidence {evidence : LaunchEvidence} {input : Bytes} {keys : VerificationKeyRing}
    {nowUnix : Int64} {currentAgentVersion expectedBuildId : String} {key : VerifyingKey}
    (hauthentic : evidence.Authentic input keys nowUnix currentAgentVersion)
    (hbound : evidence.Bound key expectedBuildId) :
    evidence.grant.tenantId = evidence.policy.tenantId ∧
      decode evidence.policyEnvelope.claims = some evidence.policy := by
  obtain ⟨-, -, htenant, -⟩ := hbound
  obtain ⟨hclaims, -, hlength⟩ := hauthentic.policyClaims
  refine ⟨htenant.symm, ?_⟩
  rw [hclaims]
  apply decode_encode
  rw [← hclaims]
  unfold MAX_MESSAGE_BYTES at hlength
  omega

end

open SampleSession in
/-- The session of the sample can be activated with the claims of another tenant, whose reports are
due every hour, next to the signed policy that the grant pins. -/
theorem not_activation_binds :
    ¬ ∀ session, AgentSession.activate seed grant
        { policy with tenantId := "other", reportSeconds := 3600 } signedPolicy "session" =
          .ok session → BindsIdentity session seed grant signedPolicy := by
  intro h
  have hbinds := h { session with
    policy := { policy with tenantId := "other", reportSeconds := 3600 } } (by decide +kernel)
  exact absurd hbinds.tenant (by decide)

end CertaelAgent.Session
