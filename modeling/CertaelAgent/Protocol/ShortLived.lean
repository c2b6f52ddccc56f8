import CertaelAgent.Foundation.CheckedInt
import CertaelAgent.Protocol.Compatibility

/-!
# Lifetimes of signed objects

Launch grants, revocations and compatibility manifests are meant to live for a short time only:
the validators bound the difference between the expiry and the time of issue. Both times come
from the object itself, and a difference of 2⁶³ or more wraps to a negative number that is within
every bound. In a build with overflow checks the same difference stops the program.
-/

namespace CertaelAgent.Protocol

open Int64 (checkedAdd checkedSub checkedAdd_of_fits checkedSub_of_fits checkedSub_isSome_iff
  toInt_of_checkedAdd toInt_of_checkedSub)

/-- The checks of `validate_launch_grant` in front of its times. -/
def AgentLaunchGrantClaimsV1.WellFormed (claims : AgentLaunchGrantClaimsV1) : Prop :=
  claims.protocolVersion = PROTOCOL_VERSION ∧ identifier claims.grantId ∧
    identifier claims.tenantId ∧ identifier claims.gameId ∧ identifier claims.environmentId ∧
    identifier claims.playerSubject ∧ identifier claims.matchId ∧ identifier claims.buildId ∧
    identifier claims.authoritativeServerId ∧ claims.agentPublicKey.length = 32 ∧
    claims.policyDigest.length = 32 ∧ claims.buildManifestDigest.length = 32

instance (claims : AgentLaunchGrantClaimsV1) : Decidable claims.WellFormed :=
  inferInstanceAs (Decidable (_ ∧ _))

/-- The checks of `verify_revocation` in front of its times. -/
def AgentRevocationClaimsV1.WellFormed (claims : AgentRevocationClaimsV1) : Prop :=
  claims.protocolVersion = PROTOCOL_VERSION ∧ identifier claims.tenantId ∧
    identifier claims.gameId ∧ identifier claims.environmentId ∧
    identifier claims.agentSessionId ∧ identifier claims.reason

instance (claims : AgentRevocationClaimsV1) : Decidable claims.WellFormed :=
  inferInstanceAs (Decidable (_ ∧ _))

/-- The checks of `validate_compatibility_manifest` in front of its times. -/
def CompatibilityManifestClaimsV1.WellFormed (claims : CompatibilityManifestClaimsV1) : Prop :=
  claims.schemaVersion = 1 ∧ claims.revision ≠ 0 ∧ claims.products ≠ [] ∧
    claims.products.length ≤ 64 ∧ claims.revocations.length ≤ 4096

instance (claims : CompatibilityManifestClaimsV1) : Decidable claims.WellFormed :=
  inferInstanceAs (Decidable (_ ∧ _))

section

variable (e : ProtocolError) (fields stale : Prop) [Decidable fields] [Decidable stale]
  (slack limit nowUnix issuedAt expiresAt : Int64)

/-- The shape of the three validators: the fields, the time of issue, whether the object is stale,
the lifetime, and what is left to check. -/
def lifetimeCheck (rest : Except ProtocolError Unit) : Except ProtocolError Unit :=
  if ¬ fields then .error e
  else if nowUnix + slack < issuedAt ∨ stale then .error e
  else if limit < expiresAt - issuedAt then .error e
  else rest

/-- The same with overflow checks: nothing where an operation overflows. -/
def lifetimeChecked (rest : Option (Except ProtocolError Unit)) :
    Option (Except ProtocolError Unit) :=
  if ¬ fields then some (.error e)
  else (checkedAdd nowUnix slack).bind fun latest =>
    if latest < issuedAt ∨ stale then some (.error e)
    else (checkedSub expiresAt issuedAt).bind fun lifetime =>
      if limit < lifetime then some (.error e)
      else rest

end

section

variable {e : ProtocolError} {fields stale : Prop} [Decidable fields] [Decidable stale]
  {slack limit nowUnix issuedAt expiresAt : Int64} {rest : Option (Except ProtocolError Unit)}

/-- Where nothing overflows, a build without overflow checks comes to the same verdict. -/
theorem lifetimeCheck_of_checked {rest' verdict : Except ProtocolError Unit}
    (hrest : ¬ stale → expiresAt.toInt - issuedAt.toInt ≤ limit.toInt →
      ∀ v, rest = some v → rest' = v)
    (h : lifetimeChecked e fields stale slack limit nowUnix issuedAt expiresAt rest =
      some verdict) :
    lifetimeCheck e fields stale slack limit nowUnix issuedAt expiresAt rest' = verdict := by
  unfold lifetimeChecked at h
  unfold lifetimeCheck
  by_cases hfields : fields
  · rw [if_neg (not_not.mpr hfields)] at h ⊢
    obtain ⟨latest, hlatest, h⟩ := Option.bind_eq_some_iff.mp h
    obtain rfl := (toInt_of_checkedAdd hlatest).1
    by_cases htimes : nowUnix + slack < issuedAt ∨ stale
    · rw [if_pos htimes] at h ⊢
      exact Option.some.inj h
    · rw [if_neg htimes] at h ⊢
      obtain ⟨lifetime, hlifetime, h⟩ := Option.bind_eq_some_iff.mp h
      obtain ⟨rfl, hvalue⟩ := toInt_of_checkedSub hlifetime
      split_ifs at h ⊢ with hlimit
      · exact Option.some.inj h
      · rw [Int64.not_lt, Int64.le_iff_toInt_le, hvalue] at hlimit
        exact hrest (fun hstale => htimes (.inr hstale)) hlimit verdict h
  · rw [if_pos hfields] at h ⊢
    exact Option.some.inj h

theorem times_of_lifetimeChecked
    (h : lifetimeChecked e fields stale slack limit nowUnix issuedAt expiresAt rest =
      some (.ok ())) :
    issuedAt.toInt ≤ nowUnix.toInt + slack.toInt ∧ ¬ stale ∧
      expiresAt.toInt - issuedAt.toInt ≤ limit.toInt ∧ rest = some (.ok ()) := by
  unfold lifetimeChecked at h
  by_cases hfields : fields
  · rw [if_neg (not_not.mpr hfields)] at h
    obtain ⟨latest, hlatest, h⟩ := Option.bind_eq_some_iff.mp h
    split_ifs at h with htimes
    · cases h
    obtain ⟨lifetime, hlifetime, h⟩ := Option.bind_eq_some_iff.mp h
    split_ifs at h with hlimit
    · cases h
    rw [not_or, Int64.not_lt, Int64.le_iff_toInt_le] at htimes
    rw [Int64.not_lt, Int64.le_iff_toInt_le] at hlimit
    have hadd := (toInt_of_checkedAdd hlatest).2
    have hsub := (toInt_of_checkedSub hlifetime).2
    exact ⟨by omega, htimes.2, by omega, h⟩
  · rw [if_pos hfields] at h
    cases h

theorem lifetimeChecked_isSome_iff (hslack : 0 ≤ slack.toInt ∧ slack.toInt ≤ 300)
    (hnow : 0 ≤ nowUnix.toInt ∧ nowUnix.toInt ≤ 2 ^ 60)
    (hlow : ¬ stale → -2 ^ 63 ≤ expiresAt.toInt - issuedAt.toInt)
    (hrest : ¬ stale → expiresAt.toInt - issuedAt.toInt ≤ limit.toInt → rest.isSome) :
    (lifetimeChecked e fields stale slack limit nowUnix issuedAt expiresAt rest).isSome ↔
      (fields → ¬ stale → expiresAt.toInt - issuedAt.toInt < 2 ^ 63) := by
  have hlatest : checkedAdd nowUnix slack = some (nowUnix + slack) :=
    checkedAdd_of_fits (by omega) (by omega)
  have hvalue := (toInt_of_checkedAdd hlatest).2
  unfold lifetimeChecked
  constructor
  · intro hsome hfields hfresh
    rw [if_neg (not_not.mpr hfields), hlatest, Option.bind_some] at hsome
    by_contra hlarge
    -- a difference this large starts before the epoch, so the time of issue is not the problem
    have hend := expiresAt.toInt_lt
    have hstart : ¬ (nowUnix + slack < issuedAt ∨ stale) := by
      rw [not_or, Int64.not_lt, Int64.le_iff_toInt_le]
      exact ⟨by omega, hfresh⟩
    rw [if_neg hstart] at hsome
    cases hsub : checkedSub expiresAt issuedAt with
    | none => simp [hsub] at hsome
    | some lifetime =>
      have hfits := (checkedSub_isSome_iff (hlow hfresh)).mp (by rw [hsub]; rfl)
      exact hlarge hfits
  · intro hfits
    by_cases hfields : fields
    · rw [if_neg (not_not.mpr hfields), hlatest, Option.bind_some]
      split_ifs with htimes
      · rfl
      · have hfresh : ¬ stale := fun hs => htimes (.inr hs)
        have hsub := checkedSub_of_fits (hlow hfresh) (hfits hfields hfresh)
        have hdiff := (toInt_of_checkedSub hsub).2
        rw [hsub, Option.bind_some]
        split_ifs with hlimit
        · rfl
        · rw [Int64.not_lt, Int64.le_iff_toInt_le] at hlimit
          exact hrest hfresh (by omega)
    · rw [if_pos hfields]
      rfl

end

/-- `validate_launch_grant` with overflow checks. -/
def validateLaunchGrantChecked (claims : AgentLaunchGrantClaimsV1) (nowUnix : Int64) :
    Option (Except ProtocolError Unit) :=
  lifetimeChecked (.invalidField "launch_grant") claims.WellFormed
    (claims.expiresAtUnix ≤ claims.issuedAtUnix) 30 120 nowUnix claims.issuedAtUnix
    claims.expiresAtUnix
    (some (if claims.expiresAtUnix ≤ nowUnix then .error .expired else .ok ()))

/-- The checks of `verify_revocation` with overflow checks. -/
def validateRevocationChecked (claims : AgentRevocationClaimsV1) (nowUnix : Int64) :
    Option (Except ProtocolError Unit) :=
  lifetimeChecked (.invalidField "revocation") claims.WellFormed
    (claims.expiresAtUnix ≤ nowUnix) 30 300 nowUnix claims.revokedAtUnix claims.expiresAtUnix
    (some (.ok ()))

section

variable [Crates]

/-- The walk over the revocations of a manifest with overflow checks. -/
def validateRevocationsChecked (claims : CompatibilityManifestClaimsV1) :
    List CompatibilityRevocationV1 → Option (Except ProtocolError Unit)
  | [] => some (.ok ())
  | revocation :: revocations =>
    if ¬ revocation.WellFormed then some (.error (.invalidField "compatibility_revocation"))
    else (checkedSub claims.issuedAtUnix 86400).bind fun earliest =>
      if revocation.effectiveAtUnix < earliest
          ∨ claims.expiresAtUnix < revocation.effectiveAtUnix then
        some (.error (.invalidField "compatibility_revocation"))
      else validateRevocationsChecked claims revocations

/-- `validate_compatibility_manifest` with overflow checks. -/
def validateCompatibilityManifestChecked (claims : CompatibilityManifestClaimsV1)
    (nowUnix : Int64) : Option (Except ProtocolError Unit) :=
  lifetimeChecked (.invalidField "compatibility_manifest") claims.WellFormed
    (claims.expiresAtUnix ≤ nowUnix ∨ claims.expiresAtUnix ≤ claims.issuedAtUnix) 300
    (32 * 24 * 60 * 60) nowUnix claims.issuedAtUnix claims.expiresAtUnix
    (match validateProducts [] claims.products with
      | .error e => some (.error e)
      | .ok () => validateRevocationsChecked claims claims.revocations)

omit [Crates] in
theorem validateLaunchGrant_eq (claims : AgentLaunchGrantClaimsV1) (nowUnix : Int64) :
    validateLaunchGrant claims nowUnix =
      lifetimeCheck (.invalidField "launch_grant") claims.WellFormed
        (claims.expiresAtUnix ≤ claims.issuedAtUnix) 30 120 nowUnix claims.issuedAtUnix
        claims.expiresAtUnix
        (if claims.expiresAtUnix ≤ nowUnix then .error .expired else .ok ()) := by
  simp only [lifetimeCheck, ← ite_or, validateLaunchGrant, AgentLaunchGrantClaimsV1.WellFormed,
    not_and_or, or_assoc, ne_eq]

omit [Crates] in
theorem validateRevocation_eq (claims : AgentRevocationClaimsV1) (nowUnix : Int64) :
    validateRevocation claims nowUnix =
      lifetimeCheck (.invalidField "revocation") claims.WellFormed
        (claims.expiresAtUnix ≤ nowUnix) 30 300 nowUnix claims.revokedAtUnix
        claims.expiresAtUnix (.ok ()) := by
  simp only [lifetimeCheck, ← ite_or, validateRevocation, AgentRevocationClaimsV1.WellFormed,
    not_and_or, or_assoc, ne_eq]

theorem validateCompatibilityManifest_eq (claims : CompatibilityManifestClaimsV1)
    (nowUnix : Int64) :
    validateCompatibilityManifest claims nowUnix =
      lifetimeCheck (.invalidField "compatibility_manifest") claims.WellFormed
        (claims.expiresAtUnix ≤ nowUnix ∨ claims.expiresAtUnix ≤ claims.issuedAtUnix) 300
        (32 * 24 * 60 * 60) nowUnix claims.issuedAtUnix claims.expiresAtUnix
        (validateProducts [] claims.products >>= fun _ =>
          validateRevocations claims claims.revocations) := by
  simp only [lifetimeCheck, ← ite_or, validateCompatibilityManifest,
    CompatibilityManifestClaimsV1.WellFormed, not_and_or, or_assoc, ne_eq, not_not, not_le]

theorem validateRevocationsChecked_eq {claims : CompatibilityManifestClaimsV1} {earliest : Int64}
    (h : checkedSub claims.issuedAtUnix 86400 = some earliest) :
    ∀ revocations, validateRevocationsChecked claims revocations =
      some (validateRevocations claims revocations) := by
  intro revocations
  obtain rfl := (toInt_of_checkedSub h).1
  induction revocations with
  | nil => rfl
  | cons revocation revocations ih =>
    unfold validateRevocationsChecked validateRevocations
    by_cases hfields : revocation.WellFormed
    · rw [if_neg (not_not.mpr hfields), h, Option.bind_some, ih]
      simp only [hfields, not_true_eq_false, false_or]
      split_ifs <;> rfl
    · rw [if_pos hfields, if_pos (.inl hfields)]

theorem validateProducts_checked {claims : CompatibilityManifestClaimsV1} {earliest : Int64}
    (h : checkedSub claims.issuedAtUnix 86400 = some earliest) :
    (match validateProducts [] claims.products with
      | .error e => some (.error e)
      | .ok () => validateRevocationsChecked claims claims.revocations) =
    some (validateProducts [] claims.products >>= fun _ =>
      validateRevocations claims claims.revocations) := by
  cases validateProducts [] claims.products with
  | error e => rfl
  | ok u => exact validateRevocationsChecked_eq h claims.revocations

/-! ### Short lives -/

/-- An accepted grant lives for at most 120 seconds and ends soon, and no operation of the checks
overflows. -/
def LaunchGrantShortLived (claims : AgentLaunchGrantClaimsV1) (nowUnix : Int64) : Prop :=
  (validateLaunchGrant claims nowUnix = .ok () →
    nowUnix.toInt < claims.expiresAtUnix.toInt ∧
      claims.expiresAtUnix.toInt ≤ nowUnix.toInt + 150 ∧
      0 < claims.expiresAtUnix.toInt - claims.issuedAtUnix.toInt ∧
      claims.expiresAtUnix.toInt - claims.issuedAtUnix.toInt ≤ 120) ∧
    (validateLaunchGrantChecked claims nowUnix).isSome

def RevocationShortLived (claims : AgentRevocationClaimsV1) (nowUnix : Int64) : Prop :=
  (validateRevocation claims nowUnix = .ok () →
    nowUnix.toInt < claims.expiresAtUnix.toInt ∧
      claims.expiresAtUnix.toInt ≤ nowUnix.toInt + 330 ∧
      claims.expiresAtUnix.toInt - claims.revokedAtUnix.toInt ≤ 300) ∧
    (validateRevocationChecked claims nowUnix).isSome

def CompatibilityManifestShortLived (claims : CompatibilityManifestClaimsV1) (nowUnix : Int64) :
    Prop :=
  (validateCompatibilityManifest claims nowUnix = .ok () →
    0 < claims.expiresAtUnix.toInt - claims.issuedAtUnix.toInt ∧
      claims.expiresAtUnix.toInt - claims.issuedAtUnix.toInt ≤ 32 * 24 * 60 * 60) ∧
    (validateCompatibilityManifestChecked claims nowUnix).isSome

section

variable {nowUnix : Int64}

omit [Crates] in
theorem launchGrantShortLived_iff (hnow : 0 ≤ nowUnix.toInt ∧ nowUnix.toInt ≤ 2 ^ 60)
    (claims : AgentLaunchGrantClaimsV1) :
    LaunchGrantShortLived claims nowUnix ↔
      (claims.WellFormed →
        claims.expiresAtUnix.toInt - claims.issuedAtUnix.toInt < 2 ^ 63) := by
  have hsome : (validateLaunchGrantChecked claims nowUnix).isSome ↔ (claims.WellFormed →
      ¬ claims.expiresAtUnix ≤ claims.issuedAtUnix →
        claims.expiresAtUnix.toInt - claims.issuedAtUnix.toInt < 2 ^ 63) := by
    apply lifetimeChecked_isSome_iff (by decide) hnow
    · rw [Int64.le_iff_toInt_le]
      omega
    · intro _ _
      rfl
  constructor
  · rintro ⟨-, hchecked⟩ hfields
    by_contra hlarge
    have hfresh : ¬ claims.expiresAtUnix ≤ claims.issuedAtUnix := by
      rw [Int64.le_iff_toInt_le]
      omega
    exact hlarge (hsome.mp hchecked hfields hfresh)
  · intro hfits
    have hchecked := hsome.mpr fun hfields _ => hfits hfields
    refine ⟨fun hok => ?_, hchecked⟩
    obtain ⟨verdict, hverdict⟩ := Option.isSome_iff_exists.mp hchecked
    have hsame := lifetimeCheck_of_checked (fun _ _ v => Option.some.inj) hverdict
    rw [← validateLaunchGrant_eq, hok] at hsame
    subst hsame
    obtain ⟨hissued, hfresh, hlimit, hrest⟩ := times_of_lifetimeChecked hverdict
    have hend : ¬ claims.expiresAtUnix ≤ nowUnix := fun hstale => by simp [hstale] at hrest
    rw [Int64.le_iff_toInt_le] at hfresh hend
    have h30 : (30 : Int64).toInt = 30 := rfl
    have h120 : (120 : Int64).toInt = 120 := rfl
    omega

omit [Crates] in
theorem revocationShortLived_iff (hnow : 0 ≤ nowUnix.toInt ∧ nowUnix.toInt ≤ 2 ^ 60)
    (claims : AgentRevocationClaimsV1) :
    RevocationShortLived claims nowUnix ↔
      (claims.WellFormed → nowUnix < claims.expiresAtUnix →
        claims.expiresAtUnix.toInt - claims.revokedAtUnix.toInt < 2 ^ 63) := by
  have hsome : (validateRevocationChecked claims nowUnix).isSome ↔ (claims.WellFormed →
      ¬ claims.expiresAtUnix ≤ nowUnix →
        claims.expiresAtUnix.toInt - claims.revokedAtUnix.toInt < 2 ^ 63) := by
    apply lifetimeChecked_isSome_iff (by decide) hnow
    · have hstart := claims.revokedAtUnix.toInt_lt
      rw [Int64.le_iff_toInt_le]
      omega
    · intro _ _
      rfl
  simp only [Int64.not_le] at hsome
  constructor
  · rintro ⟨-, hchecked⟩
    exact hsome.mp hchecked
  · intro hfits
    have hchecked := hsome.mpr hfits
    refine ⟨fun hok => ?_, hchecked⟩
    obtain ⟨verdict, hverdict⟩ := Option.isSome_iff_exists.mp hchecked
    have hsame := lifetimeCheck_of_checked (fun _ _ v => Option.some.inj) hverdict
    rw [← validateRevocation_eq, hok] at hsame
    subst hsame
    obtain ⟨hrevoked, hfresh, hlimit, -⟩ := times_of_lifetimeChecked hverdict
    rw [Int64.le_iff_toInt_le] at hfresh
    have h30 : (30 : Int64).toInt = 30 := rfl
    have h300 : (300 : Int64).toInt = 300 := rfl
    omega

theorem compatibilityManifestShortLived_iff (hnow : 0 ≤ nowUnix.toInt ∧ nowUnix.toInt ≤ 2 ^ 60)
    (claims : CompatibilityManifestClaimsV1) :
    CompatibilityManifestShortLived claims nowUnix ↔
      (claims.WellFormed → nowUnix < claims.expiresAtUnix →
        claims.expiresAtUnix.toInt - claims.issuedAtUnix.toInt < 2 ^ 63) := by
  have hlimit : (32 * 24 * 60 * 60 : Int64).toInt = 32 * 24 * 60 * 60 := rfl
  have hday : (86400 : Int64).toInt = 86400 := rfl
  -- an object that ends after the epoch and lives for days only was not issued at the far end
  have hearliest : nowUnix < claims.expiresAtUnix →
      claims.expiresAtUnix.toInt - claims.issuedAtUnix.toInt ≤ 32 * 24 * 60 * 60 →
      checkedSub claims.issuedAtUnix 86400 = some (claims.issuedAtUnix - 86400) := by
    intro hend hshort
    rw [Int64.lt_iff_toInt_lt] at hend
    have hstart := claims.issuedAtUnix.toInt_lt
    apply checkedSub_of_fits <;> omega
  have hsome : (validateCompatibilityManifestChecked claims nowUnix).isSome ↔
      (claims.WellFormed → ¬ (claims.expiresAtUnix ≤ nowUnix ∨
        claims.expiresAtUnix ≤ claims.issuedAtUnix) →
        claims.expiresAtUnix.toInt - claims.issuedAtUnix.toInt < 2 ^ 63) := by
    apply lifetimeChecked_isSome_iff (by decide) hnow
    · rw [not_or, Int64.not_le, Int64.not_le, Int64.lt_iff_toInt_lt, Int64.lt_iff_toInt_lt]
      omega
    · intro hfresh hshort
      rw [not_or, Int64.not_le] at hfresh
      rw [hlimit] at hshort
      rw [validateProducts_checked (hearliest hfresh.1 hshort)]
      rfl
  constructor
  · rintro ⟨-, hchecked⟩ hfields hend
    by_contra hlarge
    have hfresh : ¬ (claims.expiresAtUnix ≤ nowUnix ∨
        claims.expiresAtUnix ≤ claims.issuedAtUnix) := by
      rw [not_or, Int64.not_le, Int64.not_le]
      exact ⟨hend, Int64.lt_iff_toInt_lt.mpr (by omega)⟩
    exact hlarge (hsome.mp hchecked hfields hfresh)
  · intro hfits
    have hchecked := hsome.mpr fun hfields hfresh =>
      hfits hfields (Int64.not_le.mp fun hstale => hfresh (.inl hstale))
    refine ⟨fun hok => ?_, hchecked⟩
    obtain ⟨verdict, hverdict⟩ := Option.isSome_iff_exists.mp hchecked
    have hrest : ¬ (claims.expiresAtUnix ≤ nowUnix ∨ claims.expiresAtUnix ≤ claims.issuedAtUnix) →
        claims.expiresAtUnix.toInt - claims.issuedAtUnix.toInt ≤
          (32 * 24 * 60 * 60 : Int64).toInt →
        ∀ v, (match validateProducts [] claims.products with
          | .error e => some (.error e)
          | .ok () => validateRevocationsChecked claims claims.revocations) = some v →
          (validateProducts [] claims.products >>= fun _ =>
            validateRevocations claims claims.revocations) = v := by
      intro hfresh hshort v hv
      rw [not_or, Int64.not_le] at hfresh
      rw [hlimit] at hshort
      rw [validateProducts_checked (hearliest hfresh.1 hshort)] at hv
      exact Option.some.inj hv
    have hsame := lifetimeCheck_of_checked hrest hverdict
    rw [← validateCompatibilityManifest_eq, hok] at hsame
    subst hsame
    obtain ⟨-, hfresh, hshort, -⟩ := times_of_lifetimeChecked hverdict
    rw [not_or, Int64.not_le, Int64.not_le] at hfresh
    have hpositive := Int64.lt_iff_toInt_lt.mp hfresh.2
    omega

/-- The lifetimes of grants, revocations and compatibility manifests are bounded, and no operation
overflows, for exactly those objects whose time of issue lies less than 2⁶³ seconds before their
expiry where the checks come to compare the two. -/
theorem shortLived_iff (hnow : 0 ≤ nowUnix.toInt ∧ nowUnix.toInt ≤ 2 ^ 60) :
    (∀ claims : AgentLaunchGrantClaimsV1, LaunchGrantShortLived claims nowUnix ↔
      (claims.WellFormed →
        claims.expiresAtUnix.toInt - claims.issuedAtUnix.toInt < 2 ^ 63)) ∧
    (∀ claims : AgentRevocationClaimsV1, RevocationShortLived claims nowUnix ↔
      (claims.WellFormed → nowUnix < claims.expiresAtUnix →
        claims.expiresAtUnix.toInt - claims.revokedAtUnix.toInt < 2 ^ 63)) ∧
    (∀ claims : CompatibilityManifestClaimsV1, CompatibilityManifestShortLived claims nowUnix ↔
      (claims.WellFormed → nowUnix < claims.expiresAtUnix →
        claims.expiresAtUnix.toInt - claims.issuedAtUnix.toInt < 2 ^ 63)) := by
  constructor
  · exact launchGrantShortLived_iff hnow
  constructor
  · exact revocationShortLived_iff hnow
  · exact compatibilityManifestShortLived_iff hnow

end

end

namespace Sample

/-- A grant with the given times. -/
def grantFor (issuedAt expiresAt : Int64) : AgentLaunchGrantClaimsV1 where
  protocolVersion := 1
  grantId := "grant"
  tenantId := "studio"
  gameId := "chess"
  environmentId := "live"
  playerSubject := "player"
  matchId := "match"
  buildId := "build"
  agentPublicKey := List.replicate 32 1
  issuedAtUnix := issuedAt
  expiresAtUnix := expiresAt
  policyDigest := List.replicate 32 2
  authoritativeServerId := "server"
  buildManifestDigest := List.replicate 32 3

/-- Primitives of which only the signature length is used. -/
scoped instance crates : Crates where
  sha256 _ := zeroDigest
  verifyingKey seed := seed
  sign _ _ := filled 64 0
  verify _ _ signature := decide (signature = filled 64 0)
  verify_sign := verify_filled
  Version := ℕ
  versionOrder := inferInstance
  parseVersion _ := none

end Sample

theorem shortLived_sample : LaunchGrantShortLived (Sample.grantFor 990 1090) 1000 :=
  let _ := Sample.crates
  ((shortLived_iff (by decide)).1 (Sample.grantFor 990 1090)).mpr fun _ => by decide

/-- A grant from the first to the last second there is: its lifetime wraps to `-1`. -/
theorem not_shortLived : ¬ ∀ (claims : AgentLaunchGrantClaimsV1) (nowUnix : Int64),
    0 ≤ nowUnix.toInt ∧ nowUnix.toInt ≤ 2 ^ 60 → LaunchGrantShortLived claims nowUnix := by
  intro h
  have hshort := h (Sample.grantFor Int64.minValue Int64.maxValue) 1000 (by decide)
  have haccepted : validateLaunchGrant (Sample.grantFor Int64.minValue Int64.maxValue) 1000 =
      .ok () := by decide +kernel
  have hbound := (hshort.1 haccepted).2.1
  have hend : (Sample.grantFor Int64.minValue Int64.maxValue).expiresAtUnix.toInt =
      2 ^ 63 - 1 := rfl
  have hnow : (1000 : Int64).toInt = 1000 := rfl
  omega

end CertaelAgent.Protocol
