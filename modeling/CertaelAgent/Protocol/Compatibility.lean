import CertaelAgent.Protocol.Signatures

/-!
# Compatibility manifests

Which product versions the publisher still supports, and which it has withdrawn.
-/

namespace CertaelAgent.Protocol

open ProtoWire

inductive CertaelProductV1
  | unspecified
  | core
  | agent
  | godotAdapter
  | unityAdapter
  | unrealAdapter
  | dotNetServerSdk
  | nativeServerSdk
deriving DecidableEq, Repr

def CertaelProductV1.tryFrom (value : Int32) : Option CertaelProductV1 :=
  match value.toInt with
  | 0 => some .unspecified
  | 1 => some .core
  | 2 => some .agent
  | 3 => some .godotAdapter
  | 4 => some .unityAdapter
  | 5 => some .unrealAdapter
  | 6 => some .dotNetServerSdk
  | 7 => some .nativeServerSdk
  | _ => none

variable [Crates]

def COMPATIBILITY_DOMAIN : Bytes := domain "certael.compatibility.v1"

/-- Walks the rules with the products seen so far. -/
def validateProducts : List CertaelProductV1 → List CompatibilityProductRuleV1 →
    Except ProtocolError Unit
  | _, [] => .ok ()
  | products, rule :: rules => do
    let product ← Except.ofOption (.invalidField "compatibility_product")
      (CertaelProductV1.tryFrom rule.product)
    if product = .unspecified then .error (.invalidField "compatibility_product")
    else do
      let minimum ← Except.ofOption (.invalidField "compatibility_version")
        (Crates.parseVersion rule.minimumSupportedVersion)
      let recommended ← Except.ofOption (.invalidField "compatibility_version")
        (Crates.parseVersion rule.recommendedVersion)
      if product ∈ products
          ∨ recommended < minimum
          ∨ rule.minimumProtocolVersion = 0
          ∨ rule.maximumProtocolVersion < rule.minimumProtocolVersion then
        .error (.invalidField "compatibility_product")
      else validateProducts (product :: products) rules

/-- The checks of a revocation in front of its date. -/
def CompatibilityRevocationV1.WellFormed (revocation : CompatibilityRevocationV1) : Prop :=
  (CertaelProductV1.tryFrom revocation.product).any (· ≠ .unspecified) ∧
    (Crates.parseVersion revocation.version).isSome ∧
    identifier revocation.reason

instance (revocation : CompatibilityRevocationV1) : Decidable revocation.WellFormed :=
  inferInstanceAs (Decidable (_ ∧ _ ∧ _))

def validateRevocations (claims : CompatibilityManifestClaimsV1) :
    List CompatibilityRevocationV1 → Except ProtocolError Unit
  | [] => .ok ()
  | revocation :: revocations =>
    if ¬ revocation.WellFormed
        ∨ revocation.effectiveAtUnix < claims.issuedAtUnix - 86400
        ∨ claims.expiresAtUnix < revocation.effectiveAtUnix then
      .error (.invalidField "compatibility_revocation")
    else validateRevocations claims revocations

def validateCompatibilityManifest (claims : CompatibilityManifestClaimsV1) (nowUnix : Int64) :
    Except ProtocolError Unit :=
  if claims.schemaVersion ≠ 1
      ∨ claims.revision = 0
      ∨ claims.products = []
      ∨ 64 < claims.products.length
      ∨ 4096 < claims.revocations.length
      ∨ nowUnix + 300 < claims.issuedAtUnix
      ∨ claims.expiresAtUnix ≤ nowUnix
      ∨ claims.expiresAtUnix ≤ claims.issuedAtUnix
      ∨ 32 * 24 * 60 * 60 < claims.expiresAtUnix - claims.issuedAtUnix then
    .error (.invalidField "compatibility_manifest")
  else do
    validateProducts [] claims.products
    validateRevocations claims claims.revocations

def verifyCompatibilityManifest (signed : SignedCompatibilityManifestV1)
    (keys : VerificationKeyRing) (nowUnix : Int64) :
    Except ProtocolError CompatibilityManifestClaimsV1 :=
  verifySigned CompatibilityManifestClaimsV1 COMPATIBILITY_DOMAIN validateCompatibilityManifest
    signed keys nowUnix

end CertaelAgent.Protocol
