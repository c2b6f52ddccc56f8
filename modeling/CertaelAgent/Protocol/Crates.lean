import CertaelAgent.Foundation.Wire
import Mathlib.Order.Defs.LinearOrder

/-!
# Third-party primitives

SHA-256, Ed25519 and semantic versions come from the crates `sha2`, `ed25519-dalek` and
`semver`. They are a parameter of the development: of the signature scheme only the agreement
of signing and verification is used, of digests only that they are 32 bytes, and of versions
only that they are linearly ordered.
-/

namespace CertaelAgent.Protocol

open ProtoWire

/-- A byte array whose length is part of its type, `[u8; n]`. -/
abbrev ByteArrayOf (n : ℕ) := { bytes : Bytes // bytes.length = n }

abbrev Digest := ByteArrayOf 32
abbrev SigningKey := ByteArrayOf 32
abbrev VerifyingKey := ByteArrayOf 32
abbrev Signature := ByteArrayOf 64

/-- `[b; n]`. -/
def filled (n : ℕ) (b : UInt8) : ByteArrayOf n := ⟨List.replicate n b, List.length_replicate ..⟩

/-- `[0_u8; 32]`. -/
def zeroDigest : Digest := ⟨List.replicate 32 0, List.length_replicate ..⟩

class Crates where
  sha256 : Bytes → Digest
  verifyingKey : SigningKey → VerifyingKey
  sign : SigningKey → Bytes → Signature
  verify : VerifyingKey → Bytes → Signature → Bool
  verify_sign : ∀ key message, verify (verifyingKey key) message (sign key message) = true
  Version : Type
  versionOrder : LinearOrder Version
  parseVersion : String → Option Version

instance [Crates] : LinearOrder Crates.Version := Crates.versionOrder

/-- `Signature::from_slice` only looks at the length. -/
def Signature.fromSlice (bytes : Bytes) : Option Signature :=
  if h : bytes.length = 64 then some ⟨bytes, h⟩ else none

theorem Signature.fromSlice_coe (signature : Signature) :
    Signature.fromSlice signature.1 = some signature :=
  dif_pos signature.2

/-- Where one signature is the signature of everything, signing and verification agree. -/
theorem verify_filled (_ : SigningKey) (_ : Bytes) :
    decide (filled 64 0 = filled 64 0) = true := decide_eq_true rfl

/-- The Ed25519 public key of the seed of ones. -/
def publicKeyOfOnes : VerifyingKey := ⟨[138, 136, 227, 221, 116, 9, 241, 149, 253, 82, 219, 45, 60,
  186, 93, 114, 202, 103, 9, 191, 29, 148, 18, 27, 243, 116, 136, 1, 180, 15, 111, 92], rfl⟩

end CertaelAgent.Protocol
