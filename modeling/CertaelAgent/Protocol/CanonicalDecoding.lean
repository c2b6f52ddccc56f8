import CertaelAgent.Foundation.Canonical
import CertaelAgent.Protocol.Validation

/-!
# Canonical decoding

A byte string is accepted for one value only, and a value has one byte string that is accepted.
-/

namespace CertaelAgent.Protocol

open ProtoWire

variable {M : Type} [Message M]

theorem decodeCanonical_eq_error {input : Bytes}
    (h : ∀ value : M, (encode value).length < 2 ^ 64 → encode value ≠ input) :
    ∃ e, decodeCanonical M input = .error e := by
  cases hresult : decodeCanonical M input with
  | error e => exact ⟨e, rfl⟩
  | ok value =>
    obtain ⟨rfl, -, hlen⟩ := decodeCanonical_eq_ok_iff.mp hresult
    unfold MAX_MESSAGE_BYTES at hlen
    exact absurd rfl (h value (by omega))

/-- Canonical decoding admits one byte string per value, and nothing that deviates from what is
written: no other order of fields, no repetition of a field that holds one value, no unknown field,
no default that is spelled out, no integer outside the range of its field and no varint that is
longer than it has to be, at the top or in a nested message. -/
theorem decodeCanonical_exact (M : Type) [Message M] :
    (∀ (input : Bytes) (value : M), decodeCanonical M input = .ok value ↔
      0 < input.length ∧ input.length ≤ 65536 ∧ input = encode value) ∧
    (∀ value : M, 0 < (encode value).length → (encode value).length ≤ 65536 →
      decodeCanonical M (encode value) = .ok value) ∧
    (∀ (input input' : Bytes) (value value' : M), decodeCanonical M input = .ok value →
      decodeCanonical M input' = .ok value' → input ≠ input' → value ≠ value') ∧
    ∀ (input : Bytes) (occs : List Occurrence), decodeFields input = some occs →
      Deviation M input occs → ∃ e, decodeCanonical M input = .error e := by
  have hexact : ∀ (input : Bytes) (value : M), decodeCanonical M input = .ok value ↔
      0 < input.length ∧ input.length ≤ 65536 ∧ input = encode value := by
    intro input value
    rw [decodeCanonical_eq_ok_iff, IsCanonical, ← List.length_pos_iff]
    exact ⟨fun h => ⟨h.2.1, h.2.2, h.1⟩, fun h => ⟨h.2.2, h.1, h.2.1⟩⟩
  refine ⟨hexact, ?_, ?_, ?_⟩
  · intro value hpos hlen
    exact (hexact _ value).mpr ⟨hpos, hlen, rfl⟩
  · rintro input input' value value' h h' hne rfl
    rw [hexact] at h h'
    exact hne (h.2.2.trans h'.2.2.symm)
  · intro input occs hread hdeviation
    exact decodeCanonical_eq_error (hdeviation.ne_encode hread)

/-- The heartbeat of a policy spelled out as zero. -/
example : decodeCanonical AgentPolicyClaimsV1 [8, 1, 48, 0] = .error .nonCanonical := by
  decide +kernel

end CertaelAgent.Protocol
