import Mathlib.Data.Int.Basic
import Mathlib.Tactic

/-!
# 64-bit arithmetic with and without overflow checks

A build with overflow checks stops where a sum or a difference does not fit; one without wraps.
The checked operations have a result only where the two builds and the integers agree.
-/

namespace Int64

def checkedAdd (a b : Int64) : Option Int64 :=
  if (a + b).toInt = a.toInt + b.toInt then some (a + b) else none

def checkedSub (a b : Int64) : Option Int64 :=
  if (a - b).toInt = a.toInt - b.toInt then some (a - b) else none

theorem checkedAdd_of_fits {a b : Int64} (hlow : -2 ^ 63 ≤ a.toInt + b.toInt)
    (hhigh : a.toInt + b.toInt < 2 ^ 63) : checkedAdd a b = some (a + b) := by
  apply if_pos
  rw [toInt_add]
  apply Int.bmod_eq_of_le_mul_two <;> push_cast <;> omega

theorem checkedSub_of_fits {a b : Int64} (hlow : -2 ^ 63 ≤ a.toInt - b.toInt)
    (hhigh : a.toInt - b.toInt < 2 ^ 63) : checkedSub a b = some (a - b) := by
  apply if_pos
  rw [toInt_sub]
  apply Int.bmod_eq_of_le_mul_two <;> push_cast <;> omega

theorem toInt_of_checkedAdd {a b c : Int64} (h : checkedAdd a b = some c) :
    c = a + b ∧ c.toInt = a.toInt + b.toInt := by
  unfold checkedAdd at h
  split_ifs at h with hfits
  obtain rfl := Option.some.inj h
  exact ⟨rfl, hfits⟩

theorem toInt_of_checkedSub {a b c : Int64} (h : checkedSub a b = some c) :
    c = a - b ∧ c.toInt = a.toInt - b.toInt := by
  unfold checkedSub at h
  split_ifs at h with hfits
  obtain rfl := Option.some.inj h
  exact ⟨rfl, hfits⟩

/-- Between a later and an earlier time only a difference that is too large does not fit. -/
theorem checkedSub_isSome_iff {a b : Int64} (h : -2 ^ 63 ≤ a.toInt - b.toInt) :
    (checkedSub a b).isSome ↔ a.toInt - b.toInt < 2 ^ 63 := by
  constructor
  · intro hsome
    obtain ⟨c, hc⟩ := Option.isSome_iff_exists.mp hsome
    have hvalue := (toInt_of_checkedSub hc).2
    have hbound := c.toInt_lt
    omega
  · intro hfits
    rw [checkedSub_of_fits h hfits]
    rfl

end Int64

namespace UInt64

def checkedAdd (a b : UInt64) : Option UInt64 :=
  if a.toNat + b.toNat < 2 ^ 64 then some (a + b) else none

theorem toNat_of_checkedAdd {a b c : UInt64} (h : checkedAdd a b = some c) :
    c.toNat = a.toNat + b.toNat := by
  unfold checkedAdd at h
  split_ifs at h with hfits
  obtain rfl := Option.some.inj h
  rw [UInt64.toNat_add, Nat.mod_eq_of_lt hfits]

end UInt64
