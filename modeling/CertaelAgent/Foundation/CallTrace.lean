import Mathlib.Data.List.Basic

/-!
# Calls one after the other

An object answers calls and changes its state with each of them. Two objects whose states stay
related, and which answer alike as long as they are, cannot be told apart by any series of calls.
-/

namespace CallTrace

variable {σ τ κ ρ : Type}

/-- The state after a series of calls. -/
def after (call : σ → κ → ρ × σ) (state : σ) (calls : List κ) : σ :=
  calls.foldl (fun s c => (call s c).2) state

/-- The answers to a series of calls. -/
def answers (call : σ → κ → ρ × σ) : σ → List κ → List ρ
  | _, [] => []
  | state, c :: calls => (call state c).1 :: answers call (call state c).2 calls

variable {call : σ → κ → ρ × σ} {call' : τ → κ → ρ × τ}

theorem after_append (state : σ) (first second : List κ) :
    after call state (first ++ second) = after call (after call state first) second :=
  List.foldl_append ..

/-- Related states answer every call alike and stay related. -/
def Simulates (call : σ → κ → ρ × σ) (call' : τ → κ → ρ × τ) (Valid : κ → Prop)
    (R : σ → τ → Prop) : Prop :=
  ∀ s t, R s t → ∀ c, Valid c → (call s c).1 = (call' t c).1 ∧ R (call s c).2 (call' t c).2

variable {Valid : κ → Prop} {R : σ → τ → Prop}

theorem Simulates.after (h : Simulates call call' Valid R) {calls : List κ}
    (hvalid : ∀ c ∈ calls, Valid c) : ∀ {s t}, R s t →
      R (after call s calls) (after call' t calls) := by
  induction calls with
  | nil => exact fun hR => hR
  | cons c calls ih =>
    intro s t hR
    obtain ⟨-, hnext⟩ := h s t hR c (hvalid c (List.mem_cons_self ..))
    exact ih (fun c hc => hvalid c (List.mem_cons_of_mem _ hc)) hnext

theorem Simulates.answers (h : Simulates call call' Valid R) {calls : List κ}
    (hvalid : ∀ c ∈ calls, Valid c) : ∀ {s t}, R s t →
      answers call s calls = answers call' t calls := by
  induction calls with
  | nil => exact fun _ => rfl
  | cons c calls ih =>
    intro s t hR
    obtain ⟨hanswer, hnext⟩ := h s t hR c (hvalid c (List.mem_cons_self ..))
    have htail := ih (fun c hc => hvalid c (List.mem_cons_of_mem _ hc)) hnext
    rw [CallTrace.answers, CallTrace.answers, hanswer, htail]

end CallTrace
