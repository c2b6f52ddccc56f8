import Mathlib.Tactic

/-!
# Active, previous and pending

An installation keeps an active version, the one before it, and one that waits. Versions are
staged, promoted, rolled back, registered and dropped again when they are damaged. Rolling back
leads somewhere else as long as the active and the previous version differ; promotion is the one
move that can make them equal.
-/

namespace SlotMachine

universe u

structure Places (α : Type u) where
  active : Option α
  previous : Option α
  pending : Option α
deriving DecidableEq, Repr

inductive Action (α : Type u)
  | stage (a : α)
  | promote
  | rollBack
  | repair
  | register (a : α) (activate : Bool)
deriving DecidableEq, Repr

variable {α : Type u}

inductive Move : Action α → Places α → Places α → Prop
  | stage {s : Places α} {a : α} : Move (.stage a) s { s with pending := some a }
  | promote {s : Places α} {a : α} (h : s.pending = some a) : Move .promote s ⟨some a, s.active, none⟩
  | rollBack {s : Places α} {a : α} (h : s.previous = some a) :
      Move .rollBack s ⟨some a, s.active, none⟩
  | drop {s : Places α} {previous pending : Option α}
      (hprevious : previous = s.previous ∨ previous = none)
      (hpending : pending = s.pending ∨ pending = none) :
      Move .repair s ⟨s.active, previous, pending⟩
  | fallBack {s : Places α} {a : α} {pending : Option α} (h : s.previous = some a)
      (hpending : pending = s.pending ∨ pending = none) :
      Move .repair s ⟨some a, none, pending⟩
  | first {s : Places α} {a : α} {activate : Bool} (h : s.active = none) :
      Move (.register a activate) s { s with active := some a }
  | same {s : Places α} {a : α} {activate : Bool} (h : s.active = some a) :
      Move (.register a activate) s s
  | replace {s : Places α} {a c : α} (h : s.active = some c) (hne : c ≠ a) :
      Move (.register a true) s ⟨some a, s.active, none⟩
  | queue {s : Places α} {a c : α} (h : s.active = some c) (hne : c ≠ a) :
      Move (.register a false) s { s with pending := some a }

namespace Places

/-- Whoever rolls back gets from a version to another one. -/
def Apart (s : Places α) : Prop := s.previous ≠ none → s.active ≠ none ∧ s.active ≠ s.previous

/-- What waits is not what is active. -/
def Fresh (s : Places α) : Prop := s.pending ≠ none → s.active ≠ s.pending

instance [DecidableEq α] (s : Places α) : Decidable s.Apart := inferInstanceAs (Decidable (_ → _))

instance [DecidableEq α] (s : Places α) : Decidable s.Fresh := inferInstanceAs (Decidable (_ → _))

theorem Apart.ne {s : Places α} (h : s.Apart) {a b : α} (ha : s.active = some a)
    (hb : s.previous = some b) : a ≠ b := by
  rintro rfl
  exact (h (by simp [hb])).2 (ha.trans hb.symm)

end Places

variable {s s' : Places α}

theorem Move.previous_of_promote (h : Move .promote s s') :
    s'.previous = s.active ∧ (s.Fresh → s'.active ≠ s'.previous) := by
  cases h with
  | promote hpending =>
    refine ⟨rfl, fun hfresh heq => ?_⟩
    exact hfresh (by simp [hpending]) (heq.symm.trans hpending.symm)

theorem Move.pending_of_promote (h : Move .promote s s') : s.pending ≠ none := by
  cases h with
  | promote hpending => simp [hpending]

theorem Move.active_of_rollBack (h : Move .rollBack s s') :
    s'.active = s.previous ∧ s'.active ≠ none := by
  cases h with
  | rollBack hprevious => exact ⟨hprevious.symm, by simp⟩

/-- Every move but promotion keeps the versions apart, and promotion does if what waits is not
active. -/
theorem Move.apart {action : Action α} (h : Move action s s') (hs : s.Apart)
    (hpromote : action = .promote → s.Fresh) : s'.Apart := by
  cases h with
  | stage => exact hs
  | promote hpending =>
    have hkept := Move.previous_of_promote (.promote hpending)
    exact fun _ => ⟨by simp, hkept.2 (hpromote rfl)⟩
  | rollBack hprevious =>
    refine fun _ => ⟨by simp, fun heq => ?_⟩
    exact (hs (by simp [hprevious])).2 (heq.symm.trans hprevious.symm)
  | drop hprevious _ =>
    rcases hprevious with rfl | rfl
    · exact hs
    · exact fun hne => absurd rfl hne
  | fallBack _ _ => exact fun hne => absurd rfl hne
  | first hactive =>
    intro hne
    exact absurd hactive (hs hne).1
  | same _ => exact hs
  | replace hactive hne =>
    refine fun _ => ⟨by simp, fun heq => ?_⟩
    exact hne (Option.some.inj (hactive.symm.trans heq.symm))
  | queue _ _ => exact hs

end SlotMachine
