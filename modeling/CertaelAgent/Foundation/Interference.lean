import CertaelAgent.Foundation.Program

/-!
# Programs beside another party

Between any two operations of a program another party may change the state of the device. A turn
says what it does there and what becomes of the operation behind it. The rely condition bounds the
other party; an assumption says more of the states in which operations find the device. Under both,
one assertion holds in front of every operation and another one of the result.
-/

namespace Program

variable {Op : Type} {Reply : Op → Type} {ε α β S : Type}

structure Turn (S : Type) where
  other : S → S
  verdict : Verdict

/-- The execution in which the other party acts before every operation and behind the last one;
it is done when the turns have run out. -/
def interleave (d : Device Op Reply S) (mayFail : Op → Bool) :
    Program Op Reply ε α → List (Turn S) → S → Outcome ε α S
  | done result, [], s => .finished result s
  | done result, turn :: _, s => .finished result (turn.other s)
  | call op next, [], s => interleave d mayFail (next (d.perform op s).1) [] (d.perform op s).2
  | call op next, turn :: turns, s =>
    let s := turn.other s
    match turn.verdict with
    | .proceed => interleave d mayFail (next (d.perform op s).1) turns (d.perform op s).2
    | .fault =>
      if mayFail op then interleave d mayFail (next (d.failed op)) turns s
      else interleave d mayFail (next (d.perform op s).1) turns (d.perform op s).2
    | .crash => .crashed s

/-- The operations of such an execution, with the states in which they find the device. -/
def issued (d : Device Op Reply S) (mayFail : Op → Bool) :
    Program Op Reply ε α → List (Turn S) → S → List (Op × S)
  | done _, _, _ => []
  | call op next, [], s => (op, s) :: issued d mayFail (next (d.perform op s).1) [] (d.perform op s).2
  | call op next, turn :: turns, s =>
    let s := turn.other s
    (op, s) :: match turn.verdict with
    | .proceed => issued d mayFail (next (d.perform op s).1) turns (d.perform op s).2
    | .fault =>
      if mayFail op then issued d mayFail (next (d.failed op)) turns s
      else issued d mayFail (next (d.perform op s).1) turns (d.perform op s).2
    | .crash => []

/-- Beside a party that keeps to `R`, and as long as operations find the device as `A` says, `I`
holds in front of every operation and `Q` of the result. -/
def rely (d : Device Op Reply S) (mayFail : Op → Bool) (R : S → S → Prop) (A : Op → S → Prop)
    (I : S → Prop) (Q : Except ε α → S → Prop) : Program Op Reply ε α → S → Prop
  | done result, s => ∀ s', R s s' → Q result s'
  | call op next, s => ∀ s', R s s' → I s' ∧ (A op s' →
      rely d mayFail R A I Q (next (d.perform op s').1) (d.perform op s').2 ∧
        (mayFail op → rely d mayFail R A I Q (next (d.failed op)) s'))

variable {d : Device Op Reply S} {mayFail : Op → Bool} {R : S → S → Prop} {A : Op → S → Prop}
  {I : S → Prop} {Q Q' : Except ε α → S → Prop} {s : S}

theorem rely_mono {p : Program Op Reply ε α} (h : rely d mayFail R A I Q p s)
    (hQ : ∀ r s, Q r s → Q' r s) : rely d mayFail R A I Q' p s := by
  induction p generalizing s with
  | done result => exact fun s' hs => hQ _ _ (h s' hs)
  | call op next ih =>
    intro s' hs
    obtain ⟨hI, hrest⟩ := h s' hs
    refine ⟨hI, fun hA => ?_⟩
    obtain ⟨hnext, hfailed⟩ := hrest hA
    exact ⟨ih _ hnext, fun hf => ih _ (hfailed hf)⟩

theorem rely_later (htrans : ∀ s t u, R s t → R t u → R s u) {p : Program Op Reply ε α} {s' : S}
    (h : rely d mayFail R A I Q p s) (hs : R s s') : rely d mayFail R A I Q p s' := by
  cases p with
  | done result => exact fun s'' hs' => h s'' (htrans s s' s'' hs hs')
  | call op next => exact fun s'' hs' => h s'' (htrans s s' s'' hs hs')

theorem rely_bind (hrefl : ∀ s, R s s) {p : Program Op Reply ε α} {f : α → Program Op Reply ε β}
    {R' : Except ε β → S → Prop} (h : rely d mayFail R A I (fun r s' => match r with
      | .ok a => rely d mayFail R A I R' (f a) s'
      | .error e => R' (.error e) s') p s) : rely d mayFail R A I R' (p >>= f) s := by
  induction p generalizing s with
  | done result =>
    cases result with
    | ok a => exact h s (hrefl s)
    | error e => exact h
  | call op next ih =>
    intro s' hs
    obtain ⟨hI, hrest⟩ := h s' hs
    refine ⟨hI, fun hA => ?_⟩
    obtain ⟨hnext, hfailed⟩ := hrest hA
    exact ⟨ih _ hnext, fun hf => ih _ (hfailed hf)⟩

theorem rely_attempt {p : Program Op Reply ε α} {R' : Except ε (Except ε α) → S → Prop}
    (h : rely d mayFail R A I (fun r s' => R' (.ok r) s') p s) :
    rely d mayFail R A I R' (attempt p) s := by
  induction p generalizing s with
  | done result => exact h
  | call op next ih =>
    intro s' hs
    obtain ⟨hI, hrest⟩ := h s' hs
    refine ⟨hI, fun hA => ?_⟩
    obtain ⟨hnext, hfailed⟩ := hrest hA
    exact ⟨ih _ hnext, fun hf => ih _ (hfailed hf)⟩

/-- What holds of all executions holds of each of them. -/
theorem rely_sound (hrefl : ∀ s, R s s) {p : Program Op Reply ε α} {turns : List (Turn S)}
    (h : rely d mayFail R A I Q p s) (hturns : ∀ turn ∈ turns, ∀ s, R s (turn.other s))
    (hassumed : ∀ step ∈ issued d mayFail p turns s, A step.1 step.2) :
    (interleave d mayFail p turns s).Satisfies I Q ∧
      ∀ step ∈ issued d mayFail p turns s, I step.2 := by
  induction p generalizing s turns with
  | done result =>
    cases turns with
    | nil => exact ⟨h s (hrefl s), by simp [issued]⟩
    | cons turn turns =>
      exact ⟨h _ (hturns turn (List.mem_cons_self ..) s), by simp [issued]⟩
  | call op next ih =>
    cases turns with
    | nil =>
      obtain ⟨hA, hlater⟩ := List.forall_mem_cons.mp hassumed
      obtain ⟨hI, hrest⟩ := h s (hrefl s)
      obtain ⟨hsatisfies, hsteps⟩ := ih _ (hrest hA).1 hturns hlater
      exact ⟨hsatisfies, List.forall_mem_cons.mpr ⟨hI, hsteps⟩⟩
    | cons turn turns =>
      obtain ⟨hturn, hturns⟩ := List.forall_mem_cons.mp hturns
      obtain ⟨hA, hlater⟩ := List.forall_mem_cons.mp hassumed
      obtain ⟨hI, hrest⟩ := h _ (hturn s)
      obtain ⟨hnext, hfailed⟩ := hrest hA
      unfold interleave issued
      cases hverdict : turn.verdict with
      | proceed =>
        simp only [hverdict] at hlater ⊢
        obtain ⟨hsatisfies, hsteps⟩ := ih _ hnext hturns hlater
        exact ⟨hsatisfies, List.forall_mem_cons.mpr ⟨hI, hsteps⟩⟩
      | fault =>
        simp only [hverdict] at hlater ⊢
        split_ifs at hlater ⊢ with hf
        · obtain ⟨hsatisfies, hsteps⟩ := ih _ (hfailed hf) hturns hlater
          exact ⟨hsatisfies, List.forall_mem_cons.mpr ⟨hI, hsteps⟩⟩
        · obtain ⟨hsatisfies, hsteps⟩ := ih _ hnext hturns hlater
          exact ⟨hsatisfies, List.forall_mem_cons.mpr ⟨hI, hsteps⟩⟩
      | crash => exact ⟨hI, List.forall_mem_cons.mpr ⟨hI, by simp⟩⟩

/-- The assumption is about the first part of a program alone. -/
theorem rely_sound_bind (hrefl : ∀ s, R s s) {p : Program Op Reply ε α}
    {f : α → Program Op Reply ε β} {R' : Except ε β → S → Prop} {turns : List (Turn S)}
    (h : rely d mayFail R A I (fun r s' => match r with
      | .ok a => rely d mayFail R (fun _ _ => True) I R' (f a) s'
      | .error e => R' (.error e) s') p s)
    (hturns : ∀ turn ∈ turns, ∀ s, R s (turn.other s))
    (hassumed : ∀ step ∈ issued d mayFail p turns s, A step.1 step.2) :
    (interleave d mayFail (p >>= f) turns s).Satisfies I R' ∧
      ∀ step ∈ issued d mayFail (p >>= f) turns s, I step.2 := by
  induction p generalizing s turns with
  | done result =>
    cases result with
    | ok a => exact rely_sound hrefl (h s (hrefl s)) hturns fun _ _ => trivial
    | error e => exact rely_sound hrefl (A := fun _ _ => True) h hturns fun _ _ => trivial
  | call op next ih =>
    rw [call_bind]
    cases turns with
    | nil =>
      obtain ⟨hA, hlater⟩ := List.forall_mem_cons.mp hassumed
      obtain ⟨hI, hrest⟩ := h s (hrefl s)
      obtain ⟨hsatisfies, hsteps⟩ := ih _ (hrest hA).1 hturns hlater
      exact ⟨hsatisfies, List.forall_mem_cons.mpr ⟨hI, hsteps⟩⟩
    | cons turn turns =>
      obtain ⟨hturn, hturns⟩ := List.forall_mem_cons.mp hturns
      obtain ⟨hA, hlater⟩ := List.forall_mem_cons.mp hassumed
      obtain ⟨hI, hrest⟩ := h _ (hturn s)
      obtain ⟨hnext, hfailed⟩ := hrest hA
      unfold interleave issued
      cases hverdict : turn.verdict with
      | proceed =>
        simp only [hverdict] at hlater ⊢
        obtain ⟨hsatisfies, hsteps⟩ := ih _ hnext hturns hlater
        exact ⟨hsatisfies, List.forall_mem_cons.mpr ⟨hI, hsteps⟩⟩
      | fault =>
        simp only [hverdict] at hlater ⊢
        split_ifs at hlater ⊢ with hf
        · obtain ⟨hsatisfies, hsteps⟩ := ih _ (hfailed hf) hturns hlater
          exact ⟨hsatisfies, List.forall_mem_cons.mpr ⟨hI, hsteps⟩⟩
        · obtain ⟨hsatisfies, hsteps⟩ := ih _ hnext hturns hlater
          exact ⟨hsatisfies, List.forall_mem_cons.mpr ⟨hI, hsteps⟩⟩
      | crash => exact ⟨hI, List.forall_mem_cons.mpr ⟨hI, by simp⟩⟩

end Program
