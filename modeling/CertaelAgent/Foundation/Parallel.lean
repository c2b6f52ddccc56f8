import CertaelAgent.Foundation.Program
import Mathlib.Logic.Relation

/-!
# Programs beside each other

Several programs work on one device, one operation at a time and in any order. Each of them relies
on the others to change the device in certain ways only, and guarantees how it changes the device
itself; what it relies on may depend on what it holds, a token that only its own operations change.
Tokens that are compatible keep every guarantee within what the others rely on, so that what each
program has been proved to do alone holds of all of them together. A program that is cut off is one
that is not scheduled any more.
-/

namespace Program

variable {Op : Type} {Reply : Op → Type} {ε α β S T : Type}

/-- Beside others that keep to `R`, every operation of the program changes what it holds and the
device within `G`, and `Q` holds of its result. -/
def Guarantees (d : Device Op Reply S) (mayFail : Op → Bool) (R : T → S → S → Prop)
    (G : T → T → S → S → Prop) (Q : Except ε α → T → S → Prop) :
    Program Op Reply ε α → T → S → Prop
  | done result, t, s => ∀ s', R t s s' → Q result t s'
  | call op next, t, s => ∀ s', R t s s' →
      (∃ t', G t t' s' (d.perform op s').2 ∧
        Guarantees d mayFail R G Q (next (d.perform op s').1) t' (d.perform op s').2) ∧
      (mayFail op → Guarantees d mayFail R G Q (next (d.failed op)) t s')

variable {d : Device Op Reply S} {mayFail : Op → Bool} {R : T → S → S → Prop}
  {G : T → T → S → S → Prop} {Q Q' : Except ε α → T → S → Prop} {t : T} {s s' : S}

theorem guarantees_later (htrans : ∀ t s s' s'', R t s s' → R t s' s'' → R t s s'')
    {p : Program Op Reply ε α} (h : Guarantees d mayFail R G Q p t s) (hs : R t s s') :
    Guarantees d mayFail R G Q p t s' := by
  cases p with
  | done result => exact fun s'' hs' => h s'' (htrans t s s' s'' hs hs')
  | call op next => exact fun s'' hs' => h s'' (htrans t s s' s'' hs hs')

theorem guarantees_mono {p : Program Op Reply ε α} (h : Guarantees d mayFail R G Q p t s)
    (hQ : ∀ r t s, Q r t s → Q' r t s) : Guarantees d mayFail R G Q' p t s := by
  induction p generalizing t s with
  | done result => exact fun s' hs => hQ _ _ _ (h s' hs)
  | call op next ih =>
    intro s' hs
    obtain ⟨⟨t', hG, hnext⟩, hfailed⟩ := h s' hs
    exact ⟨⟨t', hG, ih _ hnext⟩, fun hf => ih _ (hfailed hf)⟩

theorem guarantees_bind (hrefl : ∀ t s, R t s s) {p : Program Op Reply ε α}
    {f : α → Program Op Reply ε β} {Q' : Except ε β → T → S → Prop}
    (h : Guarantees d mayFail R G (fun r t' s' => match r with
      | .ok a => Guarantees d mayFail R G Q' (f a) t' s'
      | .error e => Q' (.error e) t' s') p t s) : Guarantees d mayFail R G Q' (p >>= f) t s := by
  induction p generalizing t s with
  | done result =>
    cases result with
    | ok a => exact h s (hrefl t s)
    | error e => exact h
  | call op next ih =>
    intro s' hs
    obtain ⟨⟨t', hG, hnext⟩, hfailed⟩ := h s' hs
    exact ⟨⟨t', hG, ih _ hnext⟩, fun hf => ih _ (hfailed hf)⟩

theorem guarantees_attempt {p : Program Op Reply ε α} {Q' : Except ε (Except ε α) → T → S → Prop}
    (h : Guarantees d mayFail R G (fun r => Q' (.ok r)) p t s) :
    Guarantees d mayFail R G Q' (attempt p) t s := by
  induction p generalizing t s with
  | done result => exact h
  | call op next ih =>
    intro s' hs
    obtain ⟨⟨t', hG, hnext⟩, hfailed⟩ := h s' hs
    exact ⟨⟨t', hG, ih _ hnext⟩, fun hf => ih _ (hfailed hf)⟩

theorem guarantees_ensure_bind (hrefl : ∀ t s, R t s s) {e : ε} {p : Program Op Reply ε Bool}
    {f : Unit → Program Op Reply ε β} {Q' : Except ε β → T → S → Prop}
    (h : Guarantees d mayFail R G (fun r t' s' => match r with
      | .ok true => Guarantees d mayFail R G Q' (f ()) t' s'
      | .ok false => Q' (.error e) t' s'
      | .error e' => Q' (.error e') t' s') p t s) :
    Guarantees d mayFail R G Q' (ensure e p >>= f) t s := by
  induction p generalizing t s with
  | done result =>
    match result with
    | .ok true => exact h s (hrefl t s)
    | .ok false => exact h
    | .error e' => exact h
  | call op next ih =>
    intro s' hs
    obtain ⟨⟨t', hG, hnext⟩, hfailed⟩ := h s' hs
    exact ⟨⟨t', hG, ih _ hnext⟩, fun hf => ih _ (hfailed hf)⟩

/-! ## A pool of programs -/

variable {ι : Type} [DecidableEq ι] {result : ι → Type}

/-- The next operation of one of the programs, which fails if it can and shall. -/
def poolStep (d : Device Op Reply S) (mayFail : Op → Bool)
    (pool : (∀ i, Program Op Reply ε (result i)) × S) (turn : ι × Bool) :
    (∀ i, Program Op Reply ε (result i)) × S :=
  match pool.1 turn.1 with
  | done _ => pool
  | call op next =>
    if mayFail op && turn.2 then (Function.update pool.1 turn.1 (next (d.failed op)), pool.2)
    else (Function.update pool.1 turn.1 (next (d.perform op pool.2).1), (d.perform op pool.2).2)

def poolRun (d : Device Op Reply S) (mayFail : Op → Bool) (turns : List (ι × Bool))
    (pool : (∀ i, Program Op Reply ε (result i)) × S) : (∀ i, Program Op Reply ε (result i)) × S :=
  turns.foldl (poolStep d mayFail) pool

/-- Guarantees that hold beside each other. -/
structure Harmony (R : ι → T → S → S → Prop) (G : ι → T → T → S → S → Prop)
    (C : (ι → T) → S → Prop) : Prop where
  refl : ∀ i t s, R i t s s
  trans : ∀ i t s s' s'', R i t s s' → R i t s' s'' → R i t s s''
  within : ∀ i holds t s s', C holds s → G i (holds i) t s s' →
    C (Function.update holds i t) s' ∧ ∀ j, j ≠ i → R j (holds j) s s'

/-- Every program keeps to its guarantee beside all the others. -/
structure Parallel (d : Device Op Reply S) (mayFail : Op → Bool) (R : ι → T → S → S → Prop)
    (G : ι → T → T → S → S → Prop) (C : (ι → T) → S → Prop)
    (Q : ∀ i, Except ε (result i) → S → Prop) (holds : ι → T)
    (pool : (∀ i, Program Op Reply ε (result i)) × S) : Prop where
  compatible : C holds pool.2
  keeps : ∀ i, Guarantees d mayFail (R i) (G i) (fun r _ => Q i r) (pool.1 i) (holds i) pool.2

variable {R : ι → T → S → S → Prop} {G : ι → T → T → S → S → Prop} {C : (ι → T) → S → Prop}
  {Q : ∀ i, Except ε (result i) → S → Prop} {holds : ι → T}
  {pool : (∀ i, Program Op Reply ε (result i)) × S}

theorem Parallel.update (hR : Harmony R G C) (h : Parallel d mayFail R G C Q holds pool) {i : ι}
    {p : Program Op Reply ε (result i)}
    (hp : Guarantees d mayFail (R i) (G i) (fun r _ => Q i r) p t s)
    (hC : C (Function.update holds i t) s) (hothers : ∀ j, j ≠ i → R j (holds j) pool.2 s) :
    Parallel d mayFail R G C Q (Function.update holds i t) (Function.update pool.1 i p, s) := by
  refine ⟨hC, ?_⟩
  intro j
  dsimp only
  by_cases hj : j = i
  · subst hj
    rw [Function.update_self, Function.update_self]
    exact hp
  · rw [Function.update_of_ne hj, Function.update_of_ne hj]
    exact guarantees_later (hR.trans j) (h.keeps j) (hothers j hj)

theorem Parallel.step (hR : Harmony R G C) (h : Parallel d mayFail R G C Q holds pool)
    (turn : ι × Bool) :
    ∃ holds', Parallel d mayFail R G C Q holds' (poolStep d mayFail pool turn) ∧
      ((poolStep d mayFail pool turn).2 = pool.2 ∨
        G turn.1 (holds turn.1) (holds' turn.1) pool.2 (poolStep d mayFail pool turn).2) := by
  obtain ⟨i, fault⟩ := turn
  have hkeeps := h.keeps i
  unfold poolStep
  dsimp only
  cases hprogram : pool.1 i with
  | done r => exact ⟨holds, h, .inl rfl⟩
  | call op next =>
    rw [hprogram] at hkeeps
    obtain ⟨⟨t, hG, hnext⟩, hfailed⟩ := hkeeps pool.2 (hR.refl i (holds i) pool.2)
    dsimp only
    split_ifs with hfault
    · have hfails : mayFail op = true := (Bool.and_eq_true_iff.mp hfault).1
      refine ⟨holds, ?_, .inl rfl⟩
      have hupdate := h.update hR (hfailed hfails)
        (by rw [Function.update_eq_self]; exact h.compatible) fun j _ => hR.refl j (holds j) pool.2
      rwa [Function.update_eq_self] at hupdate
    · obtain ⟨hC, hothers⟩ := hR.within i holds t pool.2 _ h.compatible hG
      refine ⟨Function.update holds i t, h.update hR hnext hC hothers, .inr ?_⟩
      rwa [Function.update_self]

/-- In every run each program keeps to its guarantee, and the device changes by guaranteed
operations only. -/
theorem Parallel.run (hR : Harmony R G C) (h : Parallel d mayFail R G C Q holds pool)
    (turns : List (ι × Bool)) :
    (∃ holds', Parallel d mayFail R G C Q holds' (poolRun d mayFail turns pool)) ∧
      Relation.ReflTransGen (fun s s' => ∃ i t t', G i t t' s s') pool.2
        (poolRun d mayFail turns pool).2 := by
  induction turns generalizing pool holds with
  | nil => exact ⟨⟨holds, h⟩, .refl⟩
  | cons turn turns ih =>
    obtain ⟨holds', hstep, hchange⟩ := h.step hR turn
    obtain ⟨hrun, hreach⟩ := ih hstep
    refine ⟨hrun, ?_⟩
    rcases hchange with hsame | hchange
    · rwa [hsame] at hreach
    · exact .head ⟨turn.1, _, _, hchange⟩ hreach

omit [DecidableEq ι] in
theorem Parallel.result_holds (hrefl : ∀ i t s, R i t s s)
    (h : Parallel d mayFail R G C Q holds pool) {i : ι} {r : Except ε (result i)}
    (hdone : pool.1 i = done r) : Q i r pool.2 := by
  have hkeeps := h.keeps i
  rw [hdone] at hkeeps
  exact hkeeps pool.2 (hrefl i (holds i) pool.2)

end Program
