import Mathlib.Tactic

/-!
# Transcripts of interactive routines

A routine emits outputs and either returns a value or stops for good. A run feeds a list of
inputs to a step routine, one after the other, until a step stops. What a run emits is described
by one induction over its steps; which states it passes through is described by its visits.
-/

structure Transcript (ω ε α : Type) where
  emitted : List ω
  result : Except ε α

namespace Transcript

variable {ω ε α β σ ι : Type}

/-- Returns a value and emits nothing. -/
def value (a : α) : Transcript ω ε α := ⟨[], .ok a⟩

/-- Ends the whole run. -/
def stop (e : ε) : Transcript ω ε α := ⟨[], .error e⟩

def emit (w : ω) : Transcript ω ε Unit := ⟨[w], .ok ()⟩

/-- A computation that emits nothing. -/
def lift (x : Except ε α) : Transcript ω ε α := ⟨[], x⟩

/-- Goes on whether or not the routine failed. -/
def ignore (t : Transcript ω ε α) : Transcript ω ε Unit := ⟨t.emitted, .ok ()⟩

def andThen (t : Transcript ω ε α) (f : α → Transcript ω ε β) : Transcript ω ε β :=
  match t.result with
  | .error e => ⟨t.emitted, .error e⟩
  | .ok a => ⟨t.emitted ++ (f a).emitted, (f a).result⟩

instance : Monad (Transcript ω ε) where
  pure := value
  bind := andThen

theorem bind_of_error {t : Transcript ω ε α} {e : ε} (h : t.result = .error e)
    (f : α → Transcript ω ε β) : t >>= f = ⟨t.emitted, .error e⟩ := by
  simp only [bind, andThen, h]

theorem bind_of_ok {t : Transcript ω ε α} {a : α} (h : t.result = .ok a)
    (f : α → Transcript ω ε β) : t >>= f = ⟨t.emitted ++ (f a).emitted, (f a).result⟩ := by
  simp only [bind, andThen, h]

@[simp] theorem value_bind (a : α) (f : α → Transcript ω ε β) :
    (value a : Transcript ω ε α) >>= f = f a := rfl

@[simp] theorem stop_bind (e : ε) (f : α → Transcript ω ε β) :
    (stop e : Transcript ω ε α) >>= f = stop e := rfl

@[simp] theorem emit_bind (w : ω) (f : Unit → Transcript ω ε β) :
    (emit w : Transcript ω ε Unit) >>= f = ⟨w :: (f ()).emitted, (f ()).result⟩ := rfl

@[simp] theorem lift_ok_bind (a : α) (f : α → Transcript ω ε β) :
    (lift (.ok a) : Transcript ω ε α) >>= f = f a := rfl

@[simp] theorem lift_error_bind (e : ε) (f : α → Transcript ω ε β) :
    (lift (.error e) : Transcript ω ε α) >>= f = stop e := rfl

@[simp] theorem ignore_bind (t : Transcript ω ε α) (f : Unit → Transcript ω ε β) :
    t.ignore >>= f = ⟨t.emitted ++ (f ()).emitted, (f ()).result⟩ := rfl

/-- Feeds the inputs to the step routine until it stops or they run out. -/
def run (step : σ → ι → Transcript ω ε σ) : σ → List ι → Transcript ω ε σ
  | s, [] => value s
  | s, i :: is => step s i >>= fun s => run step s is

/-- The states in which a run takes a step, each with the input it takes there. -/
def visits (step : σ → ι → Transcript ω ε σ) : σ → List ι → List (σ × ι)
  | _, [] => []
  | s, i :: is =>
    (s, i) :: match (step s i).result with
      | .ok s' => visits step s' is
      | .error _ => []

variable {step : σ → ι → Transcript ω ε σ}

theorem run_cons_of_error {s : σ} {i : ι} {e : ε} (h : (step s i).result = .error e)
    (is : List ι) : run step s (i :: is) = ⟨(step s i).emitted, .error e⟩ :=
  bind_of_error h _

theorem run_cons_of_ok {s s' : σ} {i : ι} (h : (step s i).result = .ok s') (is : List ι) :
    run step s (i :: is) =
      ⟨(step s i).emitted ++ (run step s' is).emitted, (run step s' is).result⟩ :=
  bind_of_ok h _

theorem visits_cons_of_error {s : σ} {i : ι} {e : ε} (h : (step s i).result = .error e)
    (is : List ι) : visits step s (i :: is) = [(s, i)] := by
  simp only [visits, h]

theorem visits_cons_of_ok {s s' : σ} {i : ι} (h : (step s i).result = .ok s') (is : List ι) :
    visits step s (i :: is) = (s, i) :: visits step s' is := by
  simp only [visits, h]

/-- The induction over a run: a relation between the state, the inputs still to come and what the
rest of the run emits, closed under a step that goes on and a step that stops. -/
theorem run_rule {L : σ → List ι → List ω → Prop} (hnil : ∀ s, L s [] [])
    (hnext : ∀ s i is s' out, (step s i).result = .ok s' → L s' is out →
      L s (i :: is) ((step s i).emitted ++ out))
    (hstop : ∀ s i is e, (step s i).result = .error e → L s (i :: is) (step s i).emitted)
    (s : σ) (is : List ι) : L s is (run step s is).emitted := by
  induction is generalizing s with
  | nil => exact hnil s
  | cons i is ih =>
    cases h : (step s i).result with
    | error e =>
      rw [run_cons_of_error h]
      exact hstop s i is e h
    | ok s' =>
      rw [run_cons_of_ok h]
      exact hnext s i is s' _ h (ih s')

theorem emitted_run (s : σ) (is : List ι) :
    (run step s is).emitted =
      (visits step s is).flatMap fun visit => (step visit.1 visit.2).emitted := by
  induction is generalizing s with
  | nil => rfl
  | cons i is ih =>
    cases h : (step s i).result with
    | error e => simp [run_cons_of_error h, visits_cons_of_error h]
    | ok s' => simp [run_cons_of_ok h, visits_cons_of_ok h, ih s']

/-- What holds at the start and is preserved by every step that goes on holds at every visit. -/
theorem forall_visits {I : σ → Prop}
    (hstep : ∀ s i s', I s → (step s i).result = .ok s' → I s') {s : σ} (hs : I s)
    (is : List ι) : ∀ visit ∈ visits step s is, I visit.1 := by
  induction is generalizing s with
  | nil => simp [visits]
  | cons i is ih =>
    intro visit hvisit
    cases h : (step s i).result with
    | error e =>
      rw [visits_cons_of_error h, List.mem_singleton] at hvisit
      rw [hvisit]
      exact hs
    | ok s' =>
      rw [visits_cons_of_ok h] at hvisit
      rcases List.mem_cons.mp hvisit with rfl | hvisit
      · exact hs
      · exact ih (hstep s i s' hs h) visit hvisit

theorem visits_inputs_prefix (s : σ) (is : List ι) :
    ((visits step s is).map Prod.snd) <+: is := by
  induction is generalizing s with
  | nil => simp [visits]
  | cons i is ih =>
    cases h : (step s i).result with
    | error e => simp [visits_cons_of_error h]
    | ok s' => simpa [visits_cons_of_ok h] using ih s'

theorem bind_prefix (t : Transcript ω ε α) {f g : α → Transcript ω ε β}
    (hfg : ∀ a, (f a).emitted <+: (g a).emitted) : (t >>= f).emitted <+: (t >>= g).emitted := by
  cases h : t.result with
  | error e => rw [bind_of_error h, bind_of_error h]
  | ok a =>
    rw [bind_of_ok h, bind_of_ok h]
    exact (List.prefix_append_right_inj t.emitted).mpr (hfg a)

theorem run_prefix (step : σ → ι → Transcript ω ε σ) (s : σ) (is js : List ι) :
    (run step s is).emitted <+: (run step s (is ++ js)).emitted := by
  induction is generalizing s with
  | nil => exact List.nil_prefix
  | cons i is ih => exact bind_prefix (step s i) ih

end Transcript
