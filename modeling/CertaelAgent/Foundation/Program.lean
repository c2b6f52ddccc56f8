import CertaelAgent.Foundation.Results

/-!
# Programs over a device that may fail or stop

A program issues operations one after the other and decides by each reply how to go on. A device
answers operations and changes its state; an operation may also fail without effect, and the
whole program may be cut off in front of any operation. A schedule says which of the three
happens at every operation.

Weakest preconditions cover all schedules at once: an assertion that has to hold wherever the
program may be cut off, and one that has to hold of its result. The undisturbed execution is a
function, and read-only programs are evaluated without looking at schedules at all.
-/

inductive Program (Op : Type) (Reply : Op → Type) (ε α : Type)
  | done (result : Except ε α)
  | call (op : Op) (next : Reply op → Program Op Reply ε α)

/-- Some operations of a device only read. -/
structure Device (Op : Type) (Reply : Op → Type) (S : Type) where
  perform : (op : Op) → S → Reply op × S
  failed : (op : Op) → Reply op
  reads : Op → Bool
  perform_reads : ∀ op s, reads op → (perform op s).2 = s

inductive Verdict
  | proceed
  | fault
  | crash
deriving DecidableEq, Repr

/-- A program ends with a result, or is cut off. -/
inductive Outcome (ε α S : Type)
  | finished (result : Except ε α) (state : S)
  | crashed (state : S)

/-- The program was cut off in `I` or has finished in `Q`. -/
def Outcome.Satisfies {ε α S : Type} (I : S → Prop) (Q : Except ε α → S → Prop) :
    Outcome ε α S → Prop
  | .finished r s => Q r s
  | .crashed s => I s

/-- Where the program left the device. -/
def Outcome.state {ε α S : Type} : Outcome ε α S → S
  | .finished _ s => s
  | .crashed s => s

theorem Outcome.Satisfies.state {ε α S : Type} {I : S → Prop} {o : Outcome ε α S}
    (h : o.Satisfies I fun _ => I) : I o.state := by
  cases o <;> exact h

namespace Program

variable {Op : Type} {Reply : Op → Type} {ε α β S : Type}

def andThen (f : α → Program Op Reply ε β) : Program Op Reply ε α → Program Op Reply ε β
  | done (.ok a) => f a
  | done (.error e) => done (.error e)
  | call op next => call op fun reply => andThen f (next reply)

instance : Monad (Program Op Reply ε) where
  pure a := done (.ok a)
  bind p f := andThen f p

/-- A single operation. -/
def perform (op : Op) : Program Op Reply ε (Reply op) := call op fun reply => done (.ok reply)

def fail (e : ε) : Program Op Reply ε α := done (.error e)

/-- Hands the result of a program on, failure or not. -/
def attempt : Program Op Reply ε α → Program Op Reply ε (Except ε α)
  | done result => done (.ok result)
  | call op next => call op fun reply => attempt (next reply)

/-- Hands the result on to a program with other errors. -/
def capture {ε' : Type} : Program Op Reply ε α → Program Op Reply ε' (Except ε α)
  | done result => done (.ok result)
  | call op next => call op fun reply => capture (next reply)

/-- Drops the result. -/
def ignore (p : Program Op Reply ε α) : Program Op Reply ε Unit := p >>= fun _ => done (.ok ())

/-- Fails with `e` where there is nothing. -/
def expect (e : ε) (p : Program Op Reply ε (Option α)) : Program Op Reply ε α :=
  p >>= fun
    | some a => done (.ok a)
    | none => done (.error e)

/-- Fails with `e` unless the program says yes. -/
def ensure (e : ε) (p : Program Op Reply ε Bool) : Program Op Reply ε Unit :=
  p >>= fun
    | true => done (.ok ())
    | false => done (.error e)

def require (e : ε) (P : Prop) [Decidable P] : Program Op Reply ε Unit :=
  if P then done (.ok ()) else done (.error e)

@[simp] theorem done_ok_bind (a : α) (f : α → Program Op Reply ε β) :
    (done (.ok a) : Program Op Reply ε α) >>= f = f a := rfl

@[simp] theorem done_error_bind (e : ε) (f : α → Program Op Reply ε β) :
    (done (.error e) : Program Op Reply ε α) >>= f = done (.error e) := rfl

@[simp] theorem fail_bind (e : ε) (f : α → Program Op Reply ε β) :
    (fail e : Program Op Reply ε α) >>= f = fail e := rfl

@[simp] theorem call_bind (op : Op) (next : Reply op → Program Op Reply ε α)
    (f : α → Program Op Reply ε β) :
    call op next >>= f = call op fun reply => next reply >>= f := rfl

@[simp] theorem perform_bind (op : Op) (f : Reply op → Program Op Reply ε β) :
    (perform op : Program Op Reply ε (Reply op)) >>= f = call op f := rfl

@[simp] theorem pure_eq_done (a : α) : (pure a : Program Op Reply ε α) = done (.ok a) := rfl

/-- The execution that nothing disturbs. -/
def exec (d : Device Op Reply S) : Program Op Reply ε α → S → Except ε α × S
  | done result, s => (result, s)
  | call op next, s => exec d (next (d.perform op s).1) (d.perform op s).2

/-- The execution under a schedule; an operation that cannot fail proceeds where its verdict is a
fault, and nothing goes wrong after the schedule has run out. -/
def run (d : Device Op Reply S) (mayFail : Op → Bool) :
    Program Op Reply ε α → List Verdict → S → Outcome ε α S
  | done result, _, s => .finished result s
  | call op next, [], s => run d mayFail (next (d.perform op s).1) [] (d.perform op s).2
  | call op next, verdict :: schedule, s =>
    match verdict with
    | .proceed => run d mayFail (next (d.perform op s).1) schedule (d.perform op s).2
    | .fault =>
      if mayFail op then run d mayFail (next (d.failed op)) schedule s
      else run d mayFail (next (d.perform op s).1) schedule (d.perform op s).2
    | .crash => .crashed s

variable {d : Device Op Reply S} {mayFail : Op → Bool}

theorem exec_bind (p : Program Op Reply ε α) (f : α → Program Op Reply ε β) (s : S) :
    exec d (p >>= f) s = match exec d p s with
      | (.ok a, s') => exec d (f a) s'
      | (.error e, s') => (.error e, s') := by
  induction p generalizing s with
  | done result => cases result <;> rfl
  | call op next ih => exact ih _ _

theorem exec_attempt (p : Program Op Reply ε α) (s : S) :
    exec d (attempt p) s = (.ok (exec d p s).1, (exec d p s).2) := by
  induction p generalizing s with
  | done result => rfl
  | call op next ih => exact ih _ _

theorem exec_capture {ε' : Type} (p : Program Op Reply ε α) (s : S) :
    exec d (capture p : Program Op Reply ε' (Except ε α)) s =
      (.ok (exec d p s).1, (exec d p s).2) := by
  induction p generalizing s with
  | done result => rfl
  | call op next ih => exact ih _ _

theorem exec_require_bind {e : ε} {P : Prop} [Decidable P] (h : P)
    {f : Unit → Program Op Reply ε β} {s : S} :
    exec d (require e P >>= f) s = exec d (f ()) s := by
  rw [require, if_pos h]
  rfl

theorem exec_done_bind_ok {result : Except ε α} {a : α} (h : result = .ok a)
    {f : α → Program Op Reply ε β} {s : S} : exec d (done result >>= f) s = exec d (f a) s := by
  rw [h]
  rfl

theorem exec_ensure_bind {e : ε} {p : Program Op Reply ε Bool} {f : Unit → Program Op Reply ε β}
    {s s' : S} (h : exec d p s = (.ok true, s')) :
    exec d (ensure e p >>= f) s = exec d (f ()) s' := by
  have hensure : exec d (ensure e p) s = (.ok (), s') := by
    rw [ensure, exec_bind, h]
    rfl
  rw [exec_bind, hensure]

theorem exec_ignore (p : Program Op Reply ε α) (s : S) :
    (exec d (ignore p) s).2 = (exec d p s).2 := by
  rw [ignore, exec_bind]
  rcases exec d p s with ⟨r, s'⟩
  cases r <;> rfl

theorem run_nil (p : Program Op Reply ε α) (s : S) :
    run d mayFail p [] s = .finished (exec d p s).1 (exec d p s).2 := by
  induction p generalizing s with
  | done result => rfl
  | call op next ih => exact ih _ _

/-- `I` holds wherever the program may be cut off, `Q` of its result and the last state. -/
def wp (d : Device Op Reply S) (mayFail : Op → Bool) (I : S → Prop) (Q : Except ε α → S → Prop) :
    Program Op Reply ε α → S → Prop
  | done result, s => Q result s
  | call op next, s => I s ∧
      wp d mayFail I Q (next (d.perform op s).1) (d.perform op s).2 ∧
      (mayFail op → wp d mayFail I Q (next (d.failed op)) s)

/-- What is to hold after a success, and after an error. -/
def outcome (ok : α → S → Prop) (error : ε → S → Prop) : Except ε α → S → Prop
  | .ok a, s => ok a s
  | .error e, s => error e s

variable {I : S → Prop} {Q Q' : Except ε α → S → Prop}

@[simp] theorem wp_done {result : Except ε α} {s : S} :
    wp d mayFail I Q (done result) s ↔ Q result s := Iff.rfl

@[simp] theorem wp_fail {e : ε} {s : S} :
    wp d mayFail I Q (fail e) s ↔ Q (.error e) s := Iff.rfl

theorem wp_read {op : Op} {next : Reply op → Program Op Reply ε α} {s : S} (hreads : d.reads op)
    (hI : I s) (h : ∀ reply, wp d mayFail I Q (next reply) s) :
    wp d mayFail I Q (call op next) s := by
  refine ⟨hI, ?_, fun _ => h _⟩
  rw [d.perform_reads op s hreads]
  exact h _

/-- A read that cannot fail has the reply that the state gives. -/
theorem wp_read_of_quiet {op : Op} {next : Reply op → Program Op Reply ε α} {s : S}
    (hreads : d.reads op) (hquiet : ¬ mayFail op) (hI : I s)
    (h : wp d mayFail I Q (next (d.perform op s).1) s) : wp d mayFail I Q (call op next) s := by
  refine ⟨hI, ?_, fun hfails => absurd hfails hquiet⟩
  rwa [d.perform_reads op s hreads]

theorem wp_weaken {J : S → Prop} {p : Program Op Reply ε α} {s : S} (h : wp d mayFail I Q p s)
    (hI : ∀ s, I s → J s) (hQ : ∀ r s, Q r s → Q' r s) : wp d mayFail J Q' p s := by
  induction p generalizing s with
  | done result => exact hQ _ _ h
  | call op next ih => exact ⟨hI _ h.1, ih _ h.2.1, fun hf => ih _ (h.2.2 hf)⟩

theorem wp_mono {p : Program Op Reply ε α} {s : S} (h : wp d mayFail I Q p s)
    (hQ : ∀ r s, Q r s → Q' r s) : wp d mayFail I Q' p s :=
  wp_weaken h (fun _ hs => hs) hQ

/-- A first part that succeeds is followed by the second; one that fails ends the program. -/
theorem wp_bind {p : Program Op Reply ε α} {f : α → Program Op Reply ε β}
    {R : Except ε β → S → Prop} {s : S}
    (h : wp d mayFail I (fun r s' => match r with
      | .ok a => wp d mayFail I R (f a) s'
      | .error e => R (.error e) s') p s) :
    wp d mayFail I R (p >>= f) s := by
  induction p generalizing s with
  | done result => cases result <;> exact h
  | call op next ih => exact ⟨h.1, ih _ h.2.1, fun hf => ih _ (h.2.2 hf)⟩

theorem wp_any_bind {p : Program Op Reply ε α} {f : α → Program Op Reply ε β}
    {R : Except ε β → S → Prop} {s : S} (hI : ∀ s, I s) (hok : ∀ a s, wp d mayFail I R (f a) s)
    (herror : ∀ e s, R (.error e) s) : wp d mayFail I R (p >>= f) s := by
  induction p generalizing s with
  | done result =>
    cases result with
    | ok a => exact hok a s
    | error e => exact herror e s
  | call op next ih => exact ⟨hI s, ih _, fun _ => ih _⟩

theorem wp_ignore {p : Program Op Reply ε α} {J : S → Prop} {s : S}
    (h : wp d mayFail I (fun _ => J) p s) : wp d mayFail I (fun _ => J) (ignore p) s := by
  refine wp_bind (wp_mono h fun r s' hs => ?_)
  cases r <;> exact hs

section

variable {R : Except ε β → S → Prop} {s : S} {e : ε}

theorem wp_done_bind {result : Except ε α} {f : α → Program Op Reply ε β}
    (hok : ∀ a, result = .ok a → wp d mayFail I R (f a) s)
    (herror : ∀ e, result = .error e → R (.error e) s) :
    wp d mayFail I R (done result >>= f) s := by
  cases result with
  | ok a => exact hok a rfl
  | error e => exact herror e rfl

theorem wp_require_bind {P : Prop} [Decidable P] {f : Unit → Program Op Reply ε β}
    (hyes : P → wp d mayFail I R (f ()) s) (hno : ¬ P → R (.error e) s) :
    wp d mayFail I R (require e P >>= f) s := by
  unfold require
  split_ifs with h
  · exact hyes h
  · exact hno h

theorem wp_expect_done_bind {o : Option α} {f : α → Program Op Reply ε β}
    (hsome : ∀ a, o = some a → wp d mayFail I R (f a) s) (hnone : o = none → R (.error e) s) :
    wp d mayFail I R (expect e (done (.ok o)) >>= f) s := by
  cases o with
  | some a => exact hsome a rfl
  | none => exact hnone rfl

theorem wp_ensure_bind {p : Program Op Reply ε Bool} {f : Unit → Program Op Reply ε β}
    (h : wp d mayFail I (fun r s' => match r with
      | .ok true => wp d mayFail I R (f ()) s'
      | .ok false => R (.error e) s'
      | .error e' => R (.error e') s') p s) :
    wp d mayFail I R (ensure e p >>= f) s := by
  refine wp_bind (wp_bind (wp_mono h fun r s' hr => ?_))
  match r with
  | .ok true => exact hr
  | .ok false => exact hr
  | .error e' => exact hr

theorem wp_ensure {p : Program Op Reply ε Bool} {Q : Except ε Unit → S → Prop}
    (h : wp d mayFail I (fun r s' => match r with
      | .ok true => Q (.ok ()) s'
      | .ok false => Q (.error e) s'
      | .error e' => Q (.error e') s') p s) :
    wp d mayFail I Q (ensure e p) s := by
  refine wp_bind (wp_mono h fun r s' hr => ?_)
  match r with
  | .ok true => exact hr
  | .ok false => exact hr
  | .error e' => exact hr

end

theorem wp_attempt {p : Program Op Reply ε α} {R : Except ε (Except ε α) → S → Prop} {s : S}
    (h : wp d mayFail I (fun r s' => R (.ok r) s') p s) :
    wp d mayFail I R (attempt p) s := by
  induction p generalizing s with
  | done result => exact h
  | call op next ih => exact ⟨h.1, ih _ h.2.1, fun hf => ih _ (h.2.2 hf)⟩

/-- A weakest precondition answers for every schedule. -/
theorem wp_sound {p : Program Op Reply ε α} {s : S} (h : wp d mayFail I Q p s)
    (schedule : List Verdict) : (run d mayFail p schedule s).Satisfies I Q := by
  induction p generalizing s schedule with
  | done result => exact h
  | call op next ih =>
    cases schedule with
    | nil => exact ih _ h.2.1 []
    | cons verdict schedule =>
      cases verdict with
      | proceed => exact ih _ h.2.1 schedule
      | crash => exact h.1
      | fault =>
        simp only [run]
        split_ifs with hfail
        · exact ih _ (h.2.2 hfail) schedule
        · exact ih _ h.2.1 schedule

theorem wp_exec {p : Program Op Reply ε α} {s : S} (h : wp d mayFail I Q p s) :
    Q (exec d p s).1 (exec d p s).2 := by
  have hrun := wp_sound h []
  rwa [run_nil] at hrun

/-- Whatever is replied, every operation the program issues has `P`. -/
def Issues (P : Op → Prop) : Program Op Reply ε α → Prop
  | done _ => True
  | call op next => P op ∧ ∀ reply, Issues P (next reply)

theorem Issues.bind {P : Op → Prop} {p : Program Op Reply ε α} {f : α → Program Op Reply ε β}
    (hp : Issues P p) (hf : ∀ a, Issues P (f a)) : Issues P (p >>= f) := by
  induction p with
  | done result =>
    cases result with
    | ok a => exact hf a
    | error e => trivial
  | call op next ih => exact ⟨hp.1, fun reply => ih reply (hp.2 reply)⟩

theorem Issues.require_bind {P : Op → Prop} {e : ε} {C : Prop} [Decidable C]
    {f : Unit → Program Op Reply ε β} (hf : C → Issues P (f ())) :
    Issues P (require e C >>= f) := by
  unfold require
  split_ifs with h
  · exact hf h
  · trivial

/-- Every operation of the program only reads. -/
def ReadOnly (d : Device Op Reply S) : Program Op Reply ε α → Prop
  | done _ => True
  | call op next => d.reads op ∧ ∀ reply, ReadOnly d (next reply)

/-- The result of a program in a state. -/
def eval (d : Device Op Reply S) (p : Program Op Reply ε α) (s : S) : Except ε α := (exec d p s).1

theorem eval_attempt (p : Program Op Reply ε α) (s : S) :
    eval d (attempt p) s = .ok (eval d p s) := by
  simp only [eval, exec_attempt]

@[simp] theorem eval_done (result : Except ε α) (s : S) :
    eval d (done result : Program Op Reply ε α) s = result := rfl

@[simp] theorem eval_require (e : ε) (P : Prop) [Decidable P] (s : S) :
    eval d (require e P : Program Op Reply ε Unit) s = Except.require e P := by
  unfold require Except.require
  split_ifs <;> rfl

@[simp] theorem eval_expect_done (e : ε) (o : Option α) (s : S) :
    eval d (expect e (done (.ok o)) : Program Op Reply ε α) s = Except.ofOption e o := by
  cases o <;> rfl

theorem eval_require_bind_eq_ok_iff {e : ε} {P : Prop} [Decidable P]
    {f : Unit → Program Op Reply ε β} {s : S} {b : β} :
    eval d (require e P >>= f) s = .ok b ↔ P ∧ eval d (f ()) s = .ok b := by
  unfold require
  split_ifs with h <;> simp [h]

theorem eval_done_bind_eq_ok_iff {result : Except ε α} {f : α → Program Op Reply ε β} {s : S}
    {b : β} : eval d (done result >>= f) s = .ok b ↔ ∃ a, result = .ok a ∧
      eval d (f a) s = .ok b := by
  cases result <;> simp

namespace ReadOnly

variable {p : Program Op Reply ε α}

theorem bind {f : α → Program Op Reply ε β} (hp : ReadOnly d p) (hf : ∀ a, ReadOnly d (f a)) :
    ReadOnly d (p >>= f) := by
  induction p with
  | done result =>
    cases result with
    | ok a => exact hf a
    | error e => trivial
  | call op next ih => exact ⟨hp.1, fun reply => ih reply (hp.2 reply)⟩

theorem attempt (hp : ReadOnly d p) : ReadOnly d (attempt p) := by
  induction p with
  | done result => trivial
  | call op next ih => exact ⟨hp.1, fun reply => ih reply (hp.2 reply)⟩

theorem exec_eq (hp : ReadOnly d p) (s : S) : exec d p s = (eval d p s, s) := by
  induction p generalizing s with
  | done result => rfl
  | call op next ih =>
    have hstate := d.perform_reads op s hp.1
    have hrest := ih (d.perform op s).1 (hp.2 _) s
    simp only [eval, exec, hstate] at hrest ⊢
    exact hrest

theorem exec_bind (hp : ReadOnly d p) (f : α → Program Op Reply ε β) (s : S) :
    exec d (p >>= f) s = match eval d p s with
      | .ok a => exec d (f a) s
      | .error e => (.error e, s) := by
  rw [Program.exec_bind, hp.exec_eq]
  cases eval d p s <;> rfl

theorem exec_bind_ok (hp : ReadOnly d p) {f : α → Program Op Reply ε β} {s : S} {a : α}
    (h : eval d p s = .ok a) : exec d (p >>= f) s = exec d (f a) s := by
  rw [hp.exec_bind, h]

theorem eval_bind (hp : ReadOnly d p) (f : α → Program Op Reply ε β) (s : S) :
    eval d (p >>= f) s = eval d p s >>= fun a => eval d (f a) s := by
  unfold eval
  rw [hp.exec_bind]
  unfold eval
  cases (exec d p s).1 <;> rfl

theorem eval_bind_eq_ok_iff (hp : ReadOnly d p) {f : α → Program Op Reply ε β} {s : S} {b : β} :
    eval d (p >>= f) s = .ok b ↔ ∃ a, eval d p s = .ok a ∧ eval d (f a) s = .ok b := by
  rw [hp.eval_bind, Except.bind_eq_ok_iff]

/-- Where reads do not fail, a read-only program comes to its one result or is cut off. -/
theorem wp_eval (hp : ReadOnly d p) (hreliable : ∀ op, mayFail op → ¬ d.reads op) {s : S}
    (hI : I s) (hQ : Q (eval d p s) s) : wp d mayFail I Q p s := by
  induction p with
  | done result => exact hQ
  | call op next ih =>
    have hstate := d.perform_reads op s hp.1
    have hnext : eval d (call op next) s = eval d (next (d.perform op s).1) s := by
      simp only [eval, exec, hstate]
    refine ⟨hI, ?_, fun hf => absurd hp.1 (hreliable op hf)⟩
    rw [hstate]
    exact ih _ (hp.2 _) (hnext ▸ hQ)

theorem wp_any (hp : ReadOnly d p) {s : S} (hI : I s) (hQ : ∀ r, Q r s) :
    wp d mayFail I Q p s := by
  induction p with
  | done result => exact hQ result
  | call op next ih =>
    have hstate := d.perform_reads op s hp.1
    refine ⟨hI, ?_, fun _ => ih _ (hp.2 _)⟩
    rw [hstate]
    exact ih _ (hp.2 _)

theorem wp_eval_bind {f : α → Program Op Reply ε β} {R : Except ε β → S → Prop} {s : S}
    (hp : ReadOnly d p) (hreliable : ∀ op, mayFail op → ¬ d.reads op) (hI : I s)
    (hok : ∀ a, eval d p s = .ok a → wp d mayFail I R (f a) s)
    (herror : ∀ e, eval d p s = .error e → R (.error e) s) : wp d mayFail I R (p >>= f) s := by
  refine Program.wp_bind (hp.wp_eval hreliable hI ?_)
  cases h : eval d p s with
  | ok a => exact hok a h
  | error e => exact herror e h

theorem wp_bind {f : α → Program Op Reply ε β} {R : Except ε β → S → Prop} {s : S}
    (hp : ReadOnly d p) (hI : I s) (hok : ∀ a, wp d mayFail I R (f a) s)
    (herror : ∀ e, R (.error e) s) : wp d mayFail I R (p >>= f) s := by
  refine Program.wp_bind (hp.wp_any hI fun r => ?_)
  cases r with
  | ok a => exact hok a
  | error e => exact herror e

end ReadOnly

/-- A failed operation makes the program fail: whatever a schedule lets fail, a success is the
success that the undisturbed program has. -/
def Cautious (d : Device Op Reply S) : Program Op Reply ε α → Prop
  | done _ => True
  | call op next => d.reads op ∧ (∃ e, next (d.failed op) = done (.error e)) ∧
      ∀ reply, Cautious d (next reply)

namespace Cautious

variable {p : Program Op Reply ε α}

theorem require (e : ε) (P : Prop) [Decidable P] :
    Cautious d (require e P : Program Op Reply ε Unit) := by
  unfold Program.require
  split_ifs <;> trivial

theorem expect_done (e : ε) (o : Option α) :
    Cautious d (expect e (done (.ok o)) : Program Op Reply ε α) := by
  cases o <;> trivial

theorem readOnly (hp : Cautious d p) : ReadOnly d p := by
  induction p with
  | done result => trivial
  | call op next ih => exact ⟨hp.1, fun reply => ih reply (hp.2.2 reply)⟩

theorem bind {f : α → Program Op Reply ε β} (hp : Cautious d p) (hf : ∀ a, Cautious d (f a)) :
    Cautious d (p >>= f) := by
  induction p with
  | done result =>
    cases result with
    | ok a => exact hf a
    | error e => trivial
  | call op next ih =>
    obtain ⟨hreads, ⟨e, he⟩, hnext⟩ := hp
    exact ⟨hreads, ⟨e, congrArg (andThen f) he⟩, fun reply => ih reply (hnext reply)⟩

theorem checked {op : Op} {e : ε} {P : Reply op → Prop} [∀ reply, Decidable (P reply)]
    {f : Unit → Program Op Reply ε β} (hreads : d.reads op) (hfailed : ¬ P (d.failed op))
    (hf : Cautious d (f ())) :
    Cautious d (perform op >>= fun reply => Program.require e (P reply) >>= f) := by
  refine ⟨hreads, ⟨e, ?_⟩, fun reply => (Cautious.require _ _).bind fun _ => hf⟩
  change Program.require e (P (d.failed op)) >>= f = done (.error e)
  unfold Program.require
  rw [if_neg hfailed]
  rfl

theorem wp_eval (hp : Cautious d p) {s : S} (hI : I s) (hok : ∀ a, eval d p s = .ok a → Q (.ok a) s)
    (herror : ∀ e, Q (.error e) s) : wp d mayFail I Q p s := by
  induction p with
  | done result =>
    cases result with
    | ok a => exact hok a rfl
    | error e => exact herror e
  | call op next ih =>
    have hstate := d.perform_reads op s hp.1
    have hnext : eval d (call op next) s = eval d (next (d.perform op s).1) s := by
      simp only [eval, exec, hstate]
    obtain ⟨_, ⟨e, he⟩, hrest⟩ := hp
    refine ⟨hI, ?_, fun _ => by rw [he]; exact herror e⟩
    rw [hstate]
    exact ih _ (hrest _) fun a ha => hok a (hnext ▸ ha)

theorem wp_bind {f : α → Program Op Reply ε β} {R : Except ε β → S → Prop} {s : S}
    (hp : Cautious d p) (hI : I s) (hok : ∀ a, eval d p s = .ok a → wp d mayFail I R (f a) s)
    (herror : ∀ e, R (.error e) s) : wp d mayFail I R (p >>= f) s :=
  Program.wp_bind (hp.wp_eval hI hok herror)

end Cautious

end Program
