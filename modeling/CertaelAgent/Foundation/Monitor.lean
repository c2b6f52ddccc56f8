import CertaelAgent.Foundation.Transcript

/-!
# Monitors of transcripts

A monitor watches the outputs of a routine. It has a state of its own, says in each state which
outputs are allowed, and where an output leads. What a routine is allowed to emit and what it
leaves the monitor in is shown routine by routine, as with assertions about a program.

Outputs that replace each other in one place can be polled there, at any speed.
-/

structure Monitor (ω σ : Type) where
  allows : σ → ω → Prop
  next : σ → ω → σ

/-- A postcondition with one half for values and one for stops. -/
def Transcript.Ends {ε α σ : Type} (ok : α → σ → Prop) (error : ε → σ → Prop) :
    Except ε α → σ → Prop
  | .ok a, s => ok a s
  | .error e, s => error e s

namespace Monitor

variable {ω σ ε α β τ ι : Type} (m : Monitor ω σ)

/-- Every output is allowed when it comes. -/
def Accepts : σ → List ω → Prop
  | _, [] => True
  | s, w :: out => m.allows s w ∧ Accepts (m.next s w) out

def after : σ → List ω → σ
  | s, [] => s
  | s, w :: out => after (m.next s w) out

/-- The routine emits nothing but what is allowed, and its result fits the state that the monitor
is left in. -/
def Conforms (s : σ) (t : Transcript ω ε α) (Q : Except ε α → σ → Prop) : Prop :=
  m.Accepts s t.emitted ∧ Q t.result (m.after s t.emitted)

variable {m} {s : σ} {Q Q' : Except ε α → σ → Prop} {t : Transcript ω ε α}

theorem after_append (s : σ) (a b : List ω) : m.after s (a ++ b) = m.after (m.after s a) b := by
  induction a generalizing s with
  | nil => rfl
  | cons w a ih => exact ih (m.next s w)

theorem accepts_append_iff {a b : List ω} :
    m.Accepts s (a ++ b) ↔ m.Accepts s a ∧ m.Accepts (m.after s a) b := by
  induction a generalizing s with
  | nil => exact ⟨fun h => ⟨trivial, h⟩, And.right⟩
  | cons w a ih =>
    constructor
    · rintro ⟨hw, h⟩
      obtain ⟨ha, hb⟩ := ih.mp h
      exact ⟨⟨hw, ha⟩, hb⟩
    · rintro ⟨⟨hw, ha⟩, hb⟩
      exact ⟨hw, ih.mpr ⟨ha, hb⟩⟩

theorem Conforms.mono (h : m.Conforms s t Q) (hQ : ∀ r s', Q r s' → Q' r s') :
    m.Conforms s t Q' :=
  ⟨h.1, hQ _ _ h.2⟩

theorem conforms_append {out : List ω} (hout : m.Accepts s out)
    (h : m.Conforms (m.after s out) t Q) : m.Conforms s ⟨out ++ t.emitted, t.result⟩ Q := by
  refine ⟨accepts_append_iff.mpr ⟨hout, h.1⟩, ?_⟩
  rw [after_append]
  exact h.2

theorem conforms_value {a : α} (h : Q (.ok a) s) : m.Conforms s (.value a) Q := ⟨trivial, h⟩

theorem conforms_stop {e : ε} (h : Q (.error e) s) : m.Conforms s (.stop e) Q := ⟨trivial, h⟩

theorem conforms_lift {x : Except ε α} (h : Q x s) : m.Conforms s (.lift x) Q := ⟨trivial, h⟩

theorem conforms_emit {Q : Except ε Unit → σ → Prop} {w : ω} (hw : m.allows s w)
    (h : Q (.ok ()) (m.next s w)) : m.Conforms s (.emit w) Q :=
  ⟨⟨hw, trivial⟩, h⟩

theorem conforms_ignore {Q : Except ε Unit → σ → Prop}
    (h : m.Conforms s t fun _ s' => Q (.ok ()) s') : m.Conforms s t.ignore Q :=
  h

theorem conforms_bind {Q : Except ε β → σ → Prop} {f : α → Transcript ω ε β}
    (h : m.Conforms s t (Transcript.Ends (fun a s' => m.Conforms s' (f a) Q)
      fun e s' => Q (.error e) s')) : m.Conforms s (t >>= f) Q := by
  obtain ⟨haccepts, hends⟩ := h
  cases hresult : t.result with
  | error e =>
    rw [Transcript.bind_of_error hresult]
    rw [hresult] at hends
    exact ⟨haccepts, hends⟩
  | ok a =>
    rw [Transcript.bind_of_ok hresult]
    rw [hresult] at hends
    exact conforms_append haccepts hends

theorem conforms_lift_bind {δ : Type} {Q : Except ε β → σ → Prop} {x : Except δ α} {g : δ → ε}
    {f : α → Transcript ω ε β} (hok : ∀ a, x = .ok a → m.Conforms s (f a) Q)
    (herror : ∀ e, x = .error e → Q (.error (g e)) s) :
    m.Conforms s (.lift (x.mapError g) >>= f) Q := by
  apply conforms_bind
  apply conforms_lift
  cases hx : x with
  | error e => exact herror e hx
  | ok a => exact hok a hx

/-- A run conforms if every step keeps the invariant or stops as it should. -/
theorem conforms_run {step : τ → ι → Transcript ω ε τ} {I : τ → σ → Prop}
    {Q : Except ε τ → σ → Prop}
    (hstep : ∀ x i s, I x s → m.Conforms s (step x i) (Transcript.Ends I fun e s' => Q (.error e) s'))
    (hend : ∀ x s, I x s → Q (.ok x) s) {x : τ} (hx : I x s) (is : List ι) :
    m.Conforms s (Transcript.run step x is) Q := by
  induction is generalizing x s with
  | nil => exact conforms_value (hend x s hx)
  | cons i is ih =>
    apply conforms_bind
    apply (hstep x i s hx).mono
    intro r s' hr
    cases r with
    | error e => exact hr
    | ok x' => exact ih hr

end Monitor

/-! ## Polling -/

/-- What is found in a place that outputs are put into one after the other, some of them in vain,
while it is looked at now and then, sometimes in vain as well. -/
inductive Polled {ω : Type} : List ω → Option ω → List (Option ω) → Prop
  | done (pending : List ω) (held : Option ω) : Polled pending held []
  | read {pending : List ω} {held : Option ω} {readings : List (Option ω)}
      (h : Polled pending held readings) : Polled pending held (held :: readings)
  | unread {pending : List ω} {held : Option ω} {readings : List (Option ω)}
      (h : Polled pending held readings) : Polled pending held (none :: readings)
  | put {pending : List ω} {held : Option ω} {readings : List (Option ω)} (w : ω)
      (h : Polled pending (some w) readings) : Polled (w :: pending) held readings
  | lost {pending : List ω} {held : Option ω} {readings : List (Option ω)} (w : ω)
      (h : Polled pending held readings) : Polled (w :: pending) held readings

namespace Polled

variable {ω : Type} {pending : List ω} {held : Option ω} {readings : List (Option ω)}
  {R : ω → ω → Prop}

theorem each (pending : List ω) (held : Option ω) : Polled pending held (pending.map some) := by
  induction pending generalizing held with
  | nil => exact .done [] held
  | cons w pending ih => exact .put w (.read (ih (some w)))

theorem mem (h : Polled pending held readings) :
    ∀ r ∈ readings, ∀ w ∈ r, w ∈ held ∨ w ∈ pending := by
  induction h with
  | done pending held => simp
  | read h ih => exact List.forall_mem_cons.mpr ⟨fun w hw => .inl hw, ih⟩
  | unread h ih => exact List.forall_mem_cons.mpr ⟨fun w hw => absurd hw (by simp), ih⟩
  | put w h ih =>
    intro r hr v hv
    rcases ih r hr v hv with hv | hv
    · exact .inr (by simp [Option.some.inj hv])
    · exact .inr (List.mem_cons_of_mem w hv)
  | lost w h ih =>
    intro r hr v hv
    exact (ih r hr v hv).imp_right (List.mem_cons_of_mem w)

theorem pairwise (hrefl : ∀ w, R w w) (h : Polled pending held readings)
    (hpending : pending.Pairwise R) (hheld : ∀ w ∈ held, ∀ v ∈ pending, R w v) :
    readings.Pairwise fun r r' => ∀ w ∈ r, ∀ v ∈ r', R w v := by
  induction h with
  | done pending held => exact .nil
  | read h ih =>
    refine .cons (fun r hr w hw v hv => ?_) (ih hpending hheld)
    rcases h.mem r hr v hv with hv | hv
    · rw [Option.some.inj (hw.symm.trans hv)]
      exact hrefl v
    · exact hheld w hw v hv
  | unread h ih => exact .cons (fun r hr w hw => absurd hw (by simp)) (ih hpending hheld)
  | put w h ih =>
    obtain ⟨hw, hrest⟩ := List.pairwise_cons.mp hpending
    refine ih hrest fun v hv => ?_
    rw [← Option.some.inj hv]
    exact hw
  | lost w h ih =>
    obtain ⟨hw, hrest⟩ := List.pairwise_cons.mp hpending
    exact ih hrest fun v hv u hu => hheld v hv u (List.mem_cons_of_mem w hu)

end Polled
