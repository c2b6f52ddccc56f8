import CertaelAgent.Probe.Channel

/-!
# Two threads on one channel

A game reads the channel on one thread and sends the launch bundle from another, while the Agent
sends its hello and then waits for the bundle. Both calls hold the lock of the channel until they
return, and a read waits for its bytes under it. Events of the three parties come in any order.
-/

namespace CertaelAgent.Probe

open ProtoWire Ipc ByteStream Program

/-- What a read has come to with the bytes it has; nothing while it waits for more. -/
def progress {α : Type} : Reading α → Bytes → Option (Except IpcError α)
  | .done result, _ => some result
  | .call fill next, taken =>
    if fill.size ≤ taken.length then
      progress (next (some (taken.take fill.size))) (taken.drop fill.size)
    else none

inductive Thread
  | reader
  | writer
deriving DecidableEq, Repr

/-- The thread that keeps calling `certael_agent_channel_read`. -/
inductive Reader
  | idle
  | locking (capacity : ℕ)
  | reading (capacity : ℕ) (taken : Bytes)
  | handing (capacity : ℕ) (frame : Frame)
deriving DecidableEq, Repr

/-- The thread that calls `certael_agent_channel_write` with the launch bundle. -/
inductive Writer
  | idle
  | locking
  | writing (left : Bytes)
  | returned
deriving DecidableEq, Repr

/-- `serve` up to admission: the hello, the wait for the bundle, and everything after it. -/
inductive Agent
  | greeting (left : Bytes)
  | awaiting (taken : Bytes)
  | proceeding
  | gone
deriving DecidableEq, Repr

structure World where
  holder : Option Thread
  pending : Option Frame
  incoming : Bytes
  outgoing : Bytes
  reader : Reader
  writer : Writer
  agent : Agent
deriving DecidableEq, Repr

inductive ReadEvent
  | call (capacity : ℕ)
  | lock
  /-- one byte of a `read_exact` -/
  | byte
  | finish
  | unlock
deriving DecidableEq, Repr

inductive WriteEvent
  | call
  | lock
  /-- so many bytes of a `write_all` -/
  | bytes (count : ℕ)
  | unlock
deriving DecidableEq, Repr

inductive AgentEvent
  | bytes (count : ℕ)
  | greeted
  | byte
  | received
  | timeout
  /-- after admission the Agent sends what it likes -/
  | send (bytes : Bytes)
  | leave
deriving DecidableEq, Repr

inductive Event
  | reader (event : ReadEvent)
  | writer (event : WriteEvent)
  | agent (event : AgentEvent)
deriving DecidableEq, Repr

def readStep (w : World) : ReadEvent → Option World
  | .call capacity =>
    if w.reader = .idle then some { w with reader := .locking capacity } else none
  | .lock =>
    match w.reader, w.holder, w.pending with
    | .locking capacity, none, none =>
      some { w with holder := some .reader, reader := .reading capacity [] }
    | .locking capacity, none, some frame =>
      some { w with holder := some .reader, reader := .handing capacity frame }
    | _, _, _ => none
  | .byte =>
    match w.reader, w.incoming with
    | .reading capacity taken, byte :: incoming =>
      if progress readFrame taken = none then
        some { w with incoming, reader := .reading capacity (taken ++ [byte]) }
      else none
    | _, _ => none
  | .finish =>
    match w.reader with
    | .reading capacity taken =>
      match progress readFrame taken with
      | some (.ok frame) =>
        some { w with pending := some frame, reader := .handing capacity frame }
      | some (.error _) => some { w with holder := none, reader := .idle }
      | none =>
        -- the stream has ended
        if w.agent = .gone ∧ w.incoming = [] then some { w with holder := none, reader := .idle }
        else none
    | _ => none
  | .unlock =>
    match w.reader with
    | .handing capacity frame =>
      let pending := if capacity < frame.payload.length then some frame else none
      some { w with holder := none, pending, reader := .idle }
    | _ => none

def writeStep (bundle : Frame) (w : World) : WriteEvent → Option World
  | .call =>
    if w.writer = .idle then
      if MAX_FRAME_PAYLOAD < bundle.payload.length then some { w with writer := .returned }
      else some { w with writer := .locking }
    else none
  | .lock =>
    match w.writer, w.holder, writeFrame bundle with
    | .locking, none, .ok bytes => some { w with holder := some .writer, writer := .writing bytes }
    | .locking, none, .error _ => some { w with writer := .returned }
    | _, _, _ => none
  | .bytes count =>
    match w.writer with
    | .writing left =>
      some { w with outgoing := w.outgoing ++ left.take count, writer := .writing (left.drop count) }
    | _ => none
  | .unlock =>
    if w.writer = .writing [] then some { w with holder := none, writer := .returned } else none

def agentStep (w : World) : AgentEvent → Option World
  | .bytes count =>
    match w.agent with
    | .greeting left =>
      some { w with incoming := w.incoming ++ left.take count, agent := .greeting (left.drop count) }
    | _ => none
  | .greeted => if w.agent = .greeting [] then some { w with agent := .awaiting [] } else none
  | .byte =>
    match w.agent, w.outgoing with
    | .awaiting taken, byte :: outgoing =>
      if progress readFrame taken = none then
        some { w with outgoing, agent := .awaiting (taken ++ [byte]) }
      else none
    | _, _ => none
  | .received =>
    match w.agent with
    | .awaiting taken =>
      if progress readFrame taken = none then none else some { w with agent := .proceeding }
    | _ => none
  | .timeout =>
    match w.agent with
    | .awaiting _ => some { w with agent := .proceeding }
    | _ => none
  | .send bytes =>
    if w.agent = .proceeding then some { w with incoming := w.incoming ++ bytes } else none
  | .leave => if w.agent = .proceeding then some { w with agent := .gone } else none

def step (bundle : Frame) (w : World) : Event → Option World
  | .reader event => readStep w event
  | .writer event => writeStep bundle w event
  | .agent event => agentStep w event

/-- Nothing was sent yet; a hello over the size limit ends the Agent. -/
def start (hello : Frame) : World where
  holder := none
  pending := none
  incoming := []
  outgoing := []
  reader := .idle
  writer := .idle
  agent := match writeFrame hello with
    | .ok bytes => .greeting bytes
    | .error _ => .gone

def run (bundle : Frame) (w : World) (events : List Event) : Option World :=
  events.foldlM (step bundle) w

/-- The reader holds the lock inside a read that waits for bytes of an empty stream. -/
def ReaderBlocked (w : World) : Prop :=
  w.holder = some .reader ∧ w.incoming = [] ∧
    ∃ capacity taken, w.reader = .reading capacity taken ∧ progress readFrame taken = none

/-- The writer waits for the lock that the blocked reader holds, and the Agent for the bundle. -/
def Blocked (w : World) : Prop :=
  w.writer = .locking ∧ ReaderBlocked w ∧ ∃ taken, w.agent = .awaiting taken

/-- What the Agent has still to write of its hello. -/
def Agent.unsent : Agent → Bytes
  | .greeting left => left
  | _ => []

/-- A read has something to read: a pending frame, bytes in the stream, or bytes of the hello that
are on their way; or admission does not depend on the writer any more. -/
def Supplied (w : World) : Prop :=
  w.pending ≠ none ∨ w.incoming ≠ [] ∨ w.agent.unsent ≠ [] ∨ w.writer = .returned ∨
    w.agent = .proceeding ∨ w.agent = .gone

instance (w : World) : Decidable (Supplied w) := by
  unfold Supplied
  infer_instance

/-- One step of one party, where no read takes the lock with nothing to read. -/
def SuppliedStep (bundle : Frame) (w w' : World) : Prop :=
  ∃ event, step bundle w event = some w' ∧ (event = .reader .lock → Supplied w)

/-- The reader can block the other two: it reads the hello and calls again before the writer does. -/
theorem writer_blocked_by_reader :
    ∃ w, run ⟨.launchGrant, [1]⟩ (start ⟨.agentHello, []⟩)
        ([.agent (.bytes 10), .agent .greeted, .reader (.call 64), .reader .lock] ++
          List.replicate 10 (.reader .byte) ++
          [.reader .finish, .reader .unlock, .reader (.call 64), .reader .lock, .writer .call]) =
        some w ∧ Blocked w := by
  refine ⟨_, rfl, ?_⟩
  refine ⟨rfl, ⟨rfl, rfl, 64, [], rfl, rfl⟩, [], rfl⟩

theorem progress_readExact_bind {α : Type} (size : ℕ) (f : Bytes → Reading α) (taken : Bytes) :
    progress (readExact size >>= f) taken =
      if size ≤ taken.length then progress (f (taken.take size)) (taken.drop size) else none := rfl

theorem progress_require_bind {α : Type} {e : IpcError} {P : Prop} [Decidable P] (h : P)
    {f : Unit → Reading α} {taken : Bytes} :
    progress (require e P >>= f) taken = progress (f ()) taken := by
  rw [Program.require, if_pos h]
  rfl

theorem progress_done_bind_ok {α β : Type} {result : Except IpcError α} {a : α}
    (h : result = .ok a) {f : α → Reading β} {taken : Bytes} :
    progress (done result >>= f) taken = progress (f a) taken := by
  rw [h]
  rfl

theorem progress_of_written {frame : Frame} {bytes taken : Bytes}
    (hwritten : writeFrame frame = .ok bytes) (htaken : taken <+: bytes) :
    progress readFrame taken = if taken = bytes then some (.ok frame) else none := by
  obtain ⟨hsmall, rfl⟩ := writeFrame_eq_ok_iff.mp hwritten
  have hheader := header_length frame.messageType frame.payload.length
  have hsize : (header frame.messageType frame.payload.length ++ frame.payload).length =
      (header frame.messageType frame.payload.length).length + frame.payload.length :=
    List.length_append
  unfold readFrame
  rw [progress_readExact_bind]
  by_cases hlong : HEADER_LENGTH ≤ taken.length
  · have htake : taken.take HEADER_LENGTH = header frame.messageType frame.payload.length := by
      have hfirst := htaken.take HEADER_LENGTH
      rw [List.take_left' hheader] at hfirst
      apply hfirst.eq_of_length
      rw [List.length_take, hheader]
      omega
    have htype : MessageType.tryFrom
        ((header frame.messageType frame.payload.length).getD 5 0) = .ok frame.messageType :=
      MessageType.tryFrom_toByte frame.messageType
    have hvalue : fromBigEndian ((header frame.messageType frame.payload.length).drop 6) =
        frame.payload.length :=
      fromBigEndian_lengthBytes (by unfold MAX_FRAME_PAYLOAD at hsmall; omega)
    rw [if_pos hlong, htake, progress_require_bind ⟨rfl, rfl⟩, progress_done_bind_ok htype]
    dsimp only
    rw [hvalue, progress_require_bind hsmall, progress_readExact_bind]
    by_cases hwhole : taken = header frame.messageType frame.payload.length ++ frame.payload
    · subst hwhole
      rw [List.drop_left' hheader, if_pos le_rfl, if_pos rfl, List.take_length]
      rfl
    · have hshort := mt htaken.eq_of_length hwhole
      have hle := htaken.length_le
      rw [if_neg hwhole, if_neg]
      rw [List.length_drop]
      omega
  · rw [if_neg hlong, if_neg]
    rintro rfl
    omega

/-- How far the reader is with the hello. Before admission and before the writer is done, the
reader reads the hello or stays out of the stream. -/
inductive Fed (hello : Frame) (w : World) : Prop
  | decided (h : w.writer = .returned ∨ w.agent = .proceeding ∨ w.agent = .gone)
  | untouched (hreader : w.reader = .idle ∨ ∃ capacity, w.reader = .locking capacity)
      (hpending : w.pending = none) (h : writeFrame hello = .ok (w.incoming ++ w.agent.unsent))
  | reading (capacity : ℕ) (taken : Bytes) (hreader : w.reader = .reading capacity taken)
      (h : writeFrame hello = .ok (taken ++ (w.incoming ++ w.agent.unsent)))
  | consumed (hreader : ∀ capacity taken, w.reader ≠ .reading capacity taken)
      (hincoming : w.incoming = []) (hunsent : w.agent.unsent = [])

variable {hello bundle : Frame} {w w' : World}

theorem fed_start (hello : Frame) : Fed hello (start hello) := by
  cases hwritten : writeFrame hello with
  | ok bytes =>
    apply Fed.untouched (.inl rfl) rfl
    simp [start, hwritten, Agent.unsent]
  | error e =>
    apply Fed.decided
    simp [start, hwritten]

theorem readStep_frame {event : ReadEvent} (hstep : readStep w event = some w') :
    w'.writer = w.writer ∧ w'.agent = w.agent ∧ w'.outgoing = w.outgoing := by
  unfold readStep at hstep
  split at hstep <;> (repeat' split at hstep) <;> cases hstep <;> exact ⟨rfl, rfl, rfl⟩

theorem writeStep_frame {event : WriteEvent} (hstep : writeStep bundle w event = some w') :
    w'.reader = w.reader ∧ w'.agent = w.agent ∧ w'.pending = w.pending ∧
      w'.incoming = w.incoming ∧ (w.writer = .returned → w'.writer = .returned) := by
  unfold writeStep at hstep
  split at hstep <;> (repeat' split at hstep) <;> cases hstep <;> simp_all

theorem agentStep_frame {event : AgentEvent} (hstep : agentStep w event = some w') :
    w'.reader = w.reader ∧ w'.writer = w.writer ∧ w'.pending = w.pending ∧ w'.holder = w.holder ∧
      ((w'.agent = .proceeding ∨ w'.agent = .gone) ∨
        ¬ (w.agent = .proceeding ∨ w.agent = .gone) ∧
          w'.incoming ++ w'.agent.unsent = w.incoming ++ w.agent.unsent) := by
  unfold agentStep at hstep
  split at hstep <;> (repeat' split at hstep) <;> cases hstep <;>
    simp_all [Agent.unsent]

theorem readFinish_fed {taken : Bytes} {capacity : ℕ} (hreader : w.reader = .reading capacity taken)
    (h : writeFrame hello = .ok (taken ++ (w.incoming ++ w.agent.unsent)))
    (hstep : readStep w .finish = some w') : Fed hello w' := by
  have hprogress := progress_of_written h (List.prefix_append _ _)
  simp only [readStep, hreader] at hstep
  split_ifs at hprogress with hwhole
  · rw [hprogress] at hstep
    obtain rfl := Option.some.inj hstep
    rw [eq_comm, List.append_right_eq_self, List.append_eq_nil_iff] at hwhole
    exact .consumed (fun _ _ => by simp) hwhole.1 hwhole.2
  · rw [hprogress] at hstep
    dsimp only at hstep
    split_ifs at hstep with hended
    obtain rfl := Option.some.inj hstep
    exact .decided (.inr (.inr hended.1))

theorem readStep_fed (hfed : Fed hello w) {event : ReadEvent} (hstep : readStep w event = some w')
    (hsupplied : event = .lock → Supplied w) : Fed hello w' := by
  obtain ⟨hwriter, hagent, -⟩ := readStep_frame hstep
  cases hfed with
  | decided h =>
    apply Fed.decided
    rwa [hwriter, hagent]
  | untouched hquiet hpending h =>
    rcases hquiet with hreader | ⟨capacity, hreader⟩
    · cases event <;> simp [readStep, hreader] at hstep
      subst hstep
      exact .untouched (.inr ⟨_, rfl⟩) hpending h
    · cases event <;> simp [readStep, hreader, hpending] at hstep
      cases hholder : w.holder <;> rw [hholder] at hstep <;> cases hstep
      exact .reading capacity [] rfl h
  | reading capacity taken hreader h =>
    cases event with
    | finish => exact readFinish_fed hreader h hstep
    | byte =>
      cases hincoming : w.incoming <;> simp [readStep, hreader, hincoming] at hstep
      obtain ⟨-, rfl⟩ := hstep
      apply Fed.reading capacity _ rfl
      rw [hincoming] at h
      simpa using h
    | call | lock | unlock => simp [readStep, hreader] at hstep
  | consumed hquiet hincoming hunsent =>
    cases event with
    | call capacity =>
      simp only [readStep] at hstep
      split_ifs at hstep
      obtain rfl := Option.some.inj hstep
      exact .consumed (fun _ _ => by simp) hincoming hunsent
    | lock =>
      cases hpending : w.pending with
      | none =>
        -- there is nothing to read, so admission is decided
        rcases hsupplied rfl with hsome | hsome | hsome | hdecided
        · exact absurd hpending hsome
        · exact absurd hincoming hsome
        · exact absurd hunsent hsome
        · apply Fed.decided
          rwa [hwriter, hagent]
      | some frame =>
        rcases hreader : w.reader with _ | capacity | ⟨capacity, taken⟩ | ⟨capacity, frame'⟩ <;>
          cases hholder : w.holder <;> simp [readStep, hreader, hholder, hpending] at hstep
        subst hstep
        exact .consumed (fun _ _ => by simp) hincoming hunsent
    | unlock =>
      simp only [readStep] at hstep
      split at hstep <;> cases hstep
      exact .consumed (fun _ _ => by simp) hincoming hunsent
    | byte | finish =>
      cases hreader : w.reader with
      | reading capacity taken => exact absurd hreader (hquiet capacity taken)
      | idle | locking | handing => simp [readStep, hreader] at hstep

theorem writeStep_fed (hfed : Fed hello w) {event : WriteEvent}
    (hstep : writeStep bundle w event = some w') : Fed hello w' := by
  obtain ⟨hreader, hagent, hpending, hincoming, hreturned⟩ := writeStep_frame hstep
  cases hfed with
  | decided h =>
    apply Fed.decided
    rw [hagent]
    exact h.imp_left hreturned
  | untouched hquiet hnone h =>
    apply Fed.untouched (hreader ▸ hquiet) (hpending.trans hnone)
    rw [hincoming, hagent, h]
  | reading capacity taken hreading h =>
    apply Fed.reading capacity taken (hreader.trans hreading)
    rw [hincoming, hagent, h]
  | consumed hquiet hempty hunsent =>
    exact .consumed (hreader ▸ hquiet) (hincoming.trans hempty) (hagent ▸ hunsent)

theorem agentStep_fed (hfed : Fed hello w) {event : AgentEvent}
    (hstep : agentStep w event = some w') : Fed hello w' := by
  obtain ⟨hreader, hwriter, hpending, -, hafter | ⟨hbefore, hbytes⟩⟩ := agentStep_frame hstep
  · exact .decided (.inr hafter)
  cases hfed with
  | decided h =>
    apply Fed.decided
    rw [hwriter]
    exact h.imp_right fun hagent => absurd hagent hbefore
  | untouched hquiet hnone h =>
    exact .untouched (hreader ▸ hquiet) (hpending.trans hnone) (hbytes ▸ h)
  | reading capacity taken hreading h =>
    apply Fed.reading capacity taken (hreader.trans hreading)
    rw [hbytes, h]
  | consumed hquiet hempty hunsent =>
    rw [hempty, hunsent, List.append_nil] at hbytes
    obtain ⟨hincoming, hagent⟩ := List.append_eq_nil_iff.mp hbytes
    exact .consumed (hreader ▸ hquiet) hincoming hagent

theorem step_fed (hfed : Fed hello w) (hstep : SuppliedStep bundle w w') :
    Fed hello w' := by
  obtain ⟨event, hevent, hsupplied⟩ := hstep
  cases event with
  | reader event =>
    exact readStep_fed hfed hevent fun hlock => hsupplied (congrArg Event.reader hlock)
  | writer event => exact writeStep_fed hfed hevent
  | agent event => exact agentStep_fed hfed hevent

/-- A reader that follows the hello byte by byte does not keep the writer waiting for ever. -/
theorem Fed.not_blocked (hfed : Fed hello w) : ¬ Blocked w := by
  rintro ⟨hwriter, ⟨-, hempty, capacity, taken, hreader, hwaits⟩, read, hagent⟩
  cases hfed with
  | decided h => simp [hwriter, hagent] at h
  | untouched hquiet => simp [hreader] at hquiet
  | reading capacity' taken' hreader' h =>
    obtain ⟨-, rfl⟩ := Reader.reading.inj (hreader'.symm.trans hreader)
    have hwhole : writeFrame hello = .ok taken' := by simpa [hempty, hagent, Agent.unsent] using h
    rw [progress_of_written hwhole List.prefix_rfl, if_pos rfl] at hwaits
    cases hwaits
  | consumed hquiet => exact hquiet _ _ hreader

/-- As long as no read takes the lock with nothing to read, the writer is never kept waiting by a
read that waits itself while the Agent waits for the bundle. -/
theorem channel_never_blocks {hello bundle : Frame} {w : World}
    (hrun : Relation.ReflTransGen (SuppliedStep bundle) (start hello) w) : ¬ Blocked w := by
  have hfed : Fed hello w := by
    induction hrun with
    | refl => exact fed_start hello
    | tail _ hstep ih => exact step_fed ih hstep
  exact hfed.not_blocked

/-- A reader that takes the lock as soon as the Agent has begun its hello. -/
theorem channel_never_blocks_sample :
    ∃ w, run ⟨.launchGrant, [1]⟩ (start ⟨.agentHello, []⟩)
      [.agent (.bytes 4), .reader (.call 64), .reader .lock, .writer .call] = some w ∧
      w.writer = .locking ∧ w.holder = some .reader ∧ ¬ Blocked w := by
  refine ⟨_, rfl, rfl, rfl, ?_⟩
  apply @channel_never_blocks ⟨.agentHello, []⟩ ⟨.launchGrant, [1]⟩
  refine .head ⟨.agent (.bytes 4), rfl, by simp⟩ ?_
  refine .head ⟨.reader (.call 64), rfl, by simp⟩ ?_
  refine .head ⟨.reader .lock, rfl, fun _ => by decide⟩ ?_
  exact .head ⟨.writer .call, rfl, by simp⟩ .refl

end CertaelAgent.Probe
