import CertaelAgent.Ipc.Boundaries
import CertaelAgent.Runtime.Admission

/-!
# How the game's channel closes

The reader thread hands on one frame after the other and, as its last message, the first error. The
session loop takes `Io` for the end of the channel and returns `Ok`. `Io` is also what the framer
says of a stream that ends in the middle of a frame.
-/

namespace CertaelAgent.Runtime

open ProtoWire Protocol Ipc ByteStream

/-- What the game sends to say that it stops. -/
def shutdownFrame : Frame := ⟨.shutdown, []⟩

/-- Whole frames, up to an empty `Shutdown` or to the end of the stream. -/
inductive WholeSession : Bytes → Prop
  | closed : WholeSession []
  | shutdown {sent : Bytes} (hwritten : writeFrame shutdownFrame = .ok sent) (rest : Bytes) :
      WholeSession (sent ++ rest)
  | frame {frame : Frame} {sent rest : Bytes} (hwritten : writeFrame frame = .ok sent)
      (hrest : WholeSession rest) : WholeSession (sent ++ rest)

/-- Whole frames, no empty `Shutdown` among them, and then a part of a header or of a frame. -/
inductive EndsInside : Bytes → Prop
  | here {bytes : Bytes} (htruncated : Truncated bytes) : EndsInside bytes
  | frame {frame : Frame} {sent rest : Bytes} (hwritten : writeFrame frame = .ok sent)
      (hcontinues : frame ≠ shutdownFrame) (hrest : EndsInside rest) : EndsInside (sent ++ rest)

/-- What the loop receives is what the reader thread takes from the stream; a receive may also
time out. After its first error the thread is gone. -/
inductive Feeds : Chunks UInt8 → List Turn → Prop
  | nil {chunks : Chunks UInt8} : Feeds chunks []
  | timeout {chunks : Chunks UInt8} {turn : Turn} {turns : List Turn}
      (hreceived : turn.received = .timeout) (hturns : Feeds chunks turns) :
      Feeds chunks (turn :: turns)
  | frame {chunks rest : Chunks UInt8} {turn : Turn} {turns : List Turn} {frame : Frame}
      (hread : readFrameFrom chunks = (.ok frame, rest)) (hreceived : turn.received = .frame frame)
      (hturns : Feeds rest turns) : Feeds chunks (turn :: turns)
  | failed {chunks rest : Chunks UInt8} {turn : Turn} {turns : List Turn} {error : IpcError}
      (hread : readFrameFrom chunks = (.error error, rest))
      (hreceived : turn.received = .failed error)
      (hturns : ∀ later ∈ turns, later.received = .disconnected) : Feeds chunks (turn :: turns)

theorem not_endsInside_of_wholeSession {bytes : Bytes} (hwhole : WholeSession bytes) :
    ¬ EndsInside bytes := by
  induction hwhole with
  | closed =>
    generalize hempty : ([] : Bytes) = bytes
    rintro (⟨hne, -⟩ | ⟨hwritten, -, -⟩)
    · exact hne hempty.symm
    · exact ne_nil_of_written hwritten (List.append_eq_nil_iff.mp hempty.symm).1
  | shutdown hwritten rest =>
    generalize hbytes : _ ++ rest = bytes
    rintro (htruncated | ⟨hwritten', hcontinues, -⟩)
    · rw [← hbytes] at htruncated
      exact not_truncated_written hwritten rest htruncated
    · exact hcontinues (written_append_inj hwritten hwritten' hbytes).1.symm
  | @frame frame sent rest hwritten hrest ih =>
    generalize hbytes : sent ++ rest = bytes
    rintro (htruncated | ⟨hwritten', -, hinside⟩)
    · rw [← hbytes] at htruncated
      exact not_truncated_written hwritten rest htruncated
    · obtain ⟨-, rfl⟩ := written_append_inj hwritten hwritten' hbytes
      exact ih hinside

/-- The routine does not end the run with `Ok`. -/
def NeverReturns {α : Type} (t : Serving α) : Prop := t.result ≠ .error (.ok ())

section

variable {α β : Type}

theorem NeverReturns.value (a : α) : NeverReturns (.value a : Serving α) := by
  rintro ⟨⟩

theorem NeverReturns.bail (message : String) : NeverReturns (Runtime.bail message : Serving α) := by
  rintro ⟨⟩

theorem NeverReturns.context {ε : Type} (x : Except ε α) (message : String) :
    NeverReturns (Runtime.context x message) := by
  cases x <;> rintro ⟨⟩

theorem NeverReturns.bind {t : Serving α} {f : α → Serving β} (ht : NeverReturns t)
    (hf : ∀ a, NeverReturns (f a)) : NeverReturns (t >>= f) := by
  cases h : t.result with
  | error exit =>
    rw [Transcript.bind_of_error h]
    unfold NeverReturns at ht ⊢
    rw [h] at ht
    intro hreturned
    cases hreturned
    exact ht rfl
  | ok a =>
    rw [Transcript.bind_of_ok h]
    exact hf a

theorem NeverReturns.emit (action : Action) : NeverReturns (.emit action) := by
  rintro ⟨⟩

theorem NeverReturns.sendFrame (frame : Frame) (message : String) :
    NeverReturns (Runtime.sendFrame frame message) :=
  (NeverReturns.context _ _).bind fun _ => .emit _

theorem NeverReturns.publishRuntime (state : RuntimeState) (runtimeState : String)
    (reason : Option String) : NeverReturns (Runtime.publishRuntime state runtimeState reason) := by
  unfold Runtime.publishRuntime
  cases state.registration with
  | none => exact .value ()
  | some registration => exact .emit _

end

section

variable [Crates]

theorem answerChallenge_neverReturns (state : RuntimeState) (launch : BoundAgentLaunch)
    (session : Session) (turn : Turn) (payload : Bytes) :
    NeverReturns (answerChallenge state launch session turn payload) := by
  unfold answerChallenge
  apply (NeverReturns.context _ _).bind
  intro challenge
  split_ifs
  · exact .bail _
  apply (NeverReturns.context _ _).bind
  intro snapshot
  split_ifs
  · exact .bail _
  apply (NeverReturns.context _ _).bind
  intro executableSha256
  apply NeverReturns.bind
  · cases signReport (challengeReport state launch session turn challenge snapshot executableSha256)
      state.key <;> rintro ⟨⟩
  intro report
  dsimp only
  split_ifs
  · exact .bail _
  apply (NeverReturns.sendFrame _ _).bind
  intro _
  apply (NeverReturns.publishRuntime _ _ _).bind
  intro _
  exact .value _

theorem acceptRevocation_neverReturns (state : RuntimeState) (launch : BoundAgentLaunch)
    (session : Session) (turn : Turn) (payload : Bytes) :
    NeverReturns (acceptRevocation state launch session turn payload) := by
  unfold acceptRevocation
  apply NeverReturns.bind
  · unfold decodeRevocation
    split
    · exact .bail _
    · split_ifs
      · exact .bail _
      · exact .value _
  intro signed
  apply (NeverReturns.context _ _).bind
  intro revocation
  split_ifs
  · exact .bail _
  apply (NeverReturns.sendFrame _ _).bind
  intro _
  apply (NeverReturns.publishRuntime _ _ _).bind
  intro _
  exact .bail _

omit [Crates] in
theorem heartbeat_neverReturns (state : RuntimeState) (launch : BoundAgentLaunch)
    (session : Session) (after : Int64) :
    NeverReturns (heartbeat state launch session after) := by
  unfold heartbeat
  split_ifs
  · apply (NeverReturns.sendFrame _ _).bind
    intro _
    apply (NeverReturns.publishRuntime _ _ _).bind
    intro _
    exact .value _
  · exact .value _

variable (state : RuntimeState) (launch : BoundAgentLaunch) (session : Session) (turn : Turn)

/-- The reader thread's `Io`, a thread that is gone and an empty `Shutdown` end the loop with `Ok`;
nothing else does. -/
theorem sessionTurn_returns_iff :
    (sessionTurn state launch session turn).result = .error (.ok ()) ↔
      turn.now < launch.policyExpiresAtUnix ∧ turn.now < session.reportDeadline ∧
        (turn.received = .failed .io ∨ turn.received = .disconnected ∨
          turn.received = .frame shutdownFrame) := by
  have hclose : ∀ health reasons runtimeState reason message,
      NeverReturns (do
        writeHealth launch.sessionId health session.lastReportAt reasons
        publishRuntime state runtimeState reason
        bail message : Serving Session) := by
    intro health reasons runtimeState reason message
    apply (NeverReturns.sendFrame _ _).bind
    intro _
    apply (NeverReturns.publishRuntime _ _ _).bind
    intro _
    exact .bail _
  have hfinish : ∀ reason, (do
      publishRuntime state "stopped" reason
      finish : Serving Session).result = .error (.ok ()) := by
    intro reason
    rw [publishRuntime_bind]
    rfl
  unfold sessionTurn
  by_cases hexpired : launch.policyExpiresAtUnix ≤ turn.now
  · rw [if_pos hexpired]
    apply iff_of_false (hclose _ _ _ _ _)
    exact fun h => absurd h.1 (Int64.not_lt.mpr hexpired)
  by_cases hlost : session.reportDeadline ≤ turn.now
  · rw [if_neg hexpired, if_pos hlost]
    apply iff_of_false (hclose _ _ _ _ _)
    exact fun h => absurd h.2.1 (Int64.not_lt.mpr hlost)
  rw [if_neg hexpired, if_neg hlost]
  rw [Int64.not_le] at hexpired hlost
  cases hreceived : turn.received with
  | timeout =>
    apply iff_of_false (heartbeat_neverReturns _ _ _ _)
    simp
  | disconnected => exact iff_of_true (hfinish _) ⟨hexpired, hlost, .inr (.inl rfl)⟩
  | failed error =>
    cases error with
    | io => exact iff_of_true (hfinish _) ⟨hexpired, hlost, .inl rfl⟩
    | invalidHeader => exact iff_of_false (NeverReturns.bail _) (by simp)
    | unknownMessage => exact iff_of_false (NeverReturns.bail _) (by simp)
    | tooLarge => exact iff_of_false (NeverReturns.bail _) (by simp)
  | frame frame =>
    obtain ⟨messageType, payload⟩ := frame
    cases messageType with
    | challenge =>
      apply iff_of_false (answerChallenge_neverReturns _ _ _ _ _)
      simp [shutdownFrame]
    | revocation =>
      apply iff_of_false (acceptRevocation_neverReturns _ _ _ _ _)
      simp [shutdownFrame]
    | shutdown =>
      simp only [handleFrame]
      split_ifs with hempty
      · apply iff_of_false (NeverReturns.bail _)
        simpa [shutdownFrame] using fun _ _ => hempty
      · apply iff_of_true (hfinish _)
        rw [not_not] at hempty
        exact ⟨hexpired, hlost, .inr (.inr (by rw [hempty, shutdownFrame]))⟩
    | agentHello => exact iff_of_false (NeverReturns.bail _) (by simp [shutdownFrame])
    | launchGrant => exact iff_of_false (NeverReturns.bail _) (by simp [shutdownFrame])
    | integrityReport => exact iff_of_false (NeverReturns.bail _) (by simp [shutdownFrame])
    | health => exact iff_of_false (NeverReturns.bail _) (by simp [shutdownFrame])

theorem received_of_continues {session' : Session}
    (h : (sessionTurn state launch session turn).result = .ok session') :
    turn.received = .timeout ∨ ∃ payload, turn.received = .frame ⟨.challenge, payload⟩ := by
  have hcases := sessionTurn_cases state launch session turn
  generalize sessionTurn state launch session turn = t at hcases h
  cases hcases with
  | silent exit statuses hframes hstatuses => cases h
  | closed health reason message => cases h
  | idle hreceived => exact .inl hreceived
  | heartbeat hunexpired honTime hreceived => exact .inl hreceived
  | answered payload challenge report haccepts => exact .inr ⟨payload, haccepts.received⟩

/-- The loop gets to the end of the stream in time. -/
def ReachesEnd (session : Session) (turns : List Turn) : Prop :=
  ∃ visit ∈ Transcript.visits (sessionTurn state launch) session turns,
    visit.2.received = .failed .io ∧ visit.2.now < launch.policyExpiresAtUnix ∧
      visit.2.now < visit.1.reportDeadline

variable {state launch session}

theorem run_returns_of_visit {turns : List Turn} {visit : Session × Turn}
    (hvisit : visit ∈ Transcript.visits (sessionTurn state launch) session turns)
    (hreturns : (sessionTurn state launch visit.1 visit.2).result = .error (.ok ())) :
    (Transcript.run (sessionTurn state launch) session turns).result = .error (.ok ()) := by
  induction turns generalizing session with
  | nil => simp [Transcript.visits] at hvisit
  | cons turn turns ih =>
    cases h : (sessionTurn state launch session turn).result with
    | error exit =>
      rw [Transcript.visits_cons_of_error h, List.mem_singleton] at hvisit
      subst hvisit
      rw [Transcript.run_cons_of_error h, ← h]
      exact hreturns
    | ok session' =>
      rw [Transcript.visits_cons_of_ok h] at hvisit
      rw [Transcript.run_cons_of_ok h]
      rcases List.mem_cons.mp hvisit with rfl | hvisit
      · rw [h] at hreturns
        cases hreturns
      · exact ih hvisit

theorem ReachesEnd.cons {turn : Turn} {turns : List Turn} {session' : Session}
    (hstep : (sessionTurn state launch session turn).result = .ok session')
    (h : ReachesEnd state launch session' turns) :
    ReachesEnd state launch session (turn :: turns) := by
  obtain ⟨visit, hvisit, hend⟩ := h
  refine ⟨visit, ?_, hend⟩
  rw [Transcript.visits_cons_of_ok hstep]
  exact List.mem_cons_of_mem _ hvisit

/-- A loop that returns `Ok` has taken whole frames only, or it has taken the end of the stream in
the middle of one for the end of the channel. -/
theorem wholeSession_or_of_returns {chunks : Chunks UInt8} {turns : List Turn}
    (hfeeds : Feeds chunks turns) (hdelivers : Delivers chunks)
    (hreturns : (Transcript.run (sessionTurn state launch) session turns).result = .error (.ok ())) :
    WholeSession chunks.flatten ∨
      (EndsInside chunks.flatten ∧ ReachesEnd state launch session turns) := by
  induction hfeeds generalizing session with
  | nil => cases hreturns
  | @timeout chunks turn turns hreceived _ ih =>
    cases h : (sessionTurn state launch session turn).result with
    | error exit =>
      rw [Transcript.run_cons_of_error h] at hreturns
      have hturn := (sessionTurn_returns_iff ..).mp (h.trans hreturns)
      simp [hreceived] at hturn
    | ok session' =>
      rw [Transcript.run_cons_of_ok h] at hreturns
      exact (ih hdelivers hreturns).imp_right fun hcut => ⟨hcut.1, hcut.2.cons h⟩
  | @frame chunks rest turn turns frame hread hreceived _ ih =>
    have hcases := readFrameFrom_cases hdelivers
    rw [hread] at hcases
    obtain ⟨hrest, hcases⟩ := hcases
    generalize hbytes : chunks.flatten = bytes at hcases
    generalize rest.flatten = left at hcases ih
    cases hcases with
    | frame _ sent _ hwritten hsent =>
      subst hsent
      cases h : (sessionTurn state launch session turn).result with
      | error exit =>
        rw [Transcript.run_cons_of_error h] at hreturns
        have hturn := (sessionTurn_returns_iff ..).mp (h.trans hreturns)
        obtain rfl : frame = shutdownFrame := by simpa [hreceived] using hturn.2.2
        exact .inl (.shutdown hwritten left)
      | ok session' =>
        rw [Transcript.run_cons_of_ok h] at hreturns
        have hcontinues : frame ≠ shutdownFrame := by
          rintro rfl
          have hgoes := received_of_continues _ _ _ _ h
          simp [hreceived, shutdownFrame] at hgoes
        rcases ih hrest hreturns with hwhole | ⟨hinside, hend⟩
        · exact .inl (.frame hwritten hwhole)
        · exact .inr ⟨.frame hwritten hcontinues hinside, hend.cons h⟩
  | @failed chunks rest turn turns error hread hreceived _ =>
    cases h : (sessionTurn state launch session turn).result with
    | ok session' =>
      have hgoes := received_of_continues _ _ _ _ h
      simp [hreceived] at hgoes
    | error exit =>
      rw [Transcript.run_cons_of_error h] at hreturns
      have hturn := (sessionTurn_returns_iff ..).mp (h.trans hreturns)
      obtain rfl : error = .io := by simpa [hreceived] using hturn.2.2
      have hcases := (readFrameFrom_cases hdelivers).2
      rw [hread] at hcases
      generalize chunks.flatten = bytes at hcases
      generalize hleft : rest.flatten = left at hcases
      cases hcases with
      | ended hbytes => exact .inl (hbytes ▸ .closed)
      | truncated htruncated =>
        refine .inr ⟨.here htruncated, (session, turn), ?_, hreceived, hturn.1, hturn.2.1⟩
        exact List.mem_cons_self ..
      | rejected _ hne => exact absurd rfl hne

/-- `serve` returns `Ok` for a stream of whole frames only, and not for one that ends inside a
frame. -/
structure FailsClosed (state : RuntimeState) (arrival : Arrival) (turns : List Turn)
    (bytes : Bytes) : Prop where
  whole : (serve state arrival turns).result = .error (.ok ()) → WholeSession bytes
  truncated : EndsInside bytes → (serve state arrival turns).result ≠ .error (.ok ())

/-- An admitted session fails closed unless the stream ends inside a frame and the loop takes all
the frames in front of it and gets there in time: then it returns `Ok`. -/
theorem failsClosed_iff {arrival : Arrival} (hadmits : Admits state arrival launch)
    (hhello : Sendable (helloFrame state)) {chunks : Chunks UInt8} (hdelivers : Delivers chunks)
    {turns : List Turn} (hfeeds : Feeds chunks turns) :
    FailsClosed state arrival turns chunks.flatten ↔
      ¬ (EndsInside chunks.flatten ∧
        ReachesEnd state launch (openSession arrival launch) turns) := by
  have hserve : (serve state arrival turns).result = (Transcript.run (sessionTurn state launch)
      (openSession arrival launch) turns).result := by
    rw [hadmits.serve_eq hhello]
  constructor
  · rintro hcloses ⟨hinside, visit, hvisit, hreceived, hunexpired, honTime⟩
    apply hcloses.truncated hinside
    rw [hserve]
    apply run_returns_of_visit hvisit
    exact (sessionTurn_returns_iff ..).mpr ⟨hunexpired, honTime, .inl hreceived⟩
  · intro hcondition
    have hwhole : (serve state arrival turns).result = .error (.ok ()) →
        WholeSession chunks.flatten := by
      intro hreturns
      rw [hserve] at hreturns
      exact (wholeSession_or_of_returns hfeeds hdelivers hreturns).resolve_right hcondition
    constructor
    · exact hwhole
    · intro hinside hreturns
      exact not_endsInside_of_wholeSession (hwhole hreturns) hinside

end

namespace Sample

/-- A receive at this time, with this outcome. -/
def receiving (now : Int64) (received : Received) : Turn where
  now
  received
  after := now
  executable := none
  gameProcess :=
    { running := false, executableMatches := false, parentIsAgent := none,
      loadedModuleBasenames := [], processIdentityStable := none }
  processIdentity := none
  agentProcessId := 7

/-- A challenge of five bytes, of which two arrive. -/
def cutChallenge : Chunks UInt8 := [[67, 84, 65, 76, 1, 3, 0, 0, 0, 5], [1, 2]]

theorem feeds_cutChallenge : Feeds cutChallenge [receiving 1000 (.failed .io)] := by
  have hread : readFrameFrom cutChallenge = (.error .io, []) := rfl
  apply Feeds.failed hread
  · rfl
  · exact List.forall_mem_nil _

theorem endsInside_cutChallenge : EndsInside cutChallenge.flatten := by
  apply EndsInside.here
  have haccepted : AcceptedHeader cutChallenge.flatten :=
    ⟨by decide, by decide, by decide, ⟨.challenge, rfl⟩, by decide⟩
  exact ⟨by decide, .inr ⟨haccepted, by decide⟩⟩

/-- An empty `Shutdown` in two parts. -/
def farewell : Chunks UInt8 := [[67, 84, 65, 76, 1], [6, 0, 0, 0, 0]]

/-- The loop waits once, and then the game stops. -/
def farewellTurns : List Turn := [receiving 1000 .timeout, receiving 1000 (.frame shutdownFrame)]

theorem wholeSession_farewell : WholeSession farewell.flatten :=
  @WholeSession.shutdown farewell.flatten rfl []

theorem feeds_farewell : Feeds farewell farewellTurns := by
  have hread : readFrameFrom farewell = (.ok shutdownFrame, []) := rfl
  apply Feeds.timeout rfl
  exact .frame hread rfl .nil

end Sample

theorem failsClosed_sample :
    FailsClosed Sample.state Sample.arrival Sample.farewellTurns Sample.farewell.flatten ∧
      (serve Sample.state Sample.arrival Sample.farewellTurns).result = .error (.ok ()) := by
  constructor
  · apply (failsClosed_iff Sample.admits (by decide +kernel) (by unfold Delivers; decide)
      Sample.feeds_farewell).mpr
    rintro ⟨hinside, -⟩
    exact not_endsInside_of_wholeSession Sample.wholeSession_farewell hinside
  · decide +kernel

/-- Half a challenge, and the session stops as if the game had closed its channel. -/
theorem not_failsClosed : ¬ ∀ [Crates] (state : RuntimeState) (arrival : Arrival)
    (launch : BoundAgentLaunch) (chunks : Chunks UInt8) (turns : List Turn),
    Admits state arrival launch → Sendable (helloFrame state) → Delivers chunks →
      Feeds chunks turns → FailsClosed state arrival turns chunks.flatten := by
  intro h
  have hcloses := h Sample.state Sample.arrival Sample.launch Sample.cutChallenge
    [Sample.receiving 1000 (.failed .io)] Sample.admits (by decide +kernel)
    (by unfold Delivers; decide) Sample.feeds_cutChallenge
  apply hcloses.truncated Sample.endsInside_cutChallenge
  rw [Sample.admits.serve_eq (by decide +kernel)]
  apply run_returns_of_visit (List.mem_cons_self ..)
  apply (sessionTurn_returns_iff ..).mpr
  exact ⟨by decide +kernel, by decide +kernel, .inl rfl⟩

end CertaelAgent.Runtime
