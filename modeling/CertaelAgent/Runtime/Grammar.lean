import CertaelAgent.Runtime.Turns

/-!
# The grammar of a run

What the game can see of a run: a hello, then either one refusal or an admitted session, and in
an admitted session heartbeats and reports until at most one last word. The words that carry
meaning ('ready', 'protected', 'revoked') are tied to what has to have happened before them.
-/

namespace CertaelAgent.Runtime

open ProtoWire Protocol Ipc

/-- The frames of a refused game after the hello. -/
def RefusalFrames (frames : List Frame) : Prop :=
  frames = [] ∨ ∃ health frame, frames = [frame] ∧ IsHealth health frame ∧
    (health = "rejected" ∨ health = "update_required")

/-- A frame of a session that goes on. -/
def IsSessionFrame (frame : Frame) : Prop :=
  IsHealth "protected" frame ∨ frame.messageType = .integrityReport

/-- The frames of an admitted session after 'ready'. -/
def SessionFrames (frames : List Frame) : Prop :=
  ∃ body final, frames = body ++ final ∧ (∀ frame ∈ body, IsSessionFrame frame) ∧
    (final = [] ∨ ∃ health frame, final = [frame] ∧ IsHealth health frame ∧
      (health = "expired" ∨ health = "lost" ∨ health = "revoked"))

theorem SessionFrames.nil : SessionFrames [] := ⟨[], [], rfl, by simp, .inl rfl⟩

theorem SessionFrames.cons {frame : Frame} {frames : List Frame} (hframe : IsSessionFrame frame)
    (h : SessionFrames frames) : SessionFrames (frame :: frames) := by
  obtain ⟨body, final, rfl, hbody, hfinal⟩ := h
  exact ⟨frame :: body, final, rfl, List.forall_mem_cons.mpr ⟨hframe, hbody⟩, hfinal⟩

theorem SessionFrames.last {health : String} {frame : Frame} (hframe : IsHealth health frame)
    (h : health = "expired" ∨ health = "lost" ∨ health = "revoked") : SessionFrames [frame] :=
  ⟨[], [frame], rfl, by simp, .inr ⟨health, frame, rfl, hframe, h⟩⟩

theorem health_of_finalReason {health reason : String} (h : finalReason health = some reason) :
    health = "expired" ∨ health = "lost" ∨ health = "revoked" := by
  unfold finalReason at h
  split_ifs at h with hexpired hlost hrevoked
  · exact .inl hexpired
  · exact .inr (.inl hlost)
  · exact .inr (.inr hrevoked)

theorem mem_before_of_append_eq {α : Type} {Q : α → Prop} {pre post before after : List α}
    {x y : α} (h : pre ++ x :: post = before ++ y :: after) (hpre : ∀ z ∈ pre, ¬ Q z)
    (hx : ¬ Q x) (hy : Q y) : x ∈ before := by
  rcases List.append_eq_append_iff.mp h with ⟨rest, rfl, hrest⟩ | ⟨rest, rfl, hrest⟩
  · cases rest with
    | nil =>
      obtain ⟨rfl, _⟩ := List.cons_eq_cons.mp hrest
      exact absurd hy hx
    | cons z rest =>
      obtain ⟨rfl, _⟩ := List.cons_eq_cons.mp hrest
      simp
  · cases rest with
    | nil =>
      obtain ⟨rfl, _⟩ := List.cons_eq_cons.mp hrest
      exact absurd hy hx
    | cons z rest =>
      obtain ⟨rfl, _⟩ := List.cons_eq_cons.mp hrest
      exact absurd hy (hpre _ (by simp))

variable [Crates]

theorem run_frames (state : RuntimeState) (launch : BoundAgentLaunch) (session : Session)
    (turns : List Turn) :
    SessionFrames (framesOf (Transcript.run (sessionTurn state launch) session turns).emitted) := by
  refine Transcript.run_rule (L := fun _ _ out => SessionFrames (framesOf out)) ?_ ?_ ?_ session turns
  · intro session
    exact .nil
  · intro session turn turns session' out hresult hout
    have hcases := sessionTurn_cases state launch session turn
    generalize sessionTurn state launch session turn = t at hcases hresult ⊢
    rw [framesOf_append]
    cases hcases with
    | silent exit statuses => simp at hresult
    | closed health reason message => simp at hresult
    | idle => exact hout
    | heartbeat hunexpired honTime hreceived hdue hdeadline hsendable =>
      simpa using hout.cons (.inl (isHealth_healthFrame ..))
    | answered payload challenge report haccepts hanswers =>
      simpa using hout.cons (.inr rfl : IsSessionFrame (reportFrame report))
  · intro session turn turns e hresult
    have hcases := sessionTurn_cases state launch session turn
    generalize sessionTurn state launch session turn = t at hcases hresult ⊢
    cases hcases with
    | silent exit statuses hframes =>
      rw [hframes]
      exact .nil
    | closed health reason message hreason hsendable =>
      simpa using SessionFrames.last (isHealth_healthFrame ..) (health_of_finalReason hreason)
    | idle => simp at hresult
    | heartbeat => simp at hresult
    | answered => simp at hresult

/-- No iteration says 'ready', and one that says 'revoked' has been sent a revocation. -/
theorem health_of_mem_turn_frames {state : RuntimeState} {launch : BoundAgentLaunch}
    {session : Session} {turn : Turn} {health : String} {frame : Frame}
    (hmem : frame ∈ framesOf (sessionTurn state launch session turn).emitted)
    (hhealth : IsHealth health frame) :
    health ≠ "ready" ∧ (health = "revoked" → Revokes state launch turn) := by
  have hcases := sessionTurn_cases state launch session turn
  generalize sessionTurn state launch session turn = t at hcases hmem
  cases hcases with
  | silent exit statuses hframes => simp [hframes] at hmem
  | idle => simp at hmem
  | closed health' reason message hreason hsendable hexpired hlost hrevoked =>
    obtain rfl : frame = _ := by simpa using hmem
    obtain rfl := hhealth.unique hsendable (isHealth_healthFrame ..)
    refine ⟨?_, hrevoked⟩
    rintro rfl
    simp [finalReason] at hreason
  | heartbeat hunexpired honTime hreceived hdue hdeadline hsendable =>
    obtain rfl : frame = _ := by simpa using hmem
    obtain rfl := hhealth.unique hsendable (isHealth_healthFrame ..)
    exact ⟨by decide, fun h => absurd h (by decide)⟩
  | answered payload challenge report =>
    obtain rfl : frame = reportFrame report := by simpa using hmem
    exact absurd hhealth (not_isHealth_reportFrame report)

theorem mem_run_frames {state : RuntimeState} {launch : BoundAgentLaunch} {session : Session}
    {turns : List Turn} {frame : Frame} :
    frame ∈ framesOf (Transcript.run (sessionTurn state launch) session turns).emitted ↔
      ∃ visit ∈ Transcript.visits (sessionTurn state launch) session turns,
        frame ∈ framesOf (sessionTurn state launch visit.1 visit.2).emitted := by
  simp only [mem_framesOf, Transcript.emitted_run, List.mem_flatMap]

/-- The run as its observers see it. -/
structure FollowsGrammar (state : RuntimeState) (arrival : Arrival) (turns : List Turn)
    (trace : List Action) : Prop where
  /-- A hello over the size limit is not sent, and the run is over. -/
  frames : (¬ Sendable (helloFrame state) ∧ framesOf trace = []) ∨
    ∃ rest, framesOf trace = helloFrame state :: rest ∧ (RefusalFrames rest ∨
      ∃ launch session, Admits state arrival launch ∧
        rest = healthFrame launch.sessionId "ready" 0 [] :: session ∧ SessionFrames session)
  ready : ∀ frame ∈ framesOf trace, IsHealth "ready" frame → ∃ launch, Admits state arrival launch
  protected_after_ready : ∀ before status after, trace = before ++ .publish status :: after →
    status.state = "protected" → ∃ frame ∈ framesOf before, IsHealth "ready" frame
  revoked : ∀ frame ∈ framesOf trace, IsHealth "revoked" frame →
    ∃ launch, Admits state arrival launch ∧ ∃ turn ∈ turns, Revokes state launch turn

theorem Refusal.followsGrammar {state : RuntimeState} {arrival : Arrival} {turns : List Turn}
    {out : List Action} (h : Refusal out) :
    FollowsGrammar state arrival turns (.write (helloFrame state) :: out) := by
  have hhealth : ∀ frame ∈ framesOf (.write (helloFrame state) :: out), ∀ health,
      IsHealth health frame → health = "rejected" ∨ health = "update_required" := by
    intro frame hmem health hhealth
    rw [framesOf_write] at hmem
    rcases List.mem_cons.mp hmem with rfl | hmem
    · exact absurd hhealth (not_isHealth_helloFrame state)
    · rcases h.frames with hnone | ⟨health', frame', hone, hsendable, hframe', hword⟩
      · exact absurd hmem (by simp [hnone])
      · obtain rfl : frame = frame' := by simpa [hone] using hmem
        rwa [hhealth.unique hsendable hframe']
  refine { frames := .inr ⟨framesOf out, rfl, .inl ?_⟩, ready := ?_,
           protected_after_ready := ?_, revoked := ?_ }
  · rcases h.frames with hnone | ⟨health, frame, hone, _, hframe, hword⟩
    · exact .inl hnone
    · exact .inr ⟨health, frame, hone, hframe, hword⟩
  · intro frame hmem hready
    exact absurd (hhealth frame hmem _ hready) (by decide)
  · intro before status after htrace hprotected
    have hmem : Action.publish status ∈ Action.write (helloFrame state) :: out := by
      simp [htrace]
    have hout : Action.publish status ∈ out := by simpa using hmem
    exact absurd hprotected (h.statuses status (mem_statusesOf.mpr hout))
  · intro frame hmem hrevoked
    exact absurd (hhealth frame hmem _ hrevoked) (by decide)

omit [Crates] in
theorem protected_after_greeting {state : RuntimeState} {launch : BoundAgentLaunch}
    {rest before after : List Action} {status : RuntimeStatus}
    (h : .write (helloFrame state) :: (greeting state launch ++ rest) =
      before ++ .publish status :: after) (hstatus : status.state = "protected") :
    ∃ frame ∈ framesOf before, IsHealth "ready" frame := by
  refine ⟨_, mem_framesOf.mpr ?_, isHealth_healthFrame launch.sessionId "ready" 0 []⟩
  have hsplit : (.write (helloFrame state) :: (published state "awaiting_server_admission" none ++
      published state "verifying_signed_launch_bundle" none)) ++
      .write (healthFrame launch.sessionId "ready" 0 []) ::
        (published state "protected" none ++ rest) = before ++ .publish status :: after := by
    simpa [greeting, List.append_assoc] using h
  refine mem_before_of_append_eq (Q := fun action => ∃ status : RuntimeStatus,
    action = .publish status ∧ status.state = "protected") hsplit ?_ ?_ ⟨status, rfl, hstatus⟩
  · rintro action hmem ⟨status, rfl, hprotected⟩
    have hpre : Action.publish status ∈ published state "awaiting_server_admission" none ++
        published state "verifying_signed_launch_bundle" none := by simpa using hmem
    rcases List.mem_append.mp hpre with hmem | hmem
    · rw [state_of_mem_published (mem_statusesOf.mpr hmem)] at hprotected
      exact absurd hprotected (by decide)
    · rw [state_of_mem_published (mem_statusesOf.mpr hmem)] at hprotected
      exact absurd hprotected (by decide)
  · rintro ⟨status, hwrite, _⟩
    simp at hwrite

/-- Every run follows the grammar. -/
theorem serve_followsGrammar (state : RuntimeState) (arrival : Arrival) (turns : List Turn) :
    FollowsGrammar state arrival turns (serve state arrival turns).emitted := by
  have hcases := serve_cases state arrival turns
  generalize serve state arrival turns = t at hcases ⊢
  cases hcases with
  | mute hlarge =>
    exact { frames := .inl ⟨hlarge, rfl⟩
            ready := by simp
            protected_after_ready := by simp
            revoked := by simp }
  | refused out exit h => exact h.followsGrammar
  | admitted launch hadmits hready =>
    have hsession := run_frames state launch (openSession arrival launch) turns
    refine { frames := .inr ⟨_, framesOf_write .., .inr ⟨launch, _, hadmits, ?_, hsession⟩⟩
             ready := fun _ _ _ => ⟨launch, hadmits⟩
             protected_after_ready := fun _ _ _ => protected_after_greeting
             revoked := ?_ }
    · simp [greeting]
    · intro frame hmem hrevoked
      have hrun : frame ∈ framesOf
          (Transcript.run (sessionTurn state launch) (openSession arrival launch) turns).emitted := by
        simp only [greeting, framesOf_write, framesOf_append, framesOf_published,
          List.nil_append, List.mem_cons, List.cons_append] at hmem
        rcases hmem with rfl | rfl | hmem
        · exact absurd hrevoked (not_isHealth_helloFrame state)
        · exact absurd ((isHealth_healthFrame ..).unique hready hrevoked) (by decide)
        · exact hmem
      obtain ⟨visit, hvisit, hframe⟩ := mem_run_frames.mp hrun
      refine ⟨launch, hadmits, visit.2, ?_, (health_of_mem_turn_frames hframe hrevoked).2 rfl⟩
      exact (Transcript.visits_inputs_prefix _ turns).subset (List.mem_map_of_mem hvisit)

end CertaelAgent.Runtime
