import CertaelAgent.Foundation.CheckedInt
import CertaelAgent.Runtime.Lifetime

/-!
# How long the Agent is silent

The loop computes how long it may wait: until the next heartbeat, the report deadline or the end
of the policy, and at least a second. A frame from the game ends the wait early and does not move
the next heartbeat. If the waits take as long as they should, give or take a slack, then the game
hears from its Agent at regular times, whatever it sends and however often.
-/

namespace CertaelAgent.Runtime

open ProtoWire Protocol Ipc

/-- When the loop has something to do even if nothing is received. -/
def wakeAt (launch : BoundAgentLaunch) (session : Session) : Int64 :=
  min (min session.nextHeartbeat session.reportDeadline) launch.policyExpiresAtUnix

/-- The seconds that a receive may take. -/
def wait (launch : BoundAgentLaunch) (session : Session) (now : Int64) : Int64 :=
  max (wakeAt launch session - now) 1

/-- The loop gets as far as its receive. -/
def Waits (launch : BoundAgentLaunch) (session : Session) (turn : Turn) : Prop :=
  turn.now < launch.policyExpiresAtUnix ∧ turn.now < session.reportDeadline

instance (launch : BoundAgentLaunch) (session : Session) (turn : Turn) :
    Decidable (Waits launch session turn) :=
  inferInstanceAs (Decidable (_ ∧ _))

/-- A receive times out when its wait is over and not before, and never returns more than the slack
later than that. -/
structure Punctual (launch : BoundAgentLaunch) (slack : ℕ) (session : Session) (turn : Turn) :
    Prop where
  started : 0 ≤ turn.now.toInt
  ended : Waits launch session turn → turn.after.toInt ≤ 2 ^ 62
  forward : Waits launch session turn → turn.now.toInt ≤ turn.after.toInt
  waited : Waits launch session turn → turn.received = .timeout →
    turn.now.toInt + (wait launch session turn.now).toInt ≤ turn.after.toInt
  prompt : Waits launch session turn →
    turn.after.toInt ≤ turn.now.toInt + (wait launch session turn.now).toInt + slack

/-- From one clock reading to the next the loop takes no more than the slack. -/
def Follows (slack : ℕ) (earlier later : Int64) : Prop :=
  earlier.toInt ≤ later.toInt ∧ later.toInt ≤ earlier.toInt + slack

section

variable [Crates]

/-- The time at which an iteration writes a frame, if it does. -/
def writtenAt (state : RuntimeState) (launch : BoundAgentLaunch) (visit : Session × Turn) :
    Option ℤ :=
  if framesOf (sessionTurn state launch visit.1 visit.2).emitted = [] then none
  -- what is written at the head of the loop is written without another look at the clock
  else if launch.policyExpiresAtUnix ≤ visit.2.now ∨ visit.1.reportDeadline ≤ visit.2.now then
    some visit.2.now.toInt
  else some visit.2.after.toInt

/-- The time of the last frame after these iterations. -/
def lastWritten (state : RuntimeState) (launch : BoundAgentLaunch) (start : ℤ)
    (visits : List (Session × Turn)) : ℤ :=
  visits.foldl (fun last visit => (writtenAt state launch visit).getD last) start

/-- The clock readings of a run keep up with what the loop does. -/
structure KeepsPace (state : RuntimeState) (arrival : Arrival) (launch : BoundAgentLaunch)
    (slack : ℕ) (turns : List Turn) : Prop where
  started : 0 ≤ arrival.heartbeatFrom.toInt
  ended : arrival.deadlineFrom.toInt ≤ 2 ^ 62
  timers : arrival.heartbeatFrom.toInt ≤ arrival.deadlineFrom.toInt
  first : ∀ turn ∈ turns.head?, Follows slack arrival.heartbeatFrom turn.now ∧
    Follows slack arrival.deadlineFrom turn.now
  between : turns.IsChain fun earlier later => Follows slack earlier.after later.now
  punctual : ∀ visit ∈ Transcript.visits (sessionTurn state launch) (openSession arrival launch)
    turns, Punctual launch slack visit.1 visit.2

/-! ## Arithmetic of the timers -/

variable {state : RuntimeState} {arrival : Arrival} {launch : BoundAgentLaunch}
  {session session' : Session} {turn next : Turn} {slack : ℕ} {last : ℤ}

omit [Crates] in
theorem toInt_add_seconds {time : Int64} (hlow : 0 ≤ time.toInt) (hhigh : time.toInt ≤ 2 ^ 62)
    (value : UInt32) : (time + seconds value).toInt = time.toInt + value.toNat := by
  have hlt := value.toNat_lt
  have hvalue : (seconds value).toInt = value.toNat := by
    change value.toUInt64.toBitVec.toInt = value.toNat
    rw [BitVec.toInt_eq_toNat_of_lt]
    · rfl
    · change 2 * value.toUInt64.toNat < 2 ^ 64
      rw [UInt32.toNat_toUInt64]
      omega
  rw [← hvalue]
  apply (Int64.toInt_of_checkedAdd (Int64.checkedAdd_of_fits _ _)).2 <;> omega

omit [Crates] in
theorem toInt_min (a b : Int64) : (min a b).toInt = min a.toInt b.toInt := by
  change (if a ≤ b then a else b).toInt = _
  split_ifs with h
  · exact (min_eq_left (Int64.le_iff_toInt_le.mp h)).symm
  · rw [Int64.not_le, Int64.lt_iff_toInt_lt] at h
    exact (min_eq_right h.le).symm

omit [Crates] in
theorem toInt_wakeAt (launch : BoundAgentLaunch) (session : Session) :
    (wakeAt launch session).toInt = min (min session.nextHeartbeat.toInt
      session.reportDeadline.toInt) launch.policyExpiresAtUnix.toInt := by
  rw [wakeAt, toInt_min, toInt_min]

omit [Crates] in
/-- The loop waits for what comes first, but for a second if that is over. -/
theorem toInt_wait (hnow : 0 ≤ turn.now.toInt) (hheartbeat : 0 ≤ session.nextHeartbeat.toInt)
    (hwaits : Waits launch session turn) :
    (wait launch session turn.now).toInt =
      max ((wakeAt launch session).toInt - turn.now.toInt) 1 := by
  obtain ⟨hexpiry, hdeadline⟩ := hwaits
  rw [Int64.lt_iff_toInt_lt] at hexpiry hdeadline
  have hwake := toInt_wakeAt launch session
  have hnowHigh := turn.now.toInt_lt
  have hwakeHigh := (wakeAt launch session).toInt_lt
  have hsub : (wakeAt launch session - turn.now).toInt =
      (wakeAt launch session).toInt - turn.now.toInt := by
    apply (Int64.toInt_of_checkedSub (Int64.checkedSub_of_fits _ _)).2 <;> omega
  have hone : (1 : Int64).toInt = 1 := rfl
  rw [← hsub, ← hone]
  change (if wakeAt launch session - turn.now ≤ 1 then 1
    else wakeAt launch session - turn.now).toInt = _
  split_ifs with h
  · exact (max_eq_right (Int64.le_iff_toInt_le.mp h)).symm
  · rw [Int64.not_le, Int64.lt_iff_toInt_lt] at h
    exact (max_eq_left h.le).symm

/-! ## The rhythm of the loop -/

/-- What holds at the head of the loop when the last frame has been written at `last`. -/
structure Rhythm (launch : BoundAgentLaunch) (slack : ℕ) (session : Session) (last now : ℤ) :
    Prop where
  ordered : last ≤ now
  started : 0 ≤ session.nextHeartbeat.toInt
  heartbeat : session.nextHeartbeat.toInt ≤ last + launch.heartbeatSeconds.toNat
  recent : now ≤ last + launch.heartbeatSeconds.toNat + 3 * slack
  -- the heartbeat is late only because a frame has been written meanwhile or the session is over
  due : session.nextHeartbeat.toInt ≤ now → now ≤ last + slack ∨
    session.reportDeadline.toInt ≤ now ∨ launch.policyExpiresAtUnix.toInt ≤ now
  deadline : now ≤ session.reportDeadline.toInt + 2 * slack

omit [Crates] in
/-- A wait ends before its limits are over by more than the slack, and in time for the rhythm. -/
theorem Rhythm.after_le (h : Rhythm launch slack session last turn.now.toInt)
    (hpositive : 0 < launch.heartbeatSeconds.toNat)
    (hpunctual : Punctual launch slack session turn) (hwaits : Waits launch session turn) :
    turn.after.toInt ≤ last + launch.heartbeatSeconds.toNat + 2 * slack ∧
      turn.after.toInt ≤ session.reportDeadline.toInt + slack ∧
      turn.after.toInt ≤ launch.policyExpiresAtUnix.toInt + slack := by
  have hprompt := hpunctual.prompt hwaits
  have hwait := toInt_wait hpunctual.started h.started hwaits
  have hwake := toInt_wakeAt launch session
  have hheartbeat := h.heartbeat
  obtain ⟨hexpiry, hdeadline⟩ := hwaits
  rw [Int64.lt_iff_toInt_lt] at hexpiry hdeadline
  refine ⟨?_, by omega, by omega⟩
  by_cases hlate : session.nextHeartbeat.toInt ≤ turn.now.toInt
  · have hrecent : turn.now.toInt ≤ last + slack := by
      have hdue := h.due hlate
      omega
    omega
  · omega

theorem Rhythm.writtenAt_le (h : Rhythm launch slack session last turn.now.toInt)
    (hpositive : 0 < launch.heartbeatSeconds.toNat)
    (hpunctual : Punctual launch slack session turn) {time : ℤ}
    (hwritten : writtenAt state launch (session, turn) = some time) :
    last ≤ time ∧ time ≤ last + launch.heartbeatSeconds.toNat + 3 * slack := by
  unfold writtenAt at hwritten
  split_ifs at hwritten with hnone hover
  · obtain rfl := Option.some.inj hwritten
    exact ⟨h.ordered, h.recent⟩
  · have htime : turn.after.toInt = time := Option.some.inj hwritten
    rw [not_or, Int64.not_le, Int64.not_le] at hover
    have hafter := (h.after_le hpositive hpunctual hover).1
    have hforward := hpunctual.forward hover
    have hordered := h.ordered
    constructor <;> omega

omit [Crates] in
theorem close_ne_ok (health reason message : String) :
    (do writeHealth launch.sessionId health session.lastReportAt [reason]
        publishRuntime state health (some reason)
        bail message : Serving Session).result ≠ .ok session' := by
  unfold writeHealth
  by_cases hsendable : Sendable (healthFrame launch.sessionId health session.lastReportAt [reason])
  · rw [sendFrame_of_sendable hsendable, Transcript.emit_bind, publishRuntime_bind]
    intro h
    cases h
  · rw [sendFrame_of_not_sendable hsendable]
    intro h
    cases h

theorem waits_of_continues (h : (sessionTurn state launch session turn).result = .ok session') :
    Waits launch session turn := by
  unfold sessionTurn at h
  split_ifs at h with hexpired hlost
  · exact absurd h (close_ne_ok _ _ _)
  · exact absurd h (close_ne_ok _ _ _)
  · exact ⟨Int64.not_le.mp hexpired, Int64.not_le.mp hlost⟩

theorem writtenAt_of_waits (hwaits : Waits launch session turn)
    (hframes : framesOf (sessionTurn state launch session turn).emitted ≠ []) :
    writtenAt state launch (session, turn) = some turn.after.toInt := by
  unfold writtenAt
  rw [if_neg hframes, if_neg]
  rw [not_or, Int64.not_le, Int64.not_le]
  exact hwaits

theorem over_of_idle (hpunctual : Punctual launch slack session turn)
    (hstarted : 0 ≤ session.nextHeartbeat.toInt) (hwaits : Waits launch session turn)
    (hreceived : turn.received = .timeout)
    (hsendable : Sendable (healthFrame launch.sessionId "protected" session.lastReportAt []))
    (hframes : framesOf (sessionTurn state launch session turn).emitted = []) :
    session.reportDeadline.toInt ≤ turn.after.toInt ∨
      launch.policyExpiresAtUnix.toInt ≤ turn.after.toInt := by
  have hnotDue : ¬ HeartbeatDue launch session turn := by
    intro hdue
    obtain ⟨frame, hmem, -⟩ := writes_heartbeat_iff.mpr hdue
    rw [hframes] at hmem
    cases hmem
  by_contra hopen
  rw [not_or, not_le, not_le] at hopen
  have hwaited := hpunctual.waited hwaits hreceived
  have hwait := toInt_wait hpunctual.started hstarted hwaits
  have hwake := toInt_wakeAt launch session
  apply hnotDue
  exact
    { unexpired := hwaits.1
      onTime := hwaits.2
      received := hreceived
      due := Int64.le_iff_toInt_le.mpr (by omega)
      beforeDeadline := Int64.lt_iff_toInt_lt.mpr hopen.1
      sendable := hsendable }

/-- An iteration keeps the rhythm, and the next one comes in time for the end of the policy. -/
theorem Rhythm.step (h : Rhythm launch slack session last turn.now.toInt)
    (hpositive : 0 < launch.heartbeatSeconds.toNat)
    (hpunctual : Punctual launch slack session turn)
    (hsendable : Sendable (healthFrame launch.sessionId "protected" session.lastReportAt []))
    (hresult : (sessionTurn state launch session turn).result = .ok session')
    (hfollows : Follows slack turn.after next.now) :
    Rhythm launch slack session' ((writtenAt state launch (session, turn)).getD last)
        next.now.toInt ∧
      next.now.toInt ≤ launch.policyExpiresAtUnix.toInt + 2 * slack := by
  have hwaits := waits_of_continues hresult
  obtain ⟨hafter, hdeadline, hexpiry⟩ := h.after_le hpositive hpunctual hwaits
  have hforward := hpunctual.forward hwaits
  have hstarted := hpunctual.started
  have hordered := h.ordered
  have hlow : 0 ≤ turn.after.toInt := hstarted.trans hforward
  obtain ⟨hnext, hsoon⟩ := hfollows
  have hover : turn.received = .timeout →
      framesOf (sessionTurn state launch session turn).emitted = [] →
      session.reportDeadline.toInt ≤ turn.after.toInt ∨
        launch.policyExpiresAtUnix.toInt ≤ turn.after.toInt :=
    fun hreceived => over_of_idle hpunctual h.started hwaits hreceived hsendable
  have hwritten : framesOf (sessionTurn state launch session turn).emitted ≠ [] →
      writtenAt state launch (session, turn) = some turn.after.toInt := writtenAt_of_waits hwaits
  have hsilent : framesOf (sessionTurn state launch session turn).emitted = [] →
      writtenAt state launch (session, turn) = none := fun hframes => if_pos hframes
  have hcases := sessionTurn_cases state launch session turn
  refine ⟨?_, by omega⟩
  generalize sessionTurn state launch session turn = t at hcases hresult hover hwritten hsilent
  cases hcases with
  | silent exit statuses => cases hresult
  | closed health reason message => cases hresult
  | idle hreceived =>
    obtain rfl := Except.ok.inj hresult
    have hlate := hover hreceived rfl
    rw [hsilent rfl, Option.getD_none]
    exact
      { ordered := by omega
        started := h.started
        heartbeat := h.heartbeat
        recent := by omega
        due := fun _ => by omega
        deadline := by omega }
  | heartbeat hunexpired honTime hreceived hdue hbefore =>
    obtain rfl := Except.ok.inj hresult
    rw [hwritten (by simp), Option.getD_some]
    have hnew := toInt_add_seconds hlow (hpunctual.ended hwaits) launch.heartbeatSeconds
    exact
      { ordered := hnext
        started := by dsimp only; omega
        heartbeat := hnew.le
        recent := by omega
        due := fun _ => .inl hsoon
        deadline := by dsimp only; omega }
  | answered payload challenge report haccepts hanswers =>
    obtain rfl := Except.ok.inj hresult
    rw [hwritten (by simp), Option.getD_some]
    have hheartbeat := h.heartbeat
    have hnew := toInt_add_seconds hlow (hpunctual.ended hwaits)
      (launch.reportSeconds + launch.disconnectGraceSeconds)
    exact
      { ordered := hnext
        started := h.started
        heartbeat := by
          change session.nextHeartbeat.toInt ≤ _
          omega
        recent := by omega
        due := fun _ => .inl hsoon
        deadline := by
          change next.now.toInt ≤ (turn.after + reportWindow launch).toInt + _
          rw [reportWindow, hnew]
          omega }

theorem rhythm_run {turns : List Turn} (hpositive : 0 < launch.heartbeatSeconds.toNat)
    (hsendable : ∀ lastReportAt,
      Sendable (healthFrame launch.sessionId "protected" lastReportAt []))
    (hpunctual : ∀ visit ∈ Transcript.visits (sessionTurn state launch) session turns,
      Punctual launch slack visit.1 visit.2)
    (hbetween : turns.IsChain fun earlier later => Follows slack earlier.after later.now)
    (hfirst : ∀ turn ∈ turns.head?, Rhythm launch slack session last turn.now.toInt)
    {before rest : List (Session × Turn)} {visit : Session × Turn}
    (hsplit : Transcript.visits (sessionTurn state launch) session turns =
      before ++ visit :: rest) :
    Rhythm launch slack visit.1 (lastWritten state launch last before) visit.2.now.toInt ∧
      (before ≠ [] → visit.2.now.toInt ≤ launch.policyExpiresAtUnix.toInt + 2 * slack) := by
  induction turns generalizing session last before with
  | nil => simp [Transcript.visits] at hsplit
  | cons turn turns ih =>
    have hrhythm := hfirst turn rfl
    cases before with
    | nil =>
      rw [Transcript.visits, List.nil_append] at hsplit
      obtain ⟨rfl, -⟩ := List.cons_eq_cons.mp hsplit
      exact ⟨hrhythm, fun hne => absurd rfl hne⟩
    | cons first before =>
      cases hresult : (sessionTurn state launch session turn).result with
      | error exit =>
        rw [Transcript.visits_cons_of_error hresult] at hsplit
        simp at hsplit
      | ok session' =>
        rw [Transcript.visits_cons_of_ok hresult] at hsplit hpunctual
        rw [List.cons_append] at hsplit
        obtain ⟨rfl, hrest⟩ := List.cons_eq_cons.mp hsplit
        have hstep : ∀ next ∈ turns.head?, Rhythm launch slack session'
            ((writtenAt state launch (session, turn)).getD last) next.now.toInt ∧
            next.now.toInt ≤ launch.policyExpiresAtUnix.toInt + 2 * slack := by
          intro next hnext
          cases turns with
          | nil => cases hnext
          | cons second turns =>
            obtain rfl := Option.some.inj hnext
            have hnow := hpunctual _ (List.mem_cons_self ..)
            exact hrhythm.step hpositive hnow (hsendable _) hresult
              (List.isChain_cons_cons.mp hbetween).1
        obtain ⟨hvisit, hlater⟩ := ih (fun visit hvisit => hpunctual visit
          (List.mem_cons_of_mem _ hvisit)) (List.IsChain.tail hbetween)
          (fun next hnext => (hstep next hnext).1) hrest
        refine ⟨hvisit, fun _ => ?_⟩
        cases before with
        | cons second before => exact hlater (List.cons_ne_nil _ _)
        | nil =>
          cases turns with
          | nil => cases hrest
          | cons next turns =>
            rw [Transcript.visits, List.nil_append] at hrest
            obtain ⟨rfl, -⟩ := List.cons_eq_cons.mp hrest
            exact (hstep next rfl).2

theorem Admits.heartbeatSeconds (h : Admits state arrival launch) :
    0 < launch.heartbeatSeconds.toNat := by
  obtain ⟨payload, evidence, -, hauth, -, rfl⟩ := h.evidence
  have hvalid := hauth.policyValid
  unfold validatePolicy at hvalid
  split_ifs at hvalid with hinvalid hexpired
  simp only [not_or, not_not] at hinvalid
  obtain ⟨-, -, -, -, -, -, hheartbeat, -⟩ := hinvalid
  have hfive := UInt32.le_iff_toNat_le.mp hheartbeat.1
  change 5 ≤ evidence.policy.heartbeatSeconds.toNat at hfive
  change 0 < evidence.policy.heartbeatSeconds.toNat
  omega

/-- Whatever the game sends and whenever it does, it never waits longer for a frame of its Agent
than a heartbeat and three times the slack, and the session is closed no later than twice the slack
after its report deadline and, once the loop is going, after the end of its policy. -/
theorem never_silent {turns : List Turn} (hadmits : Admits state arrival launch)
    (hpace : KeepsPace state arrival launch slack turns) {before rest : List (Session × Turn)}
    {visit : Session × Turn}
    (hsplit : Transcript.visits (sessionTurn state launch) (openSession arrival launch) turns =
      before ++ visit :: rest) :
    let last := lastWritten state launch arrival.heartbeatFrom.toInt before
    let limit := last + launch.heartbeatSeconds.toNat + 3 * slack
    visit.2.now.toInt ≤ limit ∧
      (∀ time, writtenAt state launch visit = some time → last ≤ time ∧ time ≤ limit) ∧
      visit.2.now.toInt ≤ visit.1.reportDeadline.toInt + 2 * slack ∧
      (before ≠ [] → visit.2.now.toInt ≤ launch.policyExpiresAtUnix.toInt + 2 * slack) := by
  have hpositive := hadmits.heartbeatSeconds
  have hfirst : ∀ turn ∈ turns.head?, Rhythm launch slack (openSession arrival launch)
      arrival.heartbeatFrom.toInt turn.now.toInt := by
    intro turn hturn
    obtain ⟨⟨hafter, hsoon⟩, -, hlate⟩ := hpace.first turn hturn
    have hstarted := hpace.started
    have hended := hpace.ended
    have htimers := hpace.timers
    have hheartbeat := toInt_add_seconds hstarted (htimers.trans hended) launch.heartbeatSeconds
    have hdeadline := toInt_add_seconds (hstarted.trans htimers) hended
      (launch.reportSeconds + launch.disconnectGraceSeconds)
    exact
      { ordered := hafter
        started := by
          rw [openSession, hheartbeat]
          omega
        heartbeat := hheartbeat.le
        recent := by omega
        due := fun _ => .inl hsoon
        deadline := by
          rw [openSession, reportWindow, hdeadline]
          omega }
  obtain ⟨hrhythm, hexpiry⟩ :=
    rhythm_run hpositive hadmits.sendable_protected hpace.punctual hpace.between hfirst hsplit
  have hmem : visit ∈ Transcript.visits (sessionTurn state launch) (openSession arrival launch)
      turns := by
    rw [hsplit]
    exact List.mem_append_right _ (List.mem_cons_self ..)
  exact ⟨hrhythm.recent, fun time htime =>
    hrhythm.writtenAt_le hpositive (hpace.punctual visit hmem) htime, hrhythm.deadline, hexpiry⟩

end

namespace Sample

/-- The heartbeat of five seconds, and then the end of the policy. -/
def quietTurns : List Turn := [lastHeartbeat, { lastHeartbeat with now := 1005 }]

theorem keepsPace : KeepsPace state arrival launch 1 quietTurns := by
  have hpunctual : ∀ visit ∈ Transcript.visits (sessionTurn state launch)
      (openSession arrival launch) quietTurns,
      0 ≤ visit.2.now.toInt ∧ (Waits launch visit.1 visit.2 → visit.2.after.toInt ≤ 2 ^ 62 ∧
        visit.2.now.toInt ≤ visit.2.after.toInt ∧ (visit.2.received = .timeout →
          visit.2.now.toInt + (wait launch visit.1 visit.2.now).toInt ≤ visit.2.after.toInt) ∧
        visit.2.after.toInt ≤
          visit.2.now.toInt + (wait launch visit.1 visit.2.now).toInt + (1 : ℕ)) := by
    decide +kernel
  exact
    { started := by decide
      ended := by decide
      timers := by decide
      first := by unfold Follows; decide
      between := by unfold Follows; decide
      punctual := fun visit hvisit =>
        { started := (hpunctual visit hvisit).1
          ended := fun hwaits => ((hpunctual visit hvisit).2 hwaits).1
          forward := fun hwaits => ((hpunctual visit hvisit).2 hwaits).2.1
          waited := fun hwaits => ((hpunctual visit hvisit).2 hwaits).2.2.1
          prompt := fun hwaits => ((hpunctual visit hvisit).2 hwaits).2.2.2 } }

end Sample

theorem never_silent_sample : ∃ first second : Session × Turn,
    Transcript.visits (sessionTurn Sample.state Sample.launch)
      (openSession Sample.arrival Sample.launch) Sample.quietTurns = [first] ++ second :: [] ∧
    let last := lastWritten Sample.state Sample.launch Sample.arrival.heartbeatFrom.toInt [first]
    let limit := last + Sample.launch.heartbeatSeconds.toNat + 3 * (1 : ℕ)
    second.2.now.toInt ≤ limit ∧
      (∀ time, writtenAt Sample.state Sample.launch second = some time →
        last ≤ time ∧ time ≤ limit) ∧
      second.2.now.toInt ≤ second.1.reportDeadline.toInt + 2 * (1 : ℕ) ∧
      ([first] ≠ [] →
        second.2.now.toInt ≤ Sample.launch.policyExpiresAtUnix.toInt + 2 * (1 : ℕ)) := by
  have hlength : (Transcript.visits (sessionTurn Sample.state Sample.launch)
      (openSession Sample.arrival Sample.launch) Sample.quietTurns).length = 2 := by
    decide +kernel
  obtain ⟨first, second, hvisits⟩ := List.length_eq_two.mp hlength
  exact ⟨first, second, hvisits, never_silent Sample.admits Sample.keepsPace hvisits⟩

end CertaelAgent.Runtime
