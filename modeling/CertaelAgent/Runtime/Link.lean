import CertaelAgent.Ipc.Boundaries
import CertaelAgent.Probe.Delivery
import CertaelAgent.Runtime.ReportChain

/-!
# A game and its Agent

The game calls the probe, a thread of the Agent reads what the game has written, the loop receives
what the thread has read, and what the loop writes arrives at the game in pieces. All of that goes
on at the same time. In whatever order it happens, each side gets what the other has sent, in order
and once, so every report that the game gets answers the challenge that it sent at that place.
-/

namespace CertaelAgent.Runtime

open ProtoWire Protocol Ipc ByteStream Probe

/-- The two processes, what is between them, and what each of them has done. -/
structure Link where
  channel : ChannelState
  /-- Written by the Agent and not yet at the game. -/
  arriving : Bytes
  /-- What the reader thread has sent to the loop. -/
  waiting : List (Except IpcError Frame)
  reading : Bool
  /-- A write of the game has been cut short: the Agent has closed its end, so nothing can be
  written after that. -/
  broken : Bool
  arrival : Option Arrival
  turns : List Turn
  accepted : List Frame
  obtained : List (UInt8 × Bytes)

inductive Event
  | write (messageType : UInt8) (payload : Option Bytes) (payloadLength taken : ℕ)
  | read (memory : ReadMemory) (capacity : ℕ)
  | arrive (count : ℕ)
  | take (chunks : Chunks UInt8)
  | fail
  | bootstrap (arrival : Arrival)
  | turn (turn : Turn)

/-- The pointers that the game passes are valid. -/
def Event.Valid : Event → Prop
  | .write messageType payload payloadLength taken =>
    (Call.write messageType payload payloadLength taken).Valid
  | .read memory capacity => (Call.read memory capacity).Valid
  | _ => True

/-- The frame that a write is about. -/
def handed (messageType : UInt8) (payload : Option Bytes) (payloadLength : ℕ) : Option Frame :=
  match MessageType.tryFrom messageType with
  | .ok messageType => some ⟨messageType, (payload.getD []).take payloadLength⟩
  | .error _ => none

def wire (frames : List Frame) : Bytes := (writeFrames frames).toOption.getD []

def Received.toFrame : Received → Option Frame
  | .frame f => some f
  | _ => none

namespace Link

variable [Crates] (state : RuntimeState) (link : Link)

/-- The frames that `serve` has written. -/
def written : List Frame :=
  match link.arrival with
  | none => [helloFrame state]
  | some arrival => framesOf (serve state arrival link.turns).emitted

/-- `serve` has returned. -/
def ended : Bool :=
  match link.arrival with
  | none => false
  | some arrival => !(serve state arrival link.turns).result.isOk

omit [Crates] in
/-- The frames that `serve` has received. -/
def receivedFrames : List Frame :=
  (link.arrival.toList.map Arrival.received ++ link.turns.map Turn.received).filterMap
    Received.toFrame

omit [Crates] in
/-- What `recv_timeout` returns, and what waits behind it. -/
def next : Received × List (Except IpcError Frame) :=
  match link.waiting with
  | .ok frame :: waiting => (.frame frame, waiting)
  | .error e :: waiting => (.failed e, waiting)
  | [] => (if link.reading then .timeout else .disconnected, [])

/-- A read of the game waits for bytes. -/
def blocked : Bool :=
  link.channel.pending.isNone && (readFrameFrom link.channel.file.incoming).1 == .error .io &&
    !(link.ended state && link.arriving.isEmpty)

/-- `serve` goes on with what it has received. -/
def advance (arrival : Arrival) (turns : List Turn) : Link :=
  { link with
    arrival := some arrival
    turns
    waiting := link.next.2
    arriving := link.arriving ++
      wire ((framesOf (serve state arrival turns).emitted).drop (link.written state).length) }

/-- The channel to the loop holds one message, and the thread another one while it waits. -/
def step : Event → Option Link
  | .write messageType payload payloadLength taken =>
    if link.broken ∧ taken ≠ 0 then none
    else
      let (result, channel) :=
        certaelAgentChannelWrite link.channel messageType payload payloadLength taken
      some { link with
        channel
        broken := link.broken || result == .invalidFrame
        accepted := if result = .ok
          then link.accepted ++ (handed messageType payload payloadLength).toList
          else link.accepted }
  | .read memory capacity =>
    if link.blocked state then none
    else
      let ((result, memory), channel) := certaelAgentChannelRead link.channel memory capacity
      some { link with
        channel
        obtained := link.obtained ++ (Answer.read result memory).delivered.toList }
  | .arrive count =>
    if count = 0 ∨ link.arriving.length < count then none
    else
      let incoming := link.channel.file.incoming ++ [link.arriving.take count]
      some { link with
        channel := { link.channel with file := { link.channel.file with incoming } }
        arriving := link.arriving.drop count }
  | .take chunks =>
    if link.reading ∧ link.waiting.length ≤ 1 ∧ chunks.flatten = link.channel.file.outgoing ∧
        [] ∉ chunks then
      match readFrameFrom chunks with
      | (.error .io, _) => none
      | (result, rest) =>
        some { link with
          channel := { link.channel with
            file := { link.channel.file with outgoing := rest.flatten } }
          waiting := link.waiting ++ [result]
          reading := result.isOk }
    else none
  | .fail =>
    if link.reading ∧ link.waiting.length ≤ 1 then
      some { link with waiting := link.waiting ++ [.error .io], reading := false }
    else none
  | .bootstrap arrival =>
    if link.arrival.isNone ∧ arrival.received = link.next.1 then
      some (link.advance state arrival [])
    else none
  | .turn turn =>
    match link.arrival with
    | none => none
    | some arrival =>
      if ¬ link.ended state ∧ turn.received = link.next.1 then
        some (link.advance state arrival (link.turns ++ [turn]))
      else none

/-- `serve` has sent its hello. -/
def start : Link where
  channel := ⟨⟨[], []⟩, none⟩
  arriving := wire [helloFrame state]
  waiting := []
  reading := true
  broken := false
  arrival := none
  turns := []
  accepted := []
  obtained := []

end Link

/-! ## Frames in transit -/

theorem writeFrames_cons_eq_ok_iff {frame : Frame} {frames : List Frame} {bytes : Bytes} :
    writeFrames (frame :: frames) = .ok bytes ↔ ∃ first others, writeFrame frame = .ok first ∧
      writeFrames frames = .ok others ∧ first ++ others = bytes := by
  simp only [writeFrames, Except.bind_eq_ok_iff, pure, Except.pure, Except.ok.injEq,
    ← exists_and_left]

theorem writeFrames_append {a b : List Frame} {first second : Bytes}
    (ha : writeFrames a = .ok first) (hb : writeFrames b = .ok second) :
    writeFrames (a ++ b) = .ok (first ++ second) := by
  induction a generalizing first with
  | nil =>
    obtain rfl := Except.ok.inj ha
    exact hb
  | cons frame a ih =>
    obtain ⟨sent, others, hsent, hothers, rfl⟩ := writeFrames_cons_eq_ok_iff.mp ha
    rw [List.append_assoc]
    exact writeFrames_cons_eq_ok_iff.mpr ⟨sent, others ++ second, hsent, ih hothers, rfl⟩

theorem writeFrames_wire {frames : List Frame} (h : ∀ frame ∈ frames, Sendable frame) :
    writeFrames frames = .ok (wire frames) := by
  obtain ⟨bytes, hbytes⟩ := writeFrames_isOk h
  rw [wire, hbytes]
  rfl

/-- Frames, and behind them no more than the beginning of another. -/
structure Transit (frames : List Frame) (cut bytes : Bytes) : Prop where
  cutOff : CutOff cut
  whole : ∃ whole, writeFrames frames = .ok whole ∧ bytes = whole ++ cut

section

variable {frames : List Frame} {cut bytes : Bytes} {chunks rest : Chunks UInt8}

theorem written_of_readFrameFrom {frame : Frame} (h : readFrameFrom chunks = (.ok frame, rest)) :
    ∃ sent, writeFrame frame = .ok sent ∧ chunks.flatten = sent ++ rest.flatten := by
  obtain ⟨hsmall, hchunks⟩ := header_of_readFrameFrom h
  exact ⟨_, writeFrame_eq_ok_iff.mpr ⟨hsmall, rfl⟩, hchunks⟩

theorem Transit.frame (h : Transit frames cut bytes) {frame : Frame} {sent behind : Bytes}
    (hsent : writeFrame frame = .ok sent) (hbytes : bytes = sent ++ behind) :
    ∃ others, frames = frame :: others ∧ Transit others cut behind := by
  obtain ⟨hcut, whole, hwhole, rfl⟩ := h
  cases frames with
  | nil =>
    obtain rfl := Except.ok.inj hwhole
    obtain ⟨missing, all, hall, ⟨more, hmore⟩, hne⟩ := hcut
    rw [List.nil_append] at hbytes
    rw [hbytes, List.append_assoc] at hmore
    obtain ⟨rfl, hnil⟩ := written_append_inj hsent hall (hmore.trans (List.append_nil all).symm)
    obtain ⟨rfl, rfl⟩ := List.append_eq_nil_iff.mp hnil
    obtain rfl := Except.ok.inj (hsent.symm.trans hall)
    exact absurd (hbytes.trans (List.append_nil sent)) hne
  | cons first others =>
    obtain ⟨written, rest, hwritten, hrest, rfl⟩ := writeFrames_cons_eq_ok_iff.mp hwhole
    rw [List.append_assoc] at hbytes
    obtain ⟨rfl, rfl⟩ := written_append_inj hwritten hsent hbytes
    exact ⟨others, rfl, hcut, rest, hrest, rfl⟩

theorem transit_of_written (h : writeFrames frames = .ok bytes) : Transit frames [] bytes :=
  ⟨cutOff_nil, bytes, h, (List.append_nil bytes).symm⟩

theorem Transit.written (h : Transit frames [] bytes) : writeFrames frames = .ok bytes := by
  obtain ⟨-, whole, hwhole, rfl⟩ := h
  rwa [List.append_nil]

theorem Transit.write (h : Transit frames [] bytes) {frame : Frame} {sent : Bytes}
    (hsent : writeFrame frame = .ok sent) (taken : ℕ) :
    if taken < sent.length then Transit frames (sent.take taken) (bytes ++ sent.take taken)
    else Transit (frames ++ [frame]) [] (bytes ++ sent.take taken) := by
  split_ifs with hshort
  · refine ⟨⟨frame, sent, hsent, List.take_prefix _ _, ?_⟩, bytes, h.written, rfl⟩
    intro hall
    have hlength := congrArg List.length hall
    rw [List.length_take] at hlength
    omega
  · rw [List.take_of_length_le (by omega)]
    apply transit_of_written
    apply writeFrames_append h.written
    exact writeFrames_cons_eq_ok_iff.mpr ⟨sent, [], hsent, rfl, List.append_nil sent⟩

end

theorem write_cases (state : ChannelState) (messageType : UInt8) (payload : Option Bytes)
    (payloadLength taken : ℕ) :
    certaelAgentChannelWrite state messageType payload payloadLength taken =
        (.invalidArgument, state) ∨
      ∃ frame sent, handed messageType payload payloadLength = some frame ∧
        writeFrame frame = .ok sent ∧
        certaelAgentChannelWrite state messageType payload payloadLength taken =
          (if taken < sent.length then .invalidFrame else .ok, { state with
            file := { state.file with outgoing := state.file.outgoing ++ sent.take taken } }) := by
  unfold certaelAgentChannelWrite handed
  by_cases hnull : 0 < payloadLength ∧ payload = none
  · rw [if_pos hnull]
    exact .inl rfl
  rw [if_neg hnull]
  cases htype : MessageType.tryFrom messageType with
  | error e => exact .inl rfl
  | ok messageType =>
    dsimp only
    by_cases hlarge : MAX_FRAME_PAYLOAD < payloadLength
    · rw [if_pos hlarge]
      exact .inl rfl
    rw [if_neg hlarge]
    have hpayload : (if payloadLength = 0 then [] else (payload.getD []).take payloadLength) =
        (payload.getD []).take payloadLength := by
      split_ifs with hempty
      · rw [hempty, List.take_zero]
      · rfl
    have hsmall : Sendable ⟨messageType, (payload.getD []).take payloadLength⟩ := by
      unfold Sendable
      rw [List.length_take]
      omega
    obtain ⟨sent, hsent⟩ := writeFrame_isOk_iff.mpr hsmall
    refine .inr ⟨_, sent, rfl, hsent, ?_⟩
    simp only [hpayload, writeFrameTo, hsent]
    split_ifs <;> rfl

/-- Of a stream of whole frames, some of which is still to come, a read gets the next frame or has
to wait for it. -/
theorem readFrameFrom_of_transit {coming : List Frame} {chunks : Chunks UInt8} {more : Bytes}
    (hdelivers : Delivers chunks) (h : Transit coming [] (chunks.flatten ++ more)) :
    (∃ frame others rest, coming = frame :: others ∧ readFrameFrom chunks = (.ok frame, rest) ∧
      Delivers rest ∧ Transit others [] (rest.flatten ++ more)) ∨
    readFrameFrom chunks = (.error .io, []) ∧ (more = [] → coming = []) := by
  have hbytes := h.written
  cases coming with
  | nil =>
    have hnil := Except.ok.inj hbytes
    obtain ⟨hflatten, -⟩ := List.append_eq_nil_iff.mp hnil.symm
    obtain rfl := flatten_eq_nil hdelivers hflatten
    exact .inr ⟨rfl, fun _ => rfl⟩
  | cons frame others =>
    obtain ⟨first, behind, hfirst, hothers, happend⟩ := writeFrames_cons_eq_ok_iff.mp hbytes
    by_cases hcut : ∃ missing, first = chunks.flatten ++ missing ∧ missing ≠ []
    · obtain ⟨missing, hmissing, hne⟩ := hcut
      have hproper : chunks.flatten ≠ first := by
        intro heq
        rw [heq] at hmissing
        exact hne (List.self_eq_append_right.mp hmissing)
      refine .inr ⟨readFrameFrom_of_cut hfirst hdelivers ⟨missing, hmissing.symm⟩ hproper, ?_⟩
      rintro rfl
      rw [List.append_nil, hmissing, List.append_assoc] at happend
      exact absurd (List.append_eq_nil_iff.mp (List.append_right_eq_self.mp happend)).1 hne
    · obtain ⟨left, hflatten, hbehind⟩ : ∃ left, chunks.flatten = first ++ left ∧
          behind = left ++ more := by
        rcases List.append_eq_append_iff.mp happend.symm with ⟨missing, hmissing, hmore⟩ | hleft
        · have hnil : missing = [] := by
            by_contra hne
            exact hcut ⟨missing, hmissing, hne⟩
          subst hnil
          exact ⟨[], by rw [hmissing, List.append_nil, List.append_nil], hmore.symm⟩
        · exact hleft
      obtain ⟨rest, hread, hrest, rfl⟩ := readFrameFrom_of_written hfirst hdelivers hflatten
      exact .inl ⟨frame, others, rest, rfl, hread, hrest, transit_of_written (hbehind ▸ hothers)⟩

section

variable [Crates] {state : RuntimeState} {arrival : Arrival} {turns : List Turn}

theorem serve_prefix (state : RuntimeState) (arrival : Arrival) (turns more : List Turn) :
    framesOf (serve state arrival turns).emitted <+:
      framesOf (serve state arrival (turns ++ more)).emitted := by
  apply List.IsPrefix.filterMap
  unfold serve
  apply Transcript.bind_prefix
  intro _
  apply Transcript.bind_prefix
  intro ⟨launch, session⟩
  exact Transcript.run_prefix _ session turns more

theorem helloFrame_prefix (hhello : Sendable (helloFrame state)) :
    [helloFrame state] <+: framesOf (serve state arrival turns).emitted := by
  unfold serve
  rw [sendFrame_of_sendable hhello, Transcript.emit_bind]
  exact ⟨framesOf _, rfl⟩

theorem sendable_sessionTurn (state : RuntimeState) (launch : BoundAgentLaunch) (session : Session)
    (turn : Turn) : ∀ frame ∈ framesOf (sessionTurn state launch session turn).emitted,
      Sendable frame := by
  have hcases := sessionTurn_cases state launch session turn
  generalize sessionTurn state launch session turn = t at hcases
  cases hcases with
  | silent exit statuses hframes => simp [hframes]
  | closed health reason message hreason hsendable => simpa using hsendable
  | idle hreceived => simp
  | heartbeat hunexpired honTime hreceived hdue hdeadline hsendable => simpa using hsendable
  | answered payload challenge report haccepts hanswers => simpa using hanswers.sendable

theorem sendable_serve (hhello : Sendable (helloFrame state)) :
    ∀ frame ∈ framesOf (serve state arrival turns).emitted, Sendable frame := by
  have hcases := serve_cases state arrival turns
  generalize serve state arrival turns = t at hcases
  cases hcases with
  | mute hmute => exact absurd hhello hmute
  | refused out exit hrefusal =>
    rw [framesOf_write, List.forall_mem_cons]
    refine ⟨hhello, ?_⟩
    rcases hrefusal.frames with hnone | ⟨health, frame, hone, hsendable, -⟩
    · simp [hnone]
    · simpa [hone] using hsendable
  | admitted launch hadmits hready =>
    rw [framesOf_write, framesOf_append, List.forall_mem_cons, List.forall_mem_append]
    refine ⟨hhello, ?_, ?_⟩
    · simpa [greeting] using hready
    · intro frame hframe
      rw [Transcript.emitted_run, mem_framesOf, List.mem_flatMap] at hframe
      obtain ⟨visit, -, hwritten⟩ := hframe
      exact sendable_sessionTurn state launch visit.1 visit.2 frame (mem_framesOf.mpr hwritten)

end

/-! ## What every event preserves -/

namespace Link

section

variable [Crates] {state : RuntimeState} {link link' : Link}

/-- Each side has got the first frames that the other has sent, and the others are on their way. -/
structure Sound (state : RuntimeState) (link : Link) : Prop where
  idle : link.arrival = none → link.turns = []
  delivers : Delivers link.channel.file.incoming
  toGame : ∃ coming, (link.written state).map seen =
      link.obtained ++ (link.channel.pending.toList ++ coming).map seen ∧
    Transit coming [] (link.channel.file.incoming.flatten ++ link.arriving)
  toAgent : ∃ coming cut, link.accepted =
      link.receivedFrames ++ (link.waiting.filterMap Except.toOption ++ coming) ∧
    (link.reading → Transit coming cut link.channel.file.outgoing) ∧ (¬ link.broken → cut = [])

namespace Sound

theorem start (hhello : Sendable (helloFrame state)) : Sound state (Link.start state) where
  idle _ := rfl
  delivers := List.forall_mem_nil _
  toGame := ⟨[helloFrame state], rfl, transit_of_written (writeFrames_wire (by simpa using hhello))⟩
  toAgent := ⟨[], [], rfl, fun _ => transit_of_written rfl, fun _ => rfl⟩

theorem write {messageType : UInt8} {payload : Option Bytes} {payloadLength taken : ℕ}
    (h : Sound state link)
    (hstep : link.step state (.write messageType payload payloadLength taken) = some link') :
    Sound state link' := by
  obtain ⟨coming, cut, haccepted, htransit, hwhole⟩ := h.toAgent
  have hopen : ¬ (link.broken ∧ taken ≠ 0) := by
    intro hstop
    rw [step, if_pos hstop] at hstep
    cases hstep
  rw [step, if_neg hopen] at hstep
  rcases write_cases link.channel messageType payload payloadLength taken with
    hwrite | ⟨frame, sent, hhanded, hsent, hwrite⟩
  · rw [hwrite] at hstep
    obtain rfl := Option.some.inj hstep
    exact ⟨h.idle, h.delivers, h.toGame, coming, cut, haccepted, htransit,
      fun hunbroken => hwhole (by simpa using hunbroken)⟩
  rw [hwrite] at hstep
  by_cases hshort : taken < sent.length
  · rw [if_pos hshort] at hstep
    obtain rfl := Option.some.inj hstep
    by_cases hbroken : link.broken
    · -- nothing more is written
      obtain rfl : taken = 0 := by
        by_contra hne
        exact hopen ⟨hbroken, hne⟩
      refine ⟨h.idle, h.delivers, h.toGame, coming, cut, haccepted, ?_, by simp⟩
      simpa using htransit
    · obtain rfl := hwhole hbroken
      refine ⟨h.idle, h.delivers, h.toGame, coming, sent.take taken, haccepted, ?_, by simp⟩
      intro hreading
      have hwritten := (htransit hreading).write hsent taken
      rwa [if_pos hshort] at hwritten
  · rw [if_neg hshort] at hstep
    obtain rfl := Option.some.inj hstep
    have hunbroken : ¬ link.broken := by
      intro hbroken
      have hnonempty := List.length_pos_of_ne_nil (ne_nil_of_written hsent)
      exact hopen ⟨hbroken, by omega⟩
    obtain rfl := hwhole hunbroken
    refine ⟨h.idle, h.delivers, h.toGame, coming ++ [frame], [], ?_, ?_, fun _ => rfl⟩
    · simp [hhanded, haccepted, receivedFrames]
    · intro hreading
      have hwritten := (htransit hreading).write hsent taken
      rwa [if_neg hshort] at hwritten

theorem of_handOut {frame : Frame} {coming : List Frame} {memory : ReadMemory} {capacity : ℕ}
    {channel : ChannelState} (h : Sound state link) (hvalid : memory.Valid capacity)
    (hdelivers : Delivers channel.file.incoming)
    (houtgoing : channel.file.outgoing = link.channel.file.outgoing)
    (hwritten : (link.written state).map seen = link.obtained ++ (frame :: coming).map seen)
    (htransit : Transit coming [] (channel.file.incoming.flatten ++ link.arriving)) :
    Sound state { link with
      channel := (handOut frame channel memory capacity).2
      obtained := link.obtained ++ (Answer.read (handOut frame channel memory capacity).1.1
        (handOut frame channel memory capacity).1.2).delivered.toList } := by
  have htoAgent := h.toAgent
  rw [← houtgoing] at htoAgent
  rw [handOut_eq]
  split_ifs with hfits
  · rw [delivered_handedOut hvalid hfits]
    refine ⟨h.idle, hdelivers, ⟨coming, ?_, htransit⟩, htoAgent⟩
    simpa [written] using hwritten
  · rw [delivered_refused]
    refine ⟨h.idle, hdelivers, ⟨coming, ?_, htransit⟩, htoAgent⟩
    simpa [written] using hwritten

theorem read {memory : ReadMemory} {capacity : ℕ} (h : Sound state link)
    (hvalid : memory.Valid capacity) (hstep : link.step state (.read memory capacity) = some link') :
    Sound state link' := by
  obtain ⟨coming, hwritten, htransit⟩ := h.toGame
  have hready : ¬ link.blocked state := by
    intro hblocked
    rw [step, if_pos hblocked] at hstep
    cases hstep
  rw [step, if_neg hready, read_of_valid hvalid] at hstep
  cases hpending : link.channel.pending with
  | some frame =>
    rw [hpending] at hstep hwritten
    obtain rfl := Option.some.inj hstep
    exact h.of_handOut hvalid h.delivers rfl hwritten htransit
  | none =>
    rw [hpending] at hstep hwritten
    rcases readFrameFrom_of_transit h.delivers htransit with
      ⟨frame, others, rest, rfl, hread, hrest, hothers⟩ | ⟨hread, hlast⟩
    · rw [hread] at hstep
      obtain rfl := Option.some.inj hstep
      exact h.of_handOut hvalid hrest rfl hwritten hothers
    · -- the Agent has returned, and all it has written has arrived
      rw [hread] at hstep
      obtain rfl := Option.some.inj hstep
      have harrived : link.arriving = [] := by
        rw [blocked, hpending, hread] at hready
        have hends : link.ended state = true ∧ link.arriving = [] := by simpa using hready
        exact hends.2
      obtain rfl := hlast harrived
      refine ⟨h.idle, List.forall_mem_nil _, ⟨[], ?_, ?_⟩, h.toAgent⟩
      · simpa [written, Answer.delivered, hpending] using hwritten
      · rw [harrived]
        exact transit_of_written rfl

theorem arrive {count : ℕ} (h : Sound state link)
    (hstep : link.step state (.arrive count) = some link') : Sound state link' := by
  obtain ⟨coming, hwritten, htransit⟩ := h.toGame
  have hsome : ¬ (count = 0 ∨ link.arriving.length < count) := by
    intro hnone
    rw [step, if_pos hnone] at hstep
    cases hstep
  rw [step, if_neg hsome] at hstep
  obtain rfl := Option.some.inj hstep
  refine ⟨h.idle, ?_, ⟨coming, hwritten, ?_⟩, h.toAgent⟩
  · apply List.forall_mem_append.mpr ⟨h.delivers, _⟩
    intro chunk hchunk
    rw [List.mem_singleton] at hchunk
    rw [hchunk, ne_eq, List.take_eq_nil_iff]
    rintro (rfl | hnil)
    · exact hsome (.inl rfl)
    · rw [hnil, List.length_nil] at hsome
      omega
  · rw [List.flatten_append, List.flatten_singleton, List.append_assoc, List.take_append_drop]
    exact htransit

theorem take {chunks : Chunks UInt8} (h : Sound state link)
    (hstep : link.step state (.take chunks) = some link') : Sound state link' := by
  obtain ⟨coming, cut, haccepted, htransit, hwhole⟩ := h.toAgent
  unfold step at hstep
  dsimp only at hstep
  split_ifs at hstep with hready
  obtain ⟨hreading, -, hchunks, -⟩ := hready
  rcases hread : readFrameFrom chunks with ⟨e | frame, rest⟩
  · have hfailed : link' = { link with
        channel := { link.channel with file := { link.channel.file with outgoing := rest.flatten } }
        waiting := link.waiting ++ [.error e]
        reading := false } := by
      rw [hread] at hstep
      cases e with
      | io => cases hstep
      | invalidHeader => exact (Option.some.inj hstep).symm
      | unknownMessage => exact (Option.some.inj hstep).symm
      | tooLarge => exact (Option.some.inj hstep).symm
    subst hfailed
    refine ⟨h.idle, h.delivers, h.toGame, coming, cut, ?_, ?_, hwhole⟩
    · rw [List.filterMap_append, List.append_assoc]
      exact haccepted
    · exact fun hreads => absurd hreads Bool.false_ne_true
  · rw [hread] at hstep
    obtain rfl := Option.some.inj hstep
    obtain ⟨sent, hsent, hbehind⟩ := written_of_readFrameFrom hread
    obtain ⟨others, rfl, hothers⟩ :=
      (htransit hreading).frame hsent (hchunks.symm.trans hbehind)
    refine ⟨h.idle, h.delivers, h.toGame, others, cut, ?_, fun _ => hothers, hwhole⟩
    rw [List.filterMap_append, List.append_assoc]
    exact haccepted

theorem fail (h : Sound state link) (hstep : link.step state .fail = some link') :
    Sound state link' := by
  obtain ⟨coming, cut, haccepted, htransit, hwhole⟩ := h.toAgent
  unfold step at hstep
  dsimp only at hstep
  split_ifs at hstep
  obtain rfl := Option.some.inj hstep
  refine ⟨h.idle, h.delivers, h.toGame, coming, cut, ?_, ?_, hwhole⟩
  · rw [List.filterMap_append, List.append_assoc]
    exact haccepted
  · exact fun hreads => absurd hreads Bool.false_ne_true

omit [Crates] in
theorem next_waiting (link : Link) : link.waiting.filterMap Except.toOption =
    link.next.1.toFrame.toList ++ link.next.2.filterMap Except.toOption := by
  unfold next
  cases link.waiting with
  | nil => split_ifs <;> rfl
  | cons result waiting => cases result <;> rfl

omit [Crates] in
theorem filterMap_toFrame (received : Received) :
    [received].filterMap Received.toFrame = received.toFrame.toList := by
  cases received <;> rfl

theorem advance {arrival : Arrival} {turns : List Turn} (h : Sound state link)
    (hhello : Sendable (helloFrame state))
    (hbegins : link.written state <+: framesOf (serve state arrival turns).emitted)
    (hreceived : Link.receivedFrames (link.advance state arrival turns) =
      link.receivedFrames ++ link.next.1.toFrame.toList) :
    Sound state (link.advance state arrival turns) := by
  obtain ⟨coming, hwritten, htransit⟩ := h.toGame
  obtain ⟨new, hnew⟩ := hbegins
  have hsendable : ∀ frame ∈ new, Sendable frame := by
    intro frame hframe
    apply sendable_serve hhello
    rw [← hnew]
    exact List.mem_append_right _ hframe
  have hdrop : (framesOf (serve state arrival turns).emitted).drop (link.written state).length =
      new := by
    rw [← hnew, List.drop_left]
  refine ⟨?_, h.delivers, ⟨coming ++ new, ?_, ?_⟩, ?_⟩
  · intro hnone
    cases hnone
  · change (framesOf (serve state arrival turns).emitted).map seen = link.obtained ++
      (link.channel.pending.toList ++ (coming ++ new)).map seen
    rw [← hnew, List.map_append, hwritten]
    simp only [List.map_append, List.append_assoc]
  · change Transit _ _ (_ ++ (link.arriving ++ wire _))
    rw [hdrop, ← List.append_assoc]
    exact transit_of_written (writeFrames_append htransit.written (writeFrames_wire hsendable))
  · obtain ⟨unread, cut, haccepted, hunread⟩ := h.toAgent
    refine ⟨unread, cut, ?_, hunread⟩
    rw [hreceived, List.append_assoc, ← List.append_assoc link.next.1.toFrame.toList]
    change link.accepted = _ ++ (_ ++ link.next.2.filterMap Except.toOption ++ unread)
    rw [← next_waiting, haccepted]

theorem bootstrap {arrival : Arrival} (h : Sound state link) (hhello : Sendable (helloFrame state))
    (hstep : link.step state (.bootstrap arrival) = some link') : Sound state link' := by
  unfold step at hstep
  dsimp only at hstep
  split_ifs at hstep with hready
  obtain ⟨hnone, hreceived⟩ := hready
  rw [Option.isNone_iff_eq_none] at hnone
  obtain rfl := Option.some.inj hstep
  apply h.advance hhello
  · rw [written, hnone]
    exact helloFrame_prefix hhello
  · have hnothing : link.receivedFrames = [] := by
      rw [receivedFrames, hnone, h.idle hnone]
      rfl
    rw [hnothing, List.nil_append, ← hreceived, ← filterMap_toFrame]
    rfl

theorem turn {turn : Turn} (h : Sound state link) (hhello : Sendable (helloFrame state))
    (hstep : link.step state (.turn turn) = some link') : Sound state link' := by
  unfold step at hstep
  dsimp only at hstep
  cases harrival : link.arrival with
  | none =>
    rw [harrival] at hstep
    cases hstep
  | some arrival =>
    rw [harrival] at hstep
    dsimp only at hstep
    split_ifs at hstep with hready
    obtain rfl := Option.some.inj hstep
    apply h.advance hhello
    · rw [written, harrival]
      exact serve_prefix state arrival link.turns [turn]
    · rw [← hready.2, ← filterMap_toFrame, receivedFrames, receivedFrames, harrival,
        ← List.filterMap_append, List.append_assoc]
      exact congrArg (fun received => (([arrival].map Arrival.received) ++ received).filterMap
        Received.toFrame) List.map_append

theorem step {event : Event} (h : Sound state link) (hhello : Sendable (helloFrame state))
    (hvalid : event.Valid) (hstep : link.step state event = some link') : Sound state link' := by
  cases event with
  | write messageType payload payloadLength taken => exact h.write hstep
  | read memory capacity => exact h.read hvalid hstep
  | arrive count => exact h.arrive hstep
  | take chunks => exact h.take hstep
  | fail => exact h.fail hstep
  | bootstrap arrival => exact h.bootstrap hhello hstep
  | turn turn => exact h.turn hhello hstep

theorem run {events : List Event} (h : Sound state link) (hhello : Sendable (helloFrame state))
    (hvalid : ∀ event ∈ events, event.Valid)
    (hrun : events.foldlM (Link.step state) link = some link') : Sound state link' := by
  induction events generalizing link with
  | nil =>
    obtain rfl := Option.some.inj hrun
    exact h
  | cons event events ih =>
    rw [List.foldlM_cons, Option.bind_eq_bind, Option.bind_eq_some_iff] at hrun
    obtain ⟨next, hnext, hrest⟩ := hrun
    exact ih (h.step hhello (hvalid event (List.mem_cons_self ..)) hnext)
      (fun later hlater => hvalid later (List.mem_cons_of_mem _ hlater)) hrest

end Sound

end

end Link

/-! ## Challenges and reports -/

/-- The payloads of the challenges among these frames. -/
def challengesOf (frames : List Frame) : List Bytes :=
  frames.filterMap fun frame => if frame.messageType = .challenge then some frame.payload else none

/-- The payloads of the reports that the game has got. -/
def reportsOf (obtained : List (UInt8 × Bytes)) : List Bytes :=
  obtained.filterMap fun frame =>
    if frame.1 = MessageType.integrityReport.toByte then some frame.2 else none

theorem reportsOf_map_seen (frames : List Frame) :
    reportsOf (frames.map seen) = (reportFrames frames).map Frame.payload := by
  induction frames with
  | nil => rfl
  | cons frame frames ih =>
    obtain ⟨messageType, payload⟩ := frame
    cases messageType <;> simpa [reportsOf, reportFrames, seen, MessageType.toByte] using ih

theorem getElem?_of_prefix {α : Type} {a b : List α} {k : ℕ} {x : α} (h : a <+: b)
    (hk : a[k]? = some x) : b[k]? = some x := by
  obtain ⟨hlt, rfl⟩ := List.getElem?_eq_some_iff.mp hk
  exact List.prefix_iff_getElem?.mp h k hlt

section

variable [Crates] {state : RuntimeState} {launch : BoundAgentLaunch} {session : Session}
  {turn : Turn} {turns : List Turn} {link : Link}

omit [Crates] in
theorem received_of_acceptedChallenge {challenge : AgentReportChallengeV1}
    (h : acceptedChallenge launch (session, turn) = some challenge) :
    turn.received = .frame ⟨.challenge, encode challenge⟩ := by
  unfold acceptedChallenge at h
  split_ifs at h
  cases hreceived : turn.received with
  | failed e => simp [hreceived] at h
  | timeout => simp [hreceived] at h
  | disconnected => simp [hreceived] at h
  | frame frame =>
    obtain ⟨messageType, payload⟩ := frame
    cases messageType with
    | challenge =>
      simp only [hreceived] at h
      cases hdecoded : decodeChallenge payload turn.after with
      | error e => simp [hdecoded] at h
      | ok found =>
        simp only [hdecoded, Option.ite_none_right_eq_some, Option.some.injEq] at h
        obtain ⟨-, rfl⟩ := h
        rw [← (decodeChallenge_ok hdecoded).1.1]
    | agentHello => simp [hreceived] at h
    | launchGrant => simp [hreceived] at h
    | integrityReport => simp [hreceived] at h
    | health => simp [hreceived] at h
    | shutdown => simp [hreceived] at h
    | revocation => simp [hreceived] at h

omit [Crates] in
theorem challengesOf_cons_of_challenge {payload : Bytes}
    (h : turn.received = .frame ⟨.challenge, payload⟩) :
    challengesOf (((turn :: turns).map Turn.received).filterMap Received.toFrame) =
      payload :: challengesOf ((turns.map Turn.received).filterMap Received.toFrame) := by
  rw [List.map_cons, h]
  rfl

omit [Crates] in
theorem challengesOf_cons_of_timeout (h : turn.received = .timeout) :
    challengesOf (((turn :: turns).map Turn.received).filterMap Received.toFrame) =
      challengesOf ((turns.map Turn.received).filterMap Received.toFrame) := by
  rw [List.map_cons, h]
  rfl

/-- The loop accepts the first of the challenges that it receives. -/
theorem acceptedChallenges_isPrefix (state : RuntimeState) (launch : BoundAgentLaunch)
    (session : Session) (turns : List Turn) :
    (acceptedChallenges state launch session turns).map encode <+:
      challengesOf ((turns.map Turn.received).filterMap Received.toFrame) := by
  induction turns generalizing session with
  | nil => exact List.nil_prefix
  | cons turn turns ih =>
    cases hresult : (sessionTurn state launch session turn).result with
    | error e =>
      rw [acceptedChallenges, Transcript.visits_cons_of_error hresult]
      cases haccepted : acceptedChallenge launch (session, turn) with
      | none =>
        rw [List.filterMap_cons_none haccepted]
        exact List.nil_prefix
      | some challenge =>
        rw [List.filterMap_cons_some haccepted,
          challengesOf_cons_of_challenge (received_of_acceptedChallenge haccepted)]
        exact List.prefix_cons_inj _ |>.mpr List.nil_prefix
    | ok session' =>
      have hrest := ih session'
      rw [acceptedChallenges] at hrest
      rw [acceptedChallenges, Transcript.visits_cons_of_ok hresult]
      have hcases := sessionTurn_cases state launch session turn
      generalize sessionTurn state launch session turn = t at hcases hresult
      -- the loop goes on only after a timeout or an answer
      cases hcases with
      | silent exit statuses => cases hresult
      | closed health reason message => cases hresult
      | idle hreceived =>
        rwa [List.filterMap_cons_none (acceptedChallenge_of_timeout hreceived),
          challengesOf_cons_of_timeout hreceived]
      | heartbeat hunexpired honTime hreceived =>
        rwa [List.filterMap_cons_none (acceptedChallenge_of_timeout hreceived),
          challengesOf_cons_of_timeout hreceived]
      | answered payload challenge report haccepts hanswers =>
        have haccepted := acceptedChallenge_of_accepts haccepts
        rw [List.filterMap_cons_some haccepted,
          challengesOf_cons_of_challenge (received_of_acceptedChallenge haccepted)]
        exact (List.prefix_cons_inj _).mpr hrest

theorem reportFrames_written (state : RuntimeState) (link : Link) :
    reportFrames (link.written state) = [] ∨ ∃ arrival launch, link.arrival = some arrival ∧
      Admits state arrival launch ∧ reportFrames (link.written state) =
        reportFrames (framesOf (Transcript.run (sessionTurn state launch)
          (openSession arrival launch) link.turns).emitted) := by
  cases harrival : link.arrival with
  | none =>
    rw [Link.written, harrival]
    exact .inl rfl
  | some arrival =>
    rw [Link.written, harrival]
    rcases reportFrames_serve state arrival link.turns with hnone | ⟨launch, hadmits, hrun⟩
    · exact .inl hnone
    · exact .inr ⟨arrival, launch, rfl, hadmits, hrun⟩

theorem challengesOf_receivedFrames {arrival : Arrival} (harrival : link.arrival = some arrival)
    (hadmits : Admits state arrival launch) : challengesOf link.receivedFrames =
      challengesOf ((link.turns.map Turn.received).filterMap Received.toFrame) := by
  obtain ⟨payload, hreceived, -⟩ := hadmits.bundle
  rw [Link.receivedFrames, harrival, Option.toList_some, List.map_singleton, hreceived]
  rfl

/-- What the game and its Agent know of each other. -/
structure Exchanged (state : RuntimeState) (link : Link) : Prop where
  toAgent : link.receivedFrames <+: link.accepted
  toGame : link.obtained <+: (link.written state).map seen
  reports : ∀ k payload, (reportsOf link.obtained)[k]? = some payload →
    ∃ arrival launch report challenge, link.arrival = some arrival ∧ Admits state arrival launch ∧
      payload = encode report ∧
      (challengesOf link.accepted)[k]? = some (encode challenge) ∧ report.sequence.toNat = k + 1 ∧
      (k = 0 → report.previousReportDigest = zeroDigest.1) ∧
      (∀ j earlier, k = j + 1 → (reportsOf link.obtained)[j]? = some earlier →
        report.previousReportDigest = (Crates.sha256 earlier).1) ∧
      Attests state launch challenge report

/-- However the calls of the game, the bytes on their way, the reader thread and the loop take
their turns, each side gets what the other has sent, in order and once; and every report that the
game has got is the next in the chain and answers the challenge that it has sent at that place. -/
theorem link_exchanges {events : List Event} (hhello : Sendable (helloFrame state))
    (hvalid : ∀ event ∈ events, event.Valid)
    (hrun : events.foldlM (Link.step state) (Link.start state) = some link) :
    Exchanged state link := by
  have hsound := (Link.Sound.start hhello).run hhello hvalid hrun
  obtain ⟨coming, hwritten, -⟩ := hsound.toGame
  obtain ⟨unread, cut, haccepted, -⟩ := hsound.toAgent
  have htoAgent : link.receivedFrames <+: link.accepted := ⟨_, haccepted.symm⟩
  have htoGame : link.obtained <+: (link.written state).map seen := ⟨_, hwritten.symm⟩
  refine ⟨htoAgent, htoGame, ?_⟩
  have hreports : reportsOf link.obtained <+:
      (reportFrames (link.written state)).map Frame.payload := by
    rw [← reportsOf_map_seen]
    exact htoGame.filterMap _
  have hframe : ∀ {k : ℕ} {payload : Bytes}, (reportsOf link.obtained)[k]? = some payload →
      ∃ frame : Frame, (reportFrames (link.written state))[k]? = some frame ∧
        frame.payload = payload := by
    intro k payload hk
    have hmapped := getElem?_of_prefix hreports hk
    rwa [List.getElem?_map, Option.map_eq_some_iff] at hmapped
  intro k payload hk
  obtain ⟨frame, hget, rfl⟩ := hframe hk
  rcases reportFrames_written state link with hnone | ⟨arrival, launch, harrival, hadmits, hall⟩
  · rw [hnone] at hget
    cases hget
  rw [hall] at hget
  obtain ⟨report, challenge, rfl, hchallenge, hnumber, hfirst, hlater, hattests⟩ :=
    (chain_run hadmits (openSession arrival launch) link.turns).get k frame hget
  have hreceived : (challengesOf link.receivedFrames)[k]? = some (encode challenge) := by
    rw [challengesOf_receivedFrames harrival hadmits]
    apply getElem?_of_prefix (acceptedChallenges_isPrefix state launch (openSession arrival launch) _)
    rw [List.getElem?_map, hchallenge]
    rfl
  have hone : (openSession arrival launch).sequence.toNat = 1 := rfl
  refine ⟨arrival, launch, report, challenge, harrival, hadmits, rfl, ?_, by omega, hfirst, ?_,
    hattests⟩
  · exact getElem?_of_prefix (htoAgent.filterMap _) hreceived
  · intro j earlier hj hearlier
    obtain ⟨frame, hget', rfl⟩ := hframe hearlier
    rw [hall] at hget'
    exact hlater j frame hj hget'

end

namespace Sample

/-- The game hands over the launch bundle, sends a challenge and reads three frames. -/
def exchange : List Event :=
  let memory : ReadMemory := ⟨some 0, some (List.replicate 1000 0), some 0⟩
  [.write 2 (some (encode bundle)) (encode bundle).length 10000,
    .take [wire [⟨.launchGrant, encode bundle⟩]], .bootstrap arrival,
    .write 3 (some (encode challenge)) (encode challenge).length 10000,
    .take [wire [⟨.challenge, encode challenge⟩]], .turn (challengeAt 1001),
    .arrive (wire [helloFrame state, healthFrame "session" "ready" 0 [], reportFrame firstSigned]).length,
    .read memory 1000, .read memory 1000, .read memory 1000]

theorem exchange_valid : ∀ event ∈ exchange, event.Valid := by
  have hmemory : ReadMemory.Valid ⟨some 0, some (List.replicate 1000 0), some 0⟩ 1000 := by
    refine ⟨by simp, by simp, ?_⟩
    rw [Option.getD_some, List.length_replicate]
  intro event hevent
  simp only [exchange, List.mem_cons, List.not_mem_nil, or_false] at hevent
  rcases hevent with rfl | rfl | rfl | rfl | rfl | rfl | rfl | rfl | rfl | rfl
  · exact Nat.le_refl _
  · exact trivial
  · exact trivial
  · exact Nat.le_refl _
  · exact trivial
  · exact trivial
  · exact trivial
  · exact hmemory
  · exact hmemory
  · exact hmemory

end Sample

theorem link_exchanges_sample : ∃ link,
    Sample.exchange.foldlM (Link.step Sample.state) (Link.start Sample.state) = some link ∧
      reportsOf link.obtained = [encode Sample.firstSigned] ∧ Exchanged Sample.state link := by
  have hexchange : (Sample.exchange.foldlM (Link.step Sample.state) (Link.start Sample.state)).map
      (fun link => reportsOf link.obtained) = some [encode Sample.firstSigned] := by
    decide +kernel
  obtain ⟨link, hrun, hreports⟩ := Option.map_eq_some_iff.mp hexchange
  have hhello : Sendable (helloFrame Sample.state) := by decide +kernel
  exact ⟨link, hrun, hreports, link_exchanges hhello Sample.exchange_valid hrun⟩

end CertaelAgent.Runtime
