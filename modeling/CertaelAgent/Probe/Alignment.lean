import CertaelAgent.Ipc.Boundaries
import CertaelAgent.Probe.Delivery

/-!
# Where the frames of the probe channel come from

A read that answers `InvalidFrame` for a header has taken that header and nothing behind it, and
the channel can be read again. The next read then begins at the payload of the frame that was
rejected.
-/

namespace CertaelAgent.Probe

open ProtoWire Ipc ByteStream CallTrace

/-- The offsets reached from the start of the stream by skipping whole frames: a header, and as
many bytes as it declares. -/
inductive Boundary (stream : Bytes) : ℕ → Prop
  | start : Boundary stream 0
  | skip {offset : ℕ} (hoffset : Boundary stream offset)
      (hwhole : offset + (HEADER_LENGTH + declaredLength (stream.drop offset)) ≤ stream.length) :
      Boundary stream (offset + (HEADER_LENGTH + declaredLength (stream.drop offset)))

/-- At this offset the stream has this frame, and behind it the rest. -/
def Begins (stream : Bytes) (offset : ℕ) (frame : Frame) (rest : Bytes) : Prop :=
  ∃ sent, writeFrame frame = .ok sent ∧ stream.drop offset = sent ++ rest

/-- Every frame that a series of calls returns with `Ok` is one that starts at a boundary. The
stream behind it is what the channel has not read yet. -/
def NoSmuggling (stream : Bytes) (start : ChannelState) (calls : List Call) : Prop :=
  ∀ before c later, calls = before ++ c :: later →
    ∀ type payload, (call (after call start before) c).1.delivered = some (type, payload) →
      ∃ frame offset, seen frame = (type, payload) ∧ Boundary stream offset ∧
        Begins stream offset frame (after call start (before ++ [c])).file.incoming.flatten

/-- Where a reader can stand in the stream: behind a frame that it has taken, or behind a header
that it has rejected. -/
inductive Stands (stream : Bytes) : ℕ → Prop
  | start : Stands stream 0
  | taken {offset : ℕ} (hoffset : Stands stream offset) {frame : Frame} {rest : Bytes}
      (hbegins : Begins stream offset frame rest) :
      Stands stream (offset + (HEADER_LENGTH + frame.payload.length))
  | rejected {offset : ℕ} (hoffset : Stands stream offset)
      (hcomplete : HEADER_LENGTH ≤ (stream.drop offset).length)
      (hheader : ¬ AcceptedHeader (stream.drop offset)) : Stands stream (offset + HEADER_LENGTH)

/-- What looks like a frame from where a reader can stand is one. -/
def Unambiguous (stream : Bytes) : Prop :=
  ∀ offset, Stands stream offset → (∃ frame rest, Begins stream offset frame rest) →
    Boundary stream offset

/-- The buffers are as long as the caller says; pointers may be null. -/
def Call.InBounds : Call → Prop
  | .read memory capacity => ∀ output ∈ memory.output, capacity ≤ output.length
  | .write _ payload payloadLength _ => ∀ bytes ∈ payload, payloadLength ≤ bytes.length

/-- The reader stands where it can, and so did it when it took the frame that is pending. -/
structure Placed (stream : Bytes) (state : ChannelState) : Prop where
  delivers : Delivers state.file.incoming
  reader : state.pending = none → state.file.incoming.flatten = [] ∨
    ∃ offset, Stands stream offset ∧ stream.drop offset = state.file.incoming.flatten
  pending : ∀ frame ∈ state.pending, ∃ offset, Stands stream offset ∧
    Begins stream offset frame state.file.incoming.flatten

section

variable {stream : Bytes}

theorem drop_of_begins {offset : ℕ} {frame : Frame} {rest : Bytes}
    (h : Begins stream offset frame rest) :
    stream.drop (offset + (HEADER_LENGTH + frame.payload.length)) = rest := by
  obtain ⟨sent, hwritten, hdrop⟩ := h
  obtain ⟨-, rfl⟩ := writeFrame_eq_ok_iff.mp hwritten
  rw [← List.drop_drop, hdrop]
  apply List.drop_left'
  rw [List.length_append, header_length]

theorem offset_of_begins {offset offset' : ℕ} {frame frame' : Frame} {rest : Bytes}
    (hseen : seen frame = seen frame') (h : Begins stream offset frame rest)
    (h' : Begins stream offset' frame' rest) : offset = offset' := by
  obtain ⟨sent, hwritten, hdrop⟩ := h
  obtain ⟨sent', hwritten', hdrop'⟩ := h'
  obtain ⟨-, rfl⟩ := writeFrame_eq_ok_iff.mp hwritten
  obtain ⟨-, rfl⟩ := writeFrame_eq_ok_iff.mp hwritten'
  have hpayload : frame.payload = frame'.payload := (Prod.mk.inj hseen).2
  have hlength := congrArg List.length hdrop
  have hlength' := congrArg List.length hdrop'
  simp only [List.length_drop, List.length_append, header_length, HEADER_LENGTH] at hlength hlength'
  rw [hpayload] at hlength
  omega

theorem acceptedHeader_of_begins {rest : Bytes} {offset : ℕ} {frame : Frame}
    (h : Begins stream offset frame rest) : AcceptedHeader (stream.drop offset) := by
  obtain ⟨sent, hwritten, hdrop⟩ := h
  obtain ⟨hsmall, rfl⟩ := writeFrame_eq_ok_iff.mp hwritten
  rw [hdrop, List.append_assoc]
  exact acceptedHeader_header_append hsmall _

theorem frame_of_begins {rest rest' : Bytes} {offset : ℕ} {frame frame' : Frame}
    (h : Begins stream offset frame rest) (h' : Begins stream offset frame' rest') :
    frame = frame' := by
  obtain ⟨sent, hwritten, hdrop⟩ := h
  obtain ⟨sent', hwritten', hdrop'⟩ := h'
  exact (written_append_inj hwritten hwritten' (hdrop.symm.trans hdrop')).1

theorem placed_handOut {frame : Frame} {state : ChannelState} {offset : ℕ}
    (hdelivers : Delivers state.file.incoming) (hstands : Stands stream offset)
    (hbegins : Begins stream offset frame state.file.incoming.flatten)
    {memory : ReadMemory} {capacity : ℕ} (hvalid : memory.Valid capacity) :
    Placed stream (handOut frame state memory capacity).2 ∧
      (handOut frame state memory capacity).2.file = state.file ∧
      ∀ shown, (Answer.read (handOut frame state memory capacity).1.1
        (handOut frame state memory capacity).1.2).delivered = some shown → seen frame = shown := by
  rw [handOut_eq]
  split_ifs with hfits
  · refine ⟨⟨hdelivers, ?_, ?_⟩, rfl, ?_⟩
    · intro _
      exact .inr ⟨_, hstands.taken hbegins, drop_of_begins hbegins⟩
    · simp
    · intro shown hshown
      rw [delivered_handedOut hvalid hfits] at hshown
      exact Option.some.inj hshown
  · refine ⟨⟨hdelivers, ?_, ?_⟩, rfl, ?_⟩
    · intro hnone
      cases hnone
    · intro pending hpending
      obtain rfl := Option.some.inj hpending
      exact ⟨offset, hstands, hbegins⟩
    · intro shown hshown
      rw [delivered_refused] at hshown
      cases hshown

/-- What a call does to a placed channel: it stays placed, and a frame that it returns is one that
a reader found from where it stood. -/
structure StepsFrom (stream : Bytes) (answer : Answer) (state : ChannelState) : Prop where
  placed : Placed stream state
  found : ∀ shown, answer.delivered = some shown → ∃ frame offset, seen frame = shown ∧
    Stands stream offset ∧ Begins stream offset frame state.file.incoming.flatten

theorem valid_of_inBounds {memory : ReadMemory} {capacity : ℕ}
    (hbounds : (Call.read memory capacity).InBounds)
    (hpointers : ¬ (memory.messageType = none ∨ memory.written = none ∨
      (0 < capacity ∧ memory.output = none))) : memory.Valid capacity := by
  simp only [not_or, not_and] at hpointers
  obtain ⟨htype, hwritten, houtput⟩ := hpointers
  refine ⟨htype, hwritten, ?_⟩
  cases h : memory.output with
  | none =>
    have hzero : ¬ 0 < capacity := fun hpositive => houtput hpositive h
    omega
  | some output => exact hbounds output h

theorem read_stepsFrom {state : ChannelState} (hplaced : Placed stream state) {memory : ReadMemory}
    {capacity : ℕ} (hbounds : (Call.read memory capacity).InBounds) :
    StepsFrom stream (.read (certaelAgentChannelRead state memory capacity).1.1
        (certaelAgentChannelRead state memory capacity).1.2)
      (certaelAgentChannelRead state memory capacity).2 := by
  by_cases hpointers : memory.messageType = none ∨ memory.written = none ∨
      (0 < capacity ∧ memory.output = none)
  · unfold certaelAgentChannelRead
    rw [if_pos hpointers]
    exact ⟨hplaced, fun _ hshown => by cases hshown⟩
  have hvalid := valid_of_inBounds hbounds hpointers
  rw [read_of_valid hvalid]
  obtain ⟨⟨chunks, outgoing⟩, pending⟩ := state
  cases pending with
  | some frame =>
    obtain ⟨offset, hstands, hbegins⟩ := hplaced.pending frame rfl
    obtain ⟨hnext, hfile, hshown⟩ := placed_handOut hplaced.delivers hstands hbegins hvalid
    refine ⟨hnext, fun shown h => ⟨frame, offset, hshown shown h, hstands, ?_⟩⟩
    dsimp only
    rw [hfile]
    exact hbegins
  | none =>
    obtain ⟨hdelivers, hcases⟩ := readFrameFrom_cases hplaced.delivers
    have hreader := hplaced.reader rfl
    dsimp only at hdelivers hcases hreader ⊢
    rcases hread : readFrameFrom chunks with ⟨result, incoming⟩
    rw [hread] at hdelivers hcases
    generalize chunks.flatten = bytes at hcases hreader
    generalize hleft : incoming.flatten = left at hcases
    have hstopped : left = [] → Placed stream ⟨⟨incoming, outgoing⟩, none⟩ := by
      rintro rfl
      exact ⟨hdelivers, fun _ => .inl hleft, fun frame hframe => by cases hframe⟩
    cases hcases with
    | frame frame sent _ hwritten hbytes =>
      obtain ⟨offset, hstands, hdrop⟩ := hreader.resolve_left fun hnil =>
        ne_nil_of_written hwritten (List.append_eq_nil_iff.mp (hbytes.symm.trans hnil)).1
      have hbegins : Begins stream offset frame incoming.flatten :=
        ⟨sent, hwritten, by rw [hdrop, hbytes, hleft]⟩
      obtain ⟨hnext, hfile, hshown⟩ := @placed_handOut stream frame ⟨⟨incoming, outgoing⟩, none⟩
        offset hdelivers hstands hbegins memory capacity hvalid
      refine ⟨hnext, fun shown h => ⟨frame, offset, hshown shown h, hstands, ?_⟩⟩
      dsimp only
      rw [hfile]
      exact hbegins
    | ended => exact ⟨hstopped rfl, fun _ hshown => by cases hshown⟩
    | truncated => exact ⟨hstopped rfl, fun _ hshown => by cases hshown⟩
    | rejected error hne hcomplete hheader =>
      obtain ⟨offset, hstands, rfl⟩ := hreader.resolve_left fun hnil => by
        rw [hnil] at hcomplete
        exact absurd hcomplete (by decide)
      rw [List.drop_drop] at hleft
      constructor
      · constructor
        · exact hdelivers
        · intro _
          exact .inr ⟨_, hstands.rejected hcomplete hheader, hleft.symm⟩
        · intro frame hframe
          cases hframe
      · intro shown hshown
        cases hshown

theorem call_stepsFrom {state : ChannelState} (hplaced : Placed stream state) {c : Call}
    (hbounds : c.InBounds) : StepsFrom stream (call state c).1 (call state c).2 := by
  rcases c with ⟨memory, capacity⟩ | ⟨messageType, payload, payloadLength, taken⟩
  · exact read_stepsFrom hplaced hbounds
  · obtain ⟨-, hpending, hincoming⟩ := write_frame state messageType payload payloadLength taken
    refine ⟨⟨?_, ?_, ?_⟩, fun _ hshown => by cases hshown⟩
    · exact hincoming ▸ hplaced.delivers
    · exact hincoming ▸ hpending ▸ hplaced.reader
    · exact hincoming ▸ hpending ▸ hplaced.pending

theorem placed_after {calls : List Call} (hbounds : ∀ c ∈ calls, c.InBounds) :
    ∀ {state}, Placed stream state → Placed stream (after call state calls) := by
  induction calls with
  | nil => exact fun h => h
  | cons c calls ih =>
    intro state hplaced
    have hstep := (call_stepsFrom hplaced (hbounds c (List.mem_cons_self ..))).placed
    exact ih (fun c hc => hbounds c (List.mem_cons_of_mem _ hc)) hstep

/-- From an unambiguous stream nothing but frames at boundaries comes out. -/
theorem noSmuggling_of_unambiguous (hstream : Unambiguous stream) {start : ChannelState}
    (hplaced : Placed stream start) {calls : List Call} (hbounds : ∀ c ∈ calls, c.InBounds) :
    NoSmuggling stream start calls := by
  rintro before c later rfl type payload hdelivered
  have hbefore : Placed stream (after call start before) :=
    placed_after (fun c hc => hbounds c (List.mem_append_left _ hc)) hplaced
  have hstep := call_stepsFrom hbefore
    (hbounds c (List.mem_append_right _ (List.mem_cons_self ..)))
  obtain ⟨frame, offset, hseen, hstands, hbegins⟩ := hstep.found _ hdelivered
  rw [after_append]
  exact ⟨frame, offset, hseen, hstream offset hstands ⟨frame, _, hbegins⟩, hbegins⟩

/-- A read into a buffer that takes every payload. -/
def roomyRead : Call :=
  .read ⟨some 0, some (List.replicate MAX_FRAME_PAYLOAD 0), some 0⟩ MAX_FRAME_PAYLOAD

theorem roomyRead_valid : roomyRead.Valid := by
  refine ⟨Option.some_ne_none 0, Option.some_ne_none 0, ?_⟩
  rw [Option.getD_some, List.length_replicate]

theorem roomyRead_inBounds : roomyRead.InBounds := by
  rintro output houtput
  obtain rfl := Option.some.inj houtput
  rw [List.length_replicate]

/-- Nothing is pending, and the reader stands at this offset. -/
structure ReaderAt (stream : Bytes) (offset : ℕ) (state : ChannelState) : Prop where
  delivers : Delivers state.file.incoming
  pending : state.pending = none
  incoming : state.file.incoming.flatten = stream.drop offset

theorem roomyRead_of_begins {state : ChannelState} {offset : ℕ}
    (hreader : ReaderAt stream offset state) {frame : Frame} {rest : Bytes}
    (hbegins : Begins stream offset frame rest) :
    (call state roomyRead).1.delivered = some (seen frame) ∧
      ReaderAt stream (offset + (HEADER_LENGTH + frame.payload.length)) (call state roomyRead).2 := by
  obtain ⟨⟨chunks, outgoing⟩, pending⟩ := state
  obtain ⟨hdelivers, hpending, hincoming⟩ := hreader
  dsimp only at hdelivers hpending hincoming
  subst hpending
  have hrest := drop_of_begins hbegins
  obtain ⟨sent, hwritten, hdrop⟩ := hbegins
  obtain ⟨left, hread, hleft, hflatten⟩ :=
    readFrameFrom_of_written hwritten hdelivers (hincoming.trans hdrop)
  have hfits := (writeFrame_eq_ok_iff.mp hwritten).1
  simp only [call, roomyRead]
  rw [read_of_valid roomyRead_valid]
  simp only [hread, handOut_eq, if_pos hfits]
  exact ⟨delivered_handedOut roomyRead_valid hfits, hleft, rfl, hflatten.trans hrest.symm⟩

theorem roomyRead_of_rejected {state : ChannelState} {offset : ℕ}
    (hreader : ReaderAt stream offset state)
    (hcomplete : HEADER_LENGTH ≤ (stream.drop offset).length)
    (hheader : ¬ AcceptedHeader (stream.drop offset)) :
    ReaderAt stream (offset + HEADER_LENGTH) (call state roomyRead).2 := by
  obtain ⟨⟨chunks, outgoing⟩, pending⟩ := state
  obtain ⟨hdelivers, hpending, hincoming⟩ := hreader
  dsimp only at hdelivers hpending hincoming
  subst hpending
  rw [← hincoming] at hcomplete hheader
  obtain ⟨tail, hread, htail, hflatten⟩ := readExact_of_le hdelivers hcomplete
  obtain ⟨error, -, hrejected⟩ := readFrameFrom_of_rejected hread hheader
  simp only [call, roomyRead]
  rw [read_of_valid roomyRead_valid]
  simp only [hrejected]
  exact ⟨htail, rfl, by rw [hflatten, hincoming, List.drop_drop]⟩

theorem reaches_of_stands {start : ChannelState} (hstart : ReaderAt stream 0 start) {offset : ℕ}
    (hstands : Stands stream offset) :
    ∃ times, ReaderAt stream offset (after call start (List.replicate times roomyRead)) := by
  induction hstands with
  | start => exact ⟨0, hstart⟩
  | taken _ hbegins ih =>
    obtain ⟨times, hreader⟩ := ih
    refine ⟨times + 1, ?_⟩
    rw [List.replicate_succ', after_append]
    exact (roomyRead_of_begins hreader hbegins).2
  | rejected _ hcomplete hheader ih =>
    obtain ⟨times, hreader⟩ := ih
    refine ⟨times + 1, ?_⟩
    rw [List.replicate_succ', after_append]
    exact roomyRead_of_rejected hreader hcomplete hheader

end

/-- Whatever is called, only frames at boundaries come out, exactly if nothing else in the stream
looks like a frame from behind a rejected header. -/
theorem noSmuggling_iff {chunks : Chunks UInt8} (hdelivers : Delivers chunks) (outgoing : Bytes) :
    (∀ calls, (∀ c ∈ calls, c.InBounds) →
      NoSmuggling chunks.flatten ⟨⟨chunks, outgoing⟩, none⟩ calls) ↔
      Unambiguous chunks.flatten := by
  constructor
  · intro h offset hstands hframe
    obtain ⟨frame, rest, hbegins⟩ := hframe
    have hstart : ReaderAt chunks.flatten 0 ⟨⟨chunks, outgoing⟩, none⟩ := ⟨hdelivers, rfl, rfl⟩
    obtain ⟨times, hreader⟩ := reaches_of_stands hstart hstands
    obtain ⟨hdelivered, hafter⟩ := roomyRead_of_begins hreader hbegins
    have hbounds : ∀ c ∈ List.replicate times roomyRead ++ [roomyRead], c.InBounds := by
      intro c hc
      rw [← List.replicate_succ'] at hc
      obtain rfl := List.eq_of_mem_replicate hc
      exact roomyRead_inBounds
    obtain ⟨frame', offset', hseen, hboundary, hbegins'⟩ :=
      h _ hbounds (List.replicate times roomyRead) roomyRead [] rfl _ _ hdelivered
    rw [after_append] at hbegins'
    have hrest : (after call (after call ⟨⟨chunks, outgoing⟩, none⟩ (List.replicate times roomyRead))
        [roomyRead]).file.incoming.flatten = rest :=
      hafter.incoming.trans (drop_of_begins hbegins)
    rw [hrest] at hbegins'
    obtain rfl := offset_of_begins hseen hbegins' hbegins
    exact hboundary
  · intro hstream calls hbounds
    apply noSmuggling_of_unambiguous hstream _ hbounds
    exact ⟨hdelivers, fun _ => .inr ⟨0, .start, rfl⟩, fun frame hframe => by cases hframe⟩

/-- A frame of an unknown type without a payload, and a `Challenge` of two bytes. -/
def skipped : Bytes :=
  [67, 84, 65, 76, 1, 99, 0, 0, 0, 0, 67, 84, 65, 76, 1, 3, 0, 0, 0, 2, 1, 2]

theorem begins_skipped : Begins skipped 10 ⟨.challenge, [1, 2]⟩ [] := ⟨_, rfl, rfl⟩

theorem not_acceptedHeader_skipped : ¬ AcceptedHeader (skipped.drop 0) := by
  rintro ⟨-, -, -, ⟨messageType, hknown⟩, -⟩
  cases hknown

/-- A reader stands in front of the two frames and behind them. -/
theorem stands_skipped {offset : ℕ} (h : Stands skipped offset) :
    offset = 0 ∨ offset = 10 ∨ offset = 22 := by
  induction h with
  | start => exact .inl rfl
  | taken _ hbegins ih =>
    rcases ih with rfl | rfl | rfl
    · exact absurd (acceptedHeader_of_begins hbegins) not_acceptedHeader_skipped
    · obtain rfl := frame_of_begins hbegins begins_skipped
      exact .inr (.inr rfl)
    · exact absurd (acceptedHeader_of_begins hbegins).complete (by decide)
  | rejected _ hcomplete hheader ih =>
    rcases ih with rfl | rfl | rfl
    · exact .inr (.inl rfl)
    · exact absurd (acceptedHeader_of_begins begins_skipped) hheader
    · exact absurd hcomplete (by decide)

theorem unambiguous_skipped : Unambiguous skipped := by
  intro offset hstands hframe
  obtain ⟨frame, rest, hbegins⟩ := hframe
  rcases stands_skipped hstands with rfl | rfl | rfl
  · exact .start
  · exact Boundary.skip .start (by decide)
  · exact absurd (acceptedHeader_of_begins hbegins).complete (by decide)

/-- A read into a buffer of two bytes. -/
def pairRead : Call := .read ⟨some 0, some [0, 0], some 0⟩ 2

/-- Behind the rejected header comes a frame, and nothing but that frame is delivered. -/
theorem noSmuggling_sample :
    (∀ calls, (∀ c ∈ calls, c.InBounds) →
      NoSmuggling skipped ⟨⟨[skipped.take 12, skipped.drop 12], []⟩, none⟩ calls) ∧
      (call (after call ⟨⟨[skipped.take 12, skipped.drop 12], []⟩, none⟩ [pairRead])
        pairRead).1.delivered = some (3, [1, 2]) := by
  constructor
  · exact (@noSmuggling_iff [skipped.take 12, skipped.drop 12] (by unfold Delivers; decide) []).mpr
      unambiguous_skipped
  · decide

/-- A frame of an unknown type whose payload of ten bytes reads as an empty `Shutdown`. -/
def wrapped : Bytes := [67, 84, 65, 76, 1, 99, 0, 0, 0, 10, 67, 84, 65, 76, 1, 6, 0, 0, 0, 0]

/-- A read into no buffer, which is enough for a frame without payload. -/
def bareRead : Call := .read ⟨some 0, none, some 0⟩ 0

theorem boundary_wrapped {offset : ℕ} (h : Boundary wrapped offset) : offset = 0 ∨ offset = 20 := by
  induction h with
  | start => exact .inl rfl
  | skip _ hwhole ih =>
    rcases ih with rfl | rfl
    · exact .inr rfl
    · exact absurd hwhole (by decide)

/-- The payload of a rejected frame is delivered as a frame. -/
theorem not_noSmuggling : ¬ ∀ (chunks : Chunks UInt8) (outgoing : Bytes) (calls : List Call),
    Delivers chunks → (∀ c ∈ calls, c.InBounds) →
      NoSmuggling chunks.flatten ⟨⟨chunks, outgoing⟩, none⟩ calls := by
  intro h
  have hbounds : ∀ c ∈ [bareRead, bareRead], c.InBounds := by
    intro c hc
    obtain rfl : c = bareRead := by simpa using hc
    intro output houtput
    cases houtput
  obtain ⟨frame, offset, hseen, hboundary, hbegins⟩ :=
    h [wrapped] [] [bareRead, bareRead] (by unfold Delivers; decide) hbounds [bareRead] bareRead []
      rfl 6 [] (by decide)
  have hhere : Begins wrapped 10 ⟨.shutdown, []⟩ [] := ⟨_, rfl, rfl⟩
  obtain rfl : offset = 10 := offset_of_begins hseen hbegins hhere
  rcases boundary_wrapped hboundary with hzero | hend
  · omega
  · omega

end CertaelAgent.Probe
