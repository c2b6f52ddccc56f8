import CertaelAgent.Foundation.CallTrace
import CertaelAgent.Probe.Channel

/-!
# Exactly-once delivery through the probe channel

To its caller the channel is the queue of the frames that were not handed out yet. The queue
answers every series of calls as the channel does, so what holds of the queue holds of the channel:
frames come out in order and once, and a short read leaves no trace.
-/

namespace CertaelAgent.Probe

open ProtoWire Ipc ByteStream CallTrace

/-- What a caller sees of a frame: its type byte and its payload. -/
def seen (frame : Frame) : UInt8 × Bytes := (frame.messageType.toByte, frame.payload)

/-- What a read that returned `Ok` left in the caller's memory. -/
def Answer.delivered : Answer → Option (UInt8 × Bytes)
  | .read .ok memory =>
    some (memory.messageType.getD 0, (memory.output.getD []).take (memory.written.getD 0))
  | _ => none

/-- The frames that a series of calls returned with `Ok`, in order. -/
def delivered (state : ChannelState) (calls : List Call) : List (UInt8 × Bytes) :=
  (answers call state calls).filterMap Answer.delivered

/-- A frame that is reported, and for which the buffer is too small. -/
def refused (frame : Frame) (memory : ReadMemory) : CertaelProbeResult × ReadMemory :=
  (.bufferTooSmall, { memory with
    messageType := some frame.messageType.toByte
    written := some frame.payload.length })

/-- A frame that is handed out: its payload is at the start of the buffer, the rest of which stays. -/
def handedOut (frame : Frame) (memory : ReadMemory) : CertaelProbeResult × ReadMemory :=
  (.ok, {
    messageType := some frame.messageType.toByte
    written := some frame.payload.length
    output := if frame.payload.isEmpty then memory.output
      else memory.output.map (copyTo · frame.payload) })

/-- The result of a read by the queue of frames. -/
def readQueue (memory : ReadMemory) (capacity : ℕ) :
    List Frame → (CertaelProbeResult × ReadMemory) × List Frame
  | [] => ((.invalidFrame, memory), [])
  | frame :: frames =>
    if frame.payload.length ≤ capacity then (handedOut frame memory, frames)
    else (refused frame memory, frame :: frames)

/-- The queue of the frames that were not handed out yet; writes leave it alone. -/
def callQueue (frames : List Frame) : Call → Answer × List Frame
  | .read memory capacity =>
    (.read (readQueue memory capacity frames).1.1 (readQueue memory capacity frames).1.2,
      (readQueue memory capacity frames).2)
  | .write messageType payload payloadLength taken =>
    ((call ⟨⟨[], []⟩, none⟩ (.write messageType payload payloadLength taken)).1, frames)

/-- A frame of which the last bytes are missing, and possibly all of them. -/
def CutOff (bytes : Bytes) : Prop :=
  ∃ frame whole, writeFrame frame = .ok whole ∧ bytes <+: whole ∧ bytes ≠ whole

theorem cutOff_nil : CutOff [] :=
  ⟨⟨.shutdown, []⟩, header .shutdown 0, rfl, List.nil_prefix, by decide⟩

/-- The channel still has these frames to hand out. -/
structure Holds (state : ChannelState) (frames : List Frame) : Prop where
  delivers : Delivers state.file.incoming
  queued : ∃ queued bytes cut, frames = state.pending.toList ++ queued ∧
    writeFrames queued = .ok bytes ∧ CutOff cut ∧ state.file.incoming.flatten = bytes ++ cut

theorem handOut_eq (frame : Frame) (state : ChannelState) (memory : ReadMemory) (capacity : ℕ) :
    handOut frame state memory capacity =
      if frame.payload.length ≤ capacity then
        (handedOut frame memory, { state with pending := none })
      else (refused frame memory, { state with pending := some frame }) := by
  unfold handOut
  by_cases hfits : frame.payload.length ≤ capacity
  · rw [if_pos hfits, if_neg (by omega)]
    rfl
  · rw [if_neg hfits, if_pos (by omega)]
    rfl

theorem read_of_valid {memory : ReadMemory} {capacity : ℕ} (hvalid : memory.Valid capacity)
    (state : ChannelState) : certaelAgentChannelRead state memory capacity =
      match state.pending with
      | some frame => handOut frame state memory capacity
      | none =>
        match readFrameFrom state.file.incoming with
        | (.ok frame, incoming) =>
          handOut frame { state with file := { state.file with incoming } } memory capacity
        | (.error _, incoming) =>
          ((.invalidFrame, memory), { state with file := { state.file with incoming } }) := by
  have hpointers : ¬ (memory.messageType = none ∨ memory.written = none ∨
      (0 < capacity ∧ memory.output = none)) := by
    rintro (hnull | hnull | ⟨hpositive, hnull⟩)
    · exact hvalid.messageType hnull
    · exact hvalid.written hnull
    · have hoverlong := hvalid.output
      rw [hnull, Option.getD_none, List.length_nil] at hoverlong
      omega
  exact if_neg hpointers

theorem handOut_simulates {frame : Frame} {frames : List Frame} {state : ChannelState}
    (hholds : Holds { state with pending := none } frames) (memory : ReadMemory) (capacity : ℕ) :
    (handOut frame state memory capacity).1 = (readQueue memory capacity (frame :: frames)).1 ∧
      Holds (handOut frame state memory capacity).2
        (readQueue memory capacity (frame :: frames)).2 := by
  obtain ⟨hdelivers, _, bytes, cut, rfl, hwritten, hcut, hincoming⟩ := hholds
  rw [handOut_eq, readQueue]
  split_ifs with hfits
  · exact ⟨rfl, hdelivers, frames, bytes, cut, rfl, hwritten, hcut, hincoming⟩
  · exact ⟨rfl, hdelivers, frames, bytes, cut, rfl, hwritten, hcut, hincoming⟩

theorem read_simulates {state : ChannelState} {frames : List Frame} (hholds : Holds state frames)
    {memory : ReadMemory} {capacity : ℕ} (hvalid : memory.Valid capacity) :
    (certaelAgentChannelRead state memory capacity).1 = (readQueue memory capacity frames).1 ∧
      Holds (certaelAgentChannelRead state memory capacity).2
        (readQueue memory capacity frames).2 := by
  obtain ⟨hdelivers, queued, bytes, cut, rfl, hwritten, hcut, hincoming⟩ := hholds
  rw [read_of_valid hvalid]
  rcases state with ⟨file, _ | frame⟩
  · cases queued with
    | nil =>
      -- the frames are gone, and what is left of the stream is no frame
      obtain rfl := Except.ok.inj hwritten
      obtain ⟨missing, whole, hwhole, hbefore, hne⟩ := hcut
      rw [List.nil_append] at hincoming
      have hread := readFrameFrom_of_cut hwhole hdelivers (hincoming ▸ hbefore) (hincoming ▸ hne)
      simp only [hread]
      exact ⟨rfl, List.forall_mem_nil _, [], [], [], rfl, rfl, cutOff_nil, rfl⟩
    | cons frame queued =>
      obtain ⟨first, hfirst, others, hothers, rfl⟩ : ∃ first, writeFrame frame = .ok first ∧
          ∃ others, writeFrames queued = .ok others ∧ first ++ others = bytes := by
        simpa only [writeFrames, Except.bind_eq_ok_iff, pure, Except.pure, Except.ok.injEq]
          using hwritten
      rw [List.append_assoc] at hincoming
      obtain ⟨left, hread, hleft, hrest⟩ := readFrameFrom_of_written hfirst hdelivers hincoming
      simp only [hread]
      exact handOut_simulates ⟨hleft, queued, others, cut, rfl, hothers, hcut, hrest⟩ _ _
  · exact handOut_simulates ⟨hdelivers, queued, bytes, cut, rfl, hwritten, hcut, hincoming⟩ _ _

theorem writeFrameTo_frame (taken : ℕ) (file : ChannelFile) (frame : Frame) :
    (writeFrameTo taken file frame).1 = (writeFrameTo taken ⟨[], []⟩ frame).1 ∧
      (writeFrameTo taken file frame).2.incoming = file.incoming := by
  unfold writeFrameTo
  split <;> exact ⟨rfl, rfl⟩

theorem write_frame (state : ChannelState) (messageType : UInt8) (payload : Option Bytes)
    (payloadLength taken : ℕ) :
    (certaelAgentChannelWrite state messageType payload payloadLength taken).1 =
        (certaelAgentChannelWrite ⟨⟨[], []⟩, none⟩ messageType payload payloadLength taken).1 ∧
      (certaelAgentChannelWrite state messageType payload payloadLength taken).2.pending =
        state.pending ∧
      (certaelAgentChannelWrite state messageType payload payloadLength taken).2.file.incoming =
        state.file.incoming := by
  unfold certaelAgentChannelWrite
  split
  · exact ⟨rfl, rfl, rfl⟩
  · split
    · exact ⟨rfl, rfl, rfl⟩
    · split
      · exact ⟨rfl, rfl, rfl⟩
      · dsimp only
        generalize (⟨_, _⟩ : Frame) = frame
        obtain ⟨hresult, hincoming⟩ := writeFrameTo_frame taken state.file frame
        rcases hto : writeFrameTo taken state.file frame with ⟨_ | _, file⟩ <;>
          rcases hempty : writeFrameTo taken ⟨[], []⟩ frame with ⟨_ | _, file'⟩ <;>
          simp_all

/-- The channel answers as the queue of the frames it still has to hand out. -/
theorem call_simulates : Simulates call callQueue Call.Valid Holds := by
  rintro state frames hholds (⟨memory, capacity⟩ | ⟨messageType, payload, payloadLength, taken⟩)
    hvalid
  · obtain ⟨hanswer, hnext⟩ := read_simulates hholds hvalid
    constructor
    · exact congrArg (fun read : CertaelProbeResult × ReadMemory => Answer.read read.1 read.2)
        hanswer
    · exact hnext
  · obtain ⟨hanswer, hpending, hincoming⟩ :=
      write_frame state messageType payload payloadLength taken
    constructor
    · exact congrArg Answer.write hanswer
    · obtain ⟨hdelivers, queued, bytes, cut, hframes, hwritten, hcut, hflatten⟩ := hholds
      refine ⟨?_, queued, bytes, cut, ?_, hwritten, hcut, ?_⟩
      · exact hincoming ▸ hdelivers
      · exact hpending ▸ hframes
      · exact hincoming ▸ hflatten

theorem delivered_handedOut {frame : Frame} {memory : ReadMemory} {capacity : ℕ}
    (hvalid : memory.Valid capacity) (hfits : frame.payload.length ≤ capacity) :
    (Answer.read (handedOut frame memory).1 (handedOut frame memory).2).delivered =
      some (seen frame) := by
  obtain ⟨messageType, payload⟩ := frame
  cases payload with
  | nil => rfl
  | cons b payload =>
    obtain ⟨output, houtput⟩ : ∃ output, memory.output = some output := by
      cases h : memory.output with
      | none =>
        have hoverlong := hvalid.output
        rw [h, Option.getD_none, List.length_nil] at hoverlong
        simp only [List.length_cons] at hfits
        omega
      | some output => exact ⟨output, rfl⟩
    simp [Answer.delivered, handedOut, houtput, copyTo, seen]

theorem delivered_refused (frame : Frame) (memory : ReadMemory) :
    (Answer.read (refused frame memory).1 (refused frame memory).2).delivered = none := rfl

theorem callQueue_step (frames : List Frame) {c : Call} (hvalid : c.Valid) :
    ∃ given, frames = given ++ (callQueue frames c).2 ∧
      (callQueue frames c).1.delivered.toList = given.map seen := by
  rcases c with ⟨memory, capacity⟩ | ⟨messageType, payload, payloadLength, taken⟩
  · cases frames with
    | nil => exact ⟨[], rfl, rfl⟩
    | cons frame frames =>
      rw [callQueue, readQueue]
      split_ifs with hfits
      · refine ⟨[frame], rfl, ?_⟩
        rw [delivered_handedOut hvalid hfits]
        rfl
      · exact ⟨[], rfl, by rw [delivered_refused]; rfl⟩
  · exact ⟨[], rfl, rfl⟩

theorem callQueue_run {calls : List Call} (hvalid : ∀ c ∈ calls, c.Valid) :
    ∀ frames, ∃ given, frames = given ++ after callQueue frames calls ∧
      (answers callQueue frames calls).filterMap Answer.delivered = given.map seen := by
  induction calls with
  | nil => exact fun _ => ⟨[], rfl, rfl⟩
  | cons c calls ih =>
    intro frames
    obtain ⟨first, hfirst, hdelivered⟩ :=
      callQueue_step frames (hvalid c (List.mem_cons_self ..))
    obtain ⟨given, hgiven, hlater⟩ :=
      ih (fun c hc => hvalid c (List.mem_cons_of_mem _ hc)) (callQueue frames c).2
    refine ⟨first ++ given, ?_, ?_⟩
    · rw [List.append_assoc]
      exact hfirst.trans (congrArg (first ++ ·) hgiven)
    · rw [answers, List.map_append, ← hdelivered, ← hlater]
      cases hanswer : (callQueue frames c).1.delivered with
      | none => exact List.filterMap_cons_none hanswer
      | some frame => exact List.filterMap_cons_some hanswer

theorem holds_start {frames : List Frame} {bytes cut : Bytes} {chunks : Chunks UInt8}
    (hwritten : writeFrames frames = .ok bytes) (hcut : CutOff cut) (hdelivers : Delivers chunks)
    (hchunks : chunks.flatten = bytes ++ cut) (outgoing : Bytes) :
    Holds ⟨⟨chunks, outgoing⟩, none⟩ frames :=
  ⟨hdelivers, frames, bytes, cut, rfl, hwritten, hcut, hchunks⟩

theorem readQueue_of_bufferTooSmall {memory : ReadMemory} {capacity : ℕ} {frames : List Frame}
    (h : (readQueue memory capacity frames).1.1 = .bufferTooSmall) :
    (readQueue memory capacity frames).2 = frames := by
  cases frames with
  | nil => rfl
  | cons frame frames =>
    rw [readQueue] at h ⊢
    split_ifs at h ⊢
    · cases h
    · rfl

/-- Frames come out in order, once each and unchanged, however the stream is cut into chunks and
whatever is written in between. A read reports the frame that is next and hands it out exactly
when its payload fits; one that is too small does not change what any later call returns. -/
theorem channel_delivers_once {frames : List Frame} {bytes cut : Bytes} {chunks : Chunks UInt8}
    (hwritten : writeFrames frames = .ok bytes) (hcut : CutOff cut) (hdelivers : Delivers chunks)
    (hchunks : chunks.flatten = bytes ++ cut) (outgoing : Bytes) {calls : List Call}
    (hvalid : ∀ c ∈ calls, c.Valid) :
    let start : ChannelState := ⟨⟨chunks, outgoing⟩, none⟩
    delivered start calls <+: frames.map seen ∧
    ∀ memory capacity, memory.Valid capacity →
      (certaelAgentChannelRead (after call start calls) memory capacity).1 =
        (match frames[(delivered start calls).length]? with
          | none => (.invalidFrame, memory)
          | some frame =>
            if frame.payload.length ≤ capacity then handedOut frame memory
            else refused frame memory) ∧
      ((certaelAgentChannelRead (after call start calls) memory capacity).1.1 = .bufferTooSmall →
        ∀ later, (∀ c ∈ later, c.Valid) →
          answers call (after call start (calls ++ [.read memory capacity])) later =
            answers call (after call start calls) later) := by
  intro start
  have hstart := holds_start hwritten hcut hdelivers hchunks outgoing
  have hnow := call_simulates.after hvalid hstart
  obtain ⟨given, hgiven, hanswers⟩ := callQueue_run hvalid frames
  rw [← call_simulates.answers hvalid hstart] at hanswers
  have hdelivered : delivered start calls = given.map seen := hanswers
  generalize after callQueue frames calls = queue at hnow hgiven
  refine ⟨?_, fun memory capacity hmemory => ⟨?_, ?_⟩⟩
  · rw [hdelivered, hgiven, List.map_append]
    exact List.prefix_append _ _
  · have hnext : frames[(given.map seen).length]? = queue[0]? := by
      rw [hgiven, List.length_map, List.getElem?_append_right le_rfl, Nat.sub_self]
    rw [(read_simulates hnow hmemory).1, hdelivered, hnext]
    cases queue with
    | nil => rfl
    | cons frame rest =>
      show (readQueue memory capacity (frame :: rest)).1 =
        if frame.payload.length ≤ capacity then handedOut frame memory else refused frame memory
      rw [readQueue]
      split_ifs <;> rfl
  · intro hshort later hlater
    rw [(read_simulates hnow hmemory).1] at hshort
    have hagain : Holds (after call start (calls ++ [.read memory capacity])) queue := by
      have hnext := (read_simulates hnow hmemory).2
      rw [readQueue_of_bufferTooSmall hshort] at hnext
      rw [after_append]
      exact hnext
    rw [call_simulates.answers hlater hagain, call_simulates.answers hlater hnow]

theorem channel_delivers_once_sample :
    let start : ChannelState :=
      ⟨⟨[[67, 84, 65], [76, 1, 3, 0, 0, 0, 3, 1, 2, 3, 67], [84, 65, 76, 1, 6, 0, 0, 0, 0]], []⟩,
        none⟩
    let calls : List Call :=
      [.read ⟨some 0, some [0, 0], some 0⟩ 2, .write 5 none 0 10,
        .read ⟨some 0, some [0, 0, 0, 9], some 0⟩ 4]
    delivered start calls = [(3, [1, 2, 3])] ∧
      delivered start calls <+: [(3, [1, 2, 3]), (6, [])] := by
  intro start calls
  have hvalid : ∀ c ∈ calls, c.Valid := by
    intro c hc
    simp only [calls, List.mem_cons, List.not_mem_nil, or_false] at hc
    rcases hc with rfl | rfl | rfl
    · exact ⟨by decide, by decide, by decide⟩
    · exact Nat.le_refl 0
    · exact ⟨by decide, by decide, by decide⟩
  obtain ⟨hread, -⟩ :=
    @channel_delivers_once [⟨.challenge, [1, 2, 3]⟩, ⟨.shutdown, []⟩] _ [] start.file.incoming rfl
      cutOff_nil (by unfold Delivers; decide) rfl [] calls hvalid
  exact ⟨by decide, hread⟩

end CertaelAgent.Probe
