import CertaelAgent.Ipc.Framing

/-!
# The probe channel

A game reads and writes frames through a channel that keeps a frame the caller had no room for.
The caller hands in pointers; what they lead to is the caller's memory, and a null pointer leads
nowhere. The calls on one channel exclude each other, so they come one after the other.
-/

namespace CertaelAgent.Probe

open ProtoWire Ipc ByteStream

inductive CertaelProbeResult
  | ok
  | invalidArgument
  | bufferTooSmall
  | notConnected
  | invalidFrame
  | unsupportedPlatform
  | internalError
deriving DecidableEq, Repr

/-- The inherited descriptor: what the Agent sends comes in, and what is written goes out. -/
structure ChannelFile where
  incoming : Chunks UInt8
  outgoing : Bytes
deriving DecidableEq, Repr

structure ChannelState where
  file : ChannelFile
  pending : Option Frame
deriving DecidableEq, Repr

/-- The memory behind the pointers of a read; nothing is behind a null pointer. -/
structure ReadMemory where
  messageType : Option UInt8
  output : Option Bytes
  written : Option ℕ
deriving DecidableEq, Repr

/-- `copy_nonoverlapping` to the start of a buffer. -/
def copyTo (output payload : Bytes) : Bytes := payload ++ output.drop payload.length

/-- Reports the frame that is next, and hands it out when the buffer is large enough. -/
def handOut (frame : Frame) (state : ChannelState) (memory : ReadMemory) (capacity : ℕ) :
    (CertaelProbeResult × ReadMemory) × ChannelState :=
  let reported := { memory with
    written := some frame.payload.length
    messageType := some frame.messageType.toByte }
  if capacity < frame.payload.length then
    ((.bufferTooSmall, reported), { state with pending := some frame })
  else
    let output := if frame.payload.isEmpty then memory.output
      else memory.output.map (copyTo · frame.payload)
    ((.ok, { reported with output }), { state with pending := none })

def certaelAgentChannelRead (state : ChannelState) (memory : ReadMemory) (capacity : ℕ) :
    (CertaelProbeResult × ReadMemory) × ChannelState :=
  if memory.messageType = none ∨ memory.written = none ∨ (0 < capacity ∧ memory.output = none) then
    ((.invalidArgument, memory), state)
  else match state.pending with
    | some frame => handOut frame state memory capacity
    | none =>
      match readFrameFrom state.file.incoming with
      | (.ok frame, incoming) =>
        handOut frame { state with file := { state.file with incoming } } memory capacity
      | (.error _, incoming) =>
        ((.invalidFrame, memory), { state with file := { state.file with incoming } })

/-- Writes to a descriptor that takes so many bytes before it fails. -/
def writeFrameTo (taken : ℕ) (file : ChannelFile) (frame : Frame) :
    Except IpcError Unit × ChannelFile :=
  match writeFrame frame with
  | .error e => (.error e, file)
  | .ok bytes =>
    (if taken < bytes.length then .error .io else .ok (),
      { file with outgoing := file.outgoing ++ bytes.take taken })

def certaelAgentChannelWrite (state : ChannelState) (messageType : UInt8) (payload : Option Bytes)
    (payloadLength taken : ℕ) : CertaelProbeResult × ChannelState :=
  if 0 < payloadLength ∧ payload = none then (.invalidArgument, state)
  else match MessageType.tryFrom messageType with
    | .error _ => (.invalidArgument, state)
    | .ok messageType =>
      if MAX_FRAME_PAYLOAD < payloadLength then (.invalidArgument, state)
      else
        let payload := if payloadLength = 0 then [] else (payload.getD []).take payloadLength
        match writeFrameTo taken state.file ⟨messageType, payload⟩ with
        | (.ok (), file) => (.ok, { state with file })
        | (.error _, file) => (.invalidFrame, { state with file })

/-- A call on the channel; for a write, how many bytes the descriptor takes of it. -/
inductive Call
  | read (memory : ReadMemory) (capacity : ℕ)
  | write (messageType : UInt8) (payload : Option Bytes) (payloadLength taken : ℕ)
deriving DecidableEq, Repr

inductive Answer
  | read (result : CertaelProbeResult) (memory : ReadMemory)
  | write (result : CertaelProbeResult)
deriving DecidableEq, Repr

def call (state : ChannelState) : Call → Answer × ChannelState
  | .read memory capacity =>
    let ((result, memory), state) := certaelAgentChannelRead state memory capacity
    (.read result memory, state)
  | .write messageType payload payloadLength taken =>
    let (result, state) := certaelAgentChannelWrite state messageType payload payloadLength taken
    (.write result, state)

/-- The pointers of a read are valid: only a buffer of no capacity may be null. -/
structure ReadMemory.Valid (memory : ReadMemory) (capacity : ℕ) : Prop where
  messageType : memory.messageType ≠ none
  written : memory.written ≠ none
  output : capacity ≤ (memory.output.getD []).length

def Call.Valid : Call → Prop
  | .read memory capacity => memory.Valid capacity
  | .write _ payload payloadLength _ => payloadLength ≤ (payload.getD []).length

end CertaelAgent.Probe
