import CertaelAgent.Foundation.Wire

/-!
# Channel frames

A frame is a header of ten bytes (magic, version, message type, big-endian payload length)
followed by its payload.
-/

namespace CertaelAgent.Ipc

open ProtoWire

/-- `CTAL`. -/
def IPC_MAGIC : Bytes := [67, 84, 65, 76]

def IPC_VERSION : UInt8 := 1

def MAX_FRAME_PAYLOAD : ℕ := 64 * 1024

inductive MessageType
  | agentHello
  | launchGrant
  | challenge
  | integrityReport
  | health
  | shutdown
  | revocation
deriving DecidableEq, Repr

/-- The discriminant of the message type. -/
def MessageType.toByte : MessageType → UInt8
  | .agentHello => 1
  | .launchGrant => 2
  | .challenge => 3
  | .integrityReport => 4
  | .health => 5
  | .shutdown => 6
  | .revocation => 7

structure Frame where
  messageType : MessageType
  payload : Bytes
deriving DecidableEq, Repr

inductive IpcError
  | io
  | invalidHeader
  | unknownMessage
  | tooLarge
deriving DecidableEq, Repr

/-- The four bytes of a length, most significant first. -/
def lengthBytes (length : ℕ) : Bytes :=
  [UInt8.ofNat (length / 2 ^ 24), UInt8.ofNat (length / 2 ^ 16), UInt8.ofNat (length / 2 ^ 8),
    UInt8.ofNat length]

/-- The bytes handed to a writer that takes everything. -/
def writeFrame (frame : Frame) : Except IpcError Bytes :=
  if MAX_FRAME_PAYLOAD < frame.payload.length then .error .tooLarge
  else .ok (IPC_MAGIC ++ [IPC_VERSION, frame.messageType.toByte] ++
    lengthBytes frame.payload.length ++ frame.payload)

theorem writeFrame_isOk_iff {frame : Frame} :
    (∃ bytes, writeFrame frame = .ok bytes) ↔ frame.payload.length ≤ MAX_FRAME_PAYLOAD := by
  unfold writeFrame
  constructor
  · rintro ⟨bytes, h⟩
    split_ifs at h with hlarge
    omega
  · intro h
    exact ⟨_, if_neg (by omega)⟩

end CertaelAgent.Ipc
