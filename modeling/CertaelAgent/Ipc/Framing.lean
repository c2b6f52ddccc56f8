import CertaelAgent.Foundation.ByteStream
import CertaelAgent.Ipc.Frame

/-!
# Reading frames from a stream

`readFrame` asks the reader for a header, decides by it how many bytes follow, and asks for those.
It undoes `writeFrame` on whole streams: however the bytes arrive, the frames that were written
come out in order, and what is not a written frame does not come out at all.
-/

namespace CertaelAgent.Ipc

open ProtoWire ByteStream Program

def HEADER_LENGTH : ℕ := 10

def MessageType.tryFrom (value : UInt8) : Except IpcError MessageType :=
  match value with
  | 1 => .ok .agentHello
  | 2 => .ok .launchGrant
  | 3 => .ok .challenge
  | 4 => .ok .integrityReport
  | 5 => .ok .health
  | 6 => .ok .shutdown
  | 7 => .ok .revocation
  | _ => .error .unknownMessage

/-- The number whose most significant byte comes first. -/
def fromBigEndian (bytes : Bytes) : ℕ := bytes.foldl (fun n b => 2 ^ 8 * n + b.toNat) 0

/-- What reads from a stream of bytes. -/
abbrev Reading := Program Fill (fun _ => Option Bytes) IpcError

/-- A buffer of the given size, allocated and filled. -/
def readExact (size : ℕ) : Reading Bytes := expect .io (perform ⟨size⟩)

def readFrame : Reading Frame := do
  let header ← readExact HEADER_LENGTH
  require .invalidHeader (header.take 4 = IPC_MAGIC ∧ header[4]? = some IPC_VERSION)
  let messageType ← (done (MessageType.tryFrom (header.getD 5 0)) : Reading MessageType)
  let length := fromBigEndian (header.drop 6)
  require .tooLarge (length ≤ MAX_FRAME_PAYLOAD)
  let payload ← readExact length
  return ⟨messageType, payload⟩

/-- One frame from a reader, or the error, and what the reader has left. -/
def readFrameFrom (chunks : Chunks UInt8) : Except IpcError Frame × Chunks UInt8 :=
  exec (device UInt8) readFrame chunks

/-- The results of so many reads, one after the other. -/
def readRepeatedly : ℕ → Chunks UInt8 → List (Except IpcError Frame)
  | 0, _ => []
  | times + 1, chunks =>
    (readFrameFrom chunks).1 :: readRepeatedly times (readFrameFrom chunks).2

/-- Frames written one after the other. -/
def writeFrames : List Frame → Except IpcError Bytes
  | [] => .ok []
  | frame :: frames => do
    let first ← writeFrame frame
    let others ← writeFrames frames
    return first ++ others

theorem MessageType.tryFrom_toByte (messageType : MessageType) :
    tryFrom messageType.toByte = .ok messageType := by
  cases messageType <;> rfl

theorem MessageType.toByte_of_tryFrom {value : UInt8} {messageType : MessageType}
    (h : tryFrom value = .ok messageType) : messageType.toByte = value := by
  unfold tryFrom at h
  split at h <;> cases h <;> rfl

theorem fromBigEndian_lengthBytes {n : ℕ} (hn : n < 2 ^ 32) :
    fromBigEndian (lengthBytes n) = n := by
  simp only [fromBigEndian, lengthBytes, List.foldl_cons, List.foldl_nil, UInt8.toNat_ofNat']
  omega

theorem lengthBytes_fromBigEndian {bytes : Bytes} (h : bytes.length = 4) :
    lengthBytes (fromBigEndian bytes) = bytes := by
  match bytes, h with
  | [a, b, c, d], _ =>
    have ha := a.toNat_lt
    have hb := b.toNat_lt
    have hc := c.toNat_lt
    have hd := d.toNat_lt
    simp only [lengthBytes, fromBigEndian, List.foldl_cons, List.foldl_nil, List.cons.injEq,
      and_true, ← UInt8.toNat_inj, UInt8.toNat_ofNat']
    omega

/-- The header of a frame with this type and payload length. -/
def header (messageType : MessageType) (length : ℕ) : Bytes :=
  IPC_MAGIC ++ [IPC_VERSION, messageType.toByte] ++ lengthBytes length

theorem header_length (messageType : MessageType) (length : ℕ) :
    (header messageType length).length = HEADER_LENGTH := rfl

theorem writeFrame_eq_ok_iff {frame : Frame} {bytes : Bytes} :
    writeFrame frame = .ok bytes ↔ frame.payload.length ≤ MAX_FRAME_PAYLOAD ∧
      bytes = header frame.messageType frame.payload.length ++ frame.payload := by
  unfold writeFrame
  split_ifs with h
  · simp
    omega
  · simp [header, eq_comm]
    omega

theorem eq_header {bytes : Bytes} {messageType : MessageType} (hlength : bytes.length = HEADER_LENGTH)
    (hmagic : bytes.take 4 = IPC_MAGIC) (hversion : bytes[4]? = some IPC_VERSION)
    (htype : MessageType.tryFrom (bytes.getD 5 0) = .ok messageType) :
    bytes = header messageType (fromBigEndian (bytes.drop 6)) := by
  match bytes, hlength with
  | [m₀, m₁, m₂, m₃, version, value, l₀, l₁, l₂, l₃], _ =>
    obtain rfl := Option.some.inj hversion
    have hvalue := MessageType.toByte_of_tryFrom htype
    have hlen : lengthBytes (fromBigEndian [l₀, l₁, l₂, l₃]) = [l₀, l₁, l₂, l₃] :=
      lengthBytes_fromBigEndian rfl
    simp only [List.take_succ_cons, List.take_zero] at hmagic
    simp only [header, List.drop_succ_cons, List.drop_zero, hlen, hvalue, ← hmagic]
    rfl

theorem exec_readExact_bind {β : Type} (size : ℕ) (f : Bytes → Reading β) (chunks : Chunks UInt8) :
    exec (device UInt8) (readExact size >>= f) chunks =
      match ByteStream.readExact size chunks with
      | (some bytes, rest) => exec (device UInt8) (f bytes) rest
      | (none, rest) => (.error .io, rest) := by
  show exec (device UInt8) (expect _ (perform _) >>= f) chunks = _
  rw [Program.exec_bind]
  rcases h : ByteStream.readExact size chunks with ⟨_ | bytes, rest⟩ <;>
    simp [expect, exec, device, h]

theorem readFrameFrom_of_header {chunks rest : Chunks UInt8} {messageType : MessageType}
    {length : ℕ} (hlength : length ≤ MAX_FRAME_PAYLOAD)
    (hheader : ByteStream.readExact HEADER_LENGTH chunks =
      (some (header messageType length), rest)) :
    readFrameFrom chunks = match ByteStream.readExact length rest with
      | (some payload, rest') => (.ok ⟨messageType, payload⟩, rest')
      | (none, rest') => (.error .io, rest') := by
  have htype : MessageType.tryFrom ((header messageType length).getD 5 0) = .ok messageType :=
    MessageType.tryFrom_toByte messageType
  have hdrop : (header messageType length).drop 6 = lengthBytes length := rfl
  have hvalue : fromBigEndian (lengthBytes length) = length :=
    fromBigEndian_lengthBytes (by unfold MAX_FRAME_PAYLOAD at hlength; omega)
  unfold readFrameFrom readFrame
  simp only [exec_readExact_bind, hheader]
  rw [exec_require_bind ⟨rfl, rfl⟩, exec_done_bind_ok htype]
  simp only [hdrop, hvalue]
  rw [exec_require_bind hlength, exec_readExact_bind]
  rfl

theorem header_of_readFrameFrom {chunks rest : Chunks UInt8} {frame : Frame}
    (h : readFrameFrom chunks = (.ok frame, rest)) :
    frame.payload.length ≤ MAX_FRAME_PAYLOAD ∧ chunks.flatten =
      header frame.messageType frame.payload.length ++ frame.payload ++ rest.flatten := by
  unfold readFrameFrom readFrame at h
  rw [exec_readExact_bind] at h
  rcases hread : ByteStream.readExact HEADER_LENGTH chunks with ⟨_ | bytes, tail⟩
  · simp [hread] at h
  obtain ⟨hchunks, hlength⟩ := flatten_of_readExact hread
  simp only [hread] at h
  by_cases hvalid : bytes.take 4 = IPC_MAGIC ∧ bytes[4]? = some IPC_VERSION
  · rw [exec_require_bind hvalid] at h
    cases htype : MessageType.tryFrom (bytes.getD 5 0) with
    | error e =>
      rw [htype, done_error_bind] at h
      cases h
    | ok messageType =>
      rw [exec_done_bind_ok htype] at h
      by_cases hsmall : fromBigEndian (bytes.drop 6) ≤ MAX_FRAME_PAYLOAD
      · rw [exec_require_bind hsmall, exec_readExact_bind] at h
        rcases hpayload : ByteStream.readExact (fromBigEndian (bytes.drop 6)) tail with
          ⟨_ | payload, tail'⟩
        · simp [hpayload] at h
        obtain ⟨htail, hcount⟩ := flatten_of_readExact hpayload
        rw [hpayload] at h
        obtain ⟨hframe, rfl⟩ := Prod.mk.inj h
        obtain rfl := Except.ok.inj hframe
        have hbytes := eq_header hlength hvalid.1 hvalid.2 htype
        rw [← hcount] at hbytes hsmall
        exact ⟨hsmall, by rw [hchunks, htail, hbytes, List.append_assoc]⟩
      · rw [Program.require, if_neg hsmall] at h
        cases h
  · rw [Program.require, if_neg hvalid] at h
    cases h

theorem readFrameFrom_of_written {chunks : Chunks UInt8} {frame : Frame} {bytes rest : Bytes}
    (hwritten : writeFrame frame = .ok bytes) (hdelivers : Delivers chunks)
    (hchunks : chunks.flatten = bytes ++ rest) :
    ∃ left, readFrameFrom chunks = (.ok frame, left) ∧ Delivers left ∧ left.flatten = rest := by
  obtain ⟨hsmall, rfl⟩ := writeFrame_eq_ok_iff.mp hwritten
  rw [List.append_assoc] at hchunks
  have hheader := header_length frame.messageType frame.payload.length
  have henough : HEADER_LENGTH ≤ chunks.flatten.length := by
    rw [hchunks, List.length_append]
    omega
  obtain ⟨tail, hread, htail, hflatten⟩ := readExact_of_le hdelivers henough
  rw [hchunks, List.drop_left' hheader] at hflatten
  rw [hchunks, List.take_left' hheader] at hread
  have hpayload : frame.payload.length ≤ tail.flatten.length := by
    rw [hflatten, List.length_append]
    omega
  obtain ⟨left, hread', hleft, hrest⟩ := readExact_of_le htail hpayload
  rw [hflatten, List.drop_left] at hrest
  rw [hflatten, List.take_left] at hread'
  refine ⟨left, ?_, hleft, hrest⟩
  rw [readFrameFrom_of_header hsmall hread, hread']

/-- A frame that is cut off is an `Io` error, whatever the reader does. -/
theorem readFrameFrom_of_prefix {chunks : Chunks UInt8} {frame : Frame} {bytes : Bytes}
    (hwritten : writeFrame frame = .ok bytes) (hcut : chunks.flatten <+: bytes)
    (hproper : chunks.flatten ≠ bytes) : (readFrameFrom chunks).1 = .error .io := by
  obtain ⟨hsmall, rfl⟩ := writeFrame_eq_ok_iff.mp hwritten
  rcases hread : ByteStream.readExact HEADER_LENGTH chunks with ⟨_ | bytes, tail⟩
  · unfold readFrameFrom readFrame
    rw [exec_readExact_bind, hread]
  obtain ⟨hchunks, hlength⟩ := flatten_of_readExact hread
  have hheader : bytes = header frame.messageType frame.payload.length := by
    have hbytes : bytes <+: header frame.messageType frame.payload.length ++ frame.payload :=
      (List.prefix_append bytes tail.flatten).trans (hchunks ▸ hcut)
    have hsame := hlength.trans (header_length frame.messageType frame.payload.length).symm
    exact (List.prefix_of_prefix_length_le hbytes (List.prefix_append _ _) hsame.le).eq_of_length
      hsame
  subst hheader
  rcases hpayload : ByteStream.readExact frame.payload.length tail with ⟨_ | payload, tail'⟩
  · rw [readFrameFrom_of_header hsmall hread, hpayload]
  -- the payload is there in full, so nothing was cut off
  obtain ⟨htail, hcount⟩ := flatten_of_readExact hpayload
  have hfull : chunks.flatten.length =
      (header frame.messageType frame.payload.length ++ frame.payload).length +
        tail'.flatten.length := by
    rw [hchunks, htail]
    simp only [List.length_append]
    omega
  exact absurd (hcut.eq_of_length_le (by omega)) hproper

theorem readFrameFrom_of_cut {chunks : Chunks UInt8} {frame : Frame} {bytes : Bytes}
    (hwritten : writeFrame frame = .ok bytes) (hdelivers : Delivers chunks)
    (hcut : chunks.flatten <+: bytes) (hproper : chunks.flatten ≠ bytes) :
    readFrameFrom chunks = (.error .io, []) := by
  obtain ⟨hsmall, rfl⟩ := writeFrame_eq_ok_iff.mp hwritten
  have hheader := header_length frame.messageType frame.payload.length
  have hshort : chunks.flatten.length < HEADER_LENGTH + frame.payload.length := by
    have hle := hcut.length_le
    have hne := mt hcut.eq_of_length hproper
    rw [List.length_append, hheader] at hle hne
    omega
  by_cases hless : chunks.flatten.length < HEADER_LENGTH
  · unfold readFrameFrom readFrame
    rw [exec_readExact_bind, readExact_of_lt hdelivers hless]
  · obtain ⟨tail, hread, htail, hflatten⟩ := readExact_of_le hdelivers (Nat.le_of_not_lt hless)
    have htake : chunks.flatten.take HEADER_LENGTH =
        header frame.messageType frame.payload.length := by
      have hfirst := hcut.take HEADER_LENGTH
      rw [List.take_left' hheader] at hfirst
      apply hfirst.eq_of_length
      rw [List.length_take, hheader]
      omega
    have hleft : tail.flatten.length < frame.payload.length := by
      rw [hflatten, List.length_drop]
      omega
    rw [htake] at hread
    rw [readFrameFrom_of_header hsmall hread, readExact_of_lt htail hleft]

theorem readFrameFrom_nil : readFrameFrom [] = (.error .io, []) := rfl

theorem readRepeatedly_nil (times : ℕ) :
    readRepeatedly times [] = List.replicate times (.error .io) := by
  induction times with
  | zero => rfl
  | succ times ih => rw [readRepeatedly, readFrameFrom_nil, List.replicate_succ, ih]

theorem flatten_eq_nil {chunks : Chunks UInt8} (hdelivers : Delivers chunks)
    (h : chunks.flatten = []) : chunks = [] := by
  cases chunks with
  | nil => rfl
  | cons chunk chunks =>
    exact absurd (List.append_eq_nil_iff.mp h).1 (hdelivers chunk (List.mem_cons_self ..))

/-- Written frames come out in order; behind them there is nothing but `Io`. -/
theorem readRepeatedly_of_written {frames : List Frame} {bytes : Bytes}
    (hwritten : writeFrames frames = .ok bytes) (more : ℕ) : ∀ chunks, Delivers chunks →
      chunks.flatten = bytes →
      readRepeatedly (frames.length + more) chunks =
        frames.map .ok ++ List.replicate more (.error .io) := by
  induction frames generalizing bytes with
  | nil =>
    intro chunks hdelivers hchunks
    obtain rfl := Except.ok.inj hwritten
    obtain rfl := flatten_eq_nil hdelivers hchunks
    simpa using readRepeatedly_nil more
  | cons frame frames ih =>
    intro chunks hdelivers hchunks
    obtain ⟨first, hfirst, others, hothers, rfl⟩ : ∃ first, writeFrame frame = .ok first ∧
        ∃ others, writeFrames frames = .ok others ∧ first ++ others = bytes := by
      simpa only [writeFrames, Except.bind_eq_ok_iff, pure, Except.pure, Except.ok.injEq]
        using hwritten
    obtain ⟨left, hread, hleft, hrest⟩ := readFrameFrom_of_written hfirst hdelivers hchunks
    rw [List.length_cons, Nat.add_right_comm, readRepeatedly, hread]
    exact congrArg (.ok frame :: ·) (ih hothers left hleft hrest)

theorem writeFrames_isOk {frames : List Frame}
    (h : ∀ frame ∈ frames, frame.payload.length ≤ MAX_FRAME_PAYLOAD) :
    ∃ bytes, writeFrames frames = .ok bytes := by
  induction frames with
  | nil => exact ⟨[], rfl⟩
  | cons frame frames ih =>
    obtain ⟨first, hfirst⟩ := writeFrame_isOk_iff.mpr (h frame (List.mem_cons_self ..))
    obtain ⟨others, hothers⟩ := ih fun f hf => h f (List.mem_cons_of_mem _ hf)
    exact ⟨first ++ others, by rw [writeFrames, hfirst, Except.ok_bind, hothers]; rfl⟩

/-- No buffer is larger than a payload may be, whatever the header said. -/
theorem readFrame_issues : readFrame.Issues fun fill => fill.size ≤ MAX_FRAME_PAYLOAD := by
  have hread : ∀ size, size ≤ MAX_FRAME_PAYLOAD →
      (readExact size).Issues fun fill => fill.size ≤ MAX_FRAME_PAYLOAD := by
    intro size hsize
    refine ⟨hsize, fun reply => ?_⟩
    cases reply <;> trivial
  unfold readFrame
  apply (hread HEADER_LENGTH (by decide)).bind
  intro header
  apply Issues.require_bind
  intro _
  have htype : (done (MessageType.tryFrom (header.getD 5 0)) : Reading MessageType).Issues
      fun fill => fill.size ≤ MAX_FRAME_PAYLOAD := trivial
  apply htype.bind
  intro messageType
  apply Issues.require_bind
  intro hlength
  apply (hread _ hlength).bind
  intro payload
  trivial

/-- Framing is self-delimiting and canonical: streams of written frames are read back however they
are cut, a frame that is read took the bytes it is written as, a frame that is cut off is an `Io`
error, and no buffer and no payload is larger than the limit. -/
theorem framing_selfDelimiting {frames : List Frame}
    (hsmall : ∀ frame ∈ frames, frame.payload.length ≤ MAX_FRAME_PAYLOAD) :
    (∃ bytes, writeFrames frames = .ok bytes ∧
      ∀ chunks, Delivers chunks → chunks.flatten = bytes → ∀ more,
        readRepeatedly (frames.length + more) chunks =
          frames.map .ok ++ List.replicate more (.error .io)) ∧
    (∀ chunks frame rest, readFrameFrom chunks = (.ok frame, rest) →
      frame.payload.length ≤ MAX_FRAME_PAYLOAD ∧
        ∃ bytes, writeFrame frame = .ok bytes ∧ chunks.flatten = bytes ++ rest.flatten) ∧
    (∀ frame bytes chunks, writeFrame frame = .ok bytes → chunks.flatten <+: bytes →
      chunks.flatten ≠ bytes → (readFrameFrom chunks).1 = .error .io) ∧
    readFrame.Issues fun fill => fill.size ≤ MAX_FRAME_PAYLOAD := by
  refine ⟨?_, ?_, ?_, readFrame_issues⟩
  · obtain ⟨bytes, hbytes⟩ := writeFrames_isOk hsmall
    exact ⟨bytes, hbytes, fun chunks hdelivers hchunks more =>
      readRepeatedly_of_written hbytes more chunks hdelivers hchunks⟩
  · intro chunks frame rest h
    obtain ⟨hlength, hchunks⟩ := header_of_readFrameFrom h
    exact ⟨hlength, _, writeFrame_eq_ok_iff.mpr ⟨hlength, rfl⟩, hchunks⟩
  · intro frame bytes chunks hwritten hcut hproper
    exact readFrameFrom_of_prefix hwritten hcut hproper

theorem framing_selfDelimiting_sample :
    readRepeatedly 3
        [[67, 84, 65], [76, 1, 3, 0, 0, 0, 3, 1, 2, 3, 67], [84, 65, 76, 1, 6, 0, 0, 0, 0]] =
      [.ok ⟨.challenge, [1, 2, 3]⟩, .ok ⟨.shutdown, []⟩, .error .io] := by
  obtain ⟨⟨bytes, hwritten, hread⟩, -⟩ :=
    @framing_selfDelimiting [⟨.challenge, [1, 2, 3]⟩, ⟨.shutdown, []⟩] (by decide)
  obtain rfl : [67, 84, 65, 76, 1, 3, 0, 0, 0, 3, 1, 2, 3, 67, 84, 65, 76, 1, 6, 0, 0, 0, 0] =
      bytes := Except.ok.inj hwritten
  exact hread _ (by unfold Delivers; decide) rfl 1

end CertaelAgent.Ipc
