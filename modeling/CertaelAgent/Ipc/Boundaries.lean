import CertaelAgent.Ipc.Framing

/-!
# Where frames begin and streams end

One read takes a whole frame, or the ten bytes of a header that it rejects, or everything that is
left. Which of these it is depends on the bytes only, not on how they arrive.
-/

namespace CertaelAgent.Ipc

open ProtoWire ByteStream Program

/-- How many bytes of payload the header in front declares. -/
def declaredLength (bytes : Bytes) : ℕ := fromBigEndian ((bytes.take HEADER_LENGTH).drop 6)

/-- The reader goes on behind this header and asks for the payload. -/
structure AcceptedHeader (bytes : Bytes) : Prop where
  complete : HEADER_LENGTH ≤ bytes.length
  magic : (bytes.take HEADER_LENGTH).take 4 = IPC_MAGIC
  version : (bytes.take HEADER_LENGTH)[4]? = some IPC_VERSION
  known : ∃ messageType, MessageType.tryFrom ((bytes.take HEADER_LENGTH).getD 5 0) = .ok messageType
  small : declaredLength bytes ≤ MAX_FRAME_PAYLOAD

/-- The bytes end inside a header, or inside the payload behind an accepted one. -/
def Truncated (bytes : Bytes) : Prop :=
  bytes ≠ [] ∧ (bytes.length < HEADER_LENGTH ∨
    AcceptedHeader bytes ∧ bytes.length < HEADER_LENGTH + declaredLength bytes)

/-- What a read returns, and what it leaves of the bytes. -/
inductive ReadCases (bytes : Bytes) : Except IpcError Frame → Bytes → Prop
  | frame (frame : Frame) (sent rest : Bytes) (hwritten : writeFrame frame = .ok sent)
      (hbytes : bytes = sent ++ rest) : ReadCases bytes (.ok frame) rest
  | ended (hbytes : bytes = []) : ReadCases bytes (.error .io) []
  | truncated (htruncated : Truncated bytes) : ReadCases bytes (.error .io) []
  | rejected (error : IpcError) (hne : error ≠ .io) (hcomplete : HEADER_LENGTH ≤ bytes.length)
      (hheader : ¬ AcceptedHeader bytes) :
      ReadCases bytes (.error error) (bytes.drop HEADER_LENGTH)

theorem ne_nil_of_written {frame : Frame} {sent : Bytes} (hwritten : writeFrame frame = .ok sent) :
    sent ≠ [] := by
  obtain ⟨-, rfl⟩ := writeFrame_eq_ok_iff.mp hwritten
  exact List.cons_ne_nil _ _

theorem declaredLength_header_append {messageType : MessageType} {length : ℕ}
    (hlength : length ≤ MAX_FRAME_PAYLOAD) (bytes : Bytes) :
    declaredLength (header messageType length ++ bytes) = length := by
  have hdrop : (header messageType length).drop 6 = lengthBytes length := rfl
  unfold declaredLength
  rw [List.take_left' (header_length messageType length), hdrop]
  apply fromBigEndian_lengthBytes
  unfold MAX_FRAME_PAYLOAD at hlength
  omega

theorem acceptedHeader_header_append {messageType : MessageType} {length : ℕ}
    (hlength : length ≤ MAX_FRAME_PAYLOAD) (bytes : Bytes) :
    AcceptedHeader (header messageType length ++ bytes) := by
  have htake : (header messageType length ++ bytes).take HEADER_LENGTH = header messageType length :=
    List.take_left' (header_length messageType length)
  constructor
  · rw [List.length_append, header_length]
    omega
  · rw [htake]
    rfl
  · rw [htake]
    rfl
  · rw [htake]
    exact ⟨messageType, MessageType.tryFrom_toByte messageType⟩
  · rw [declaredLength_header_append hlength]
    exact hlength

theorem not_truncated_written {frame : Frame} {sent : Bytes} (hwritten : writeFrame frame = .ok sent)
    (rest : Bytes) : ¬ Truncated (sent ++ rest) := by
  obtain ⟨hsmall, rfl⟩ := writeFrame_eq_ok_iff.mp hwritten
  have hheader := header_length frame.messageType frame.payload.length
  rintro ⟨-, hshort⟩
  rw [List.append_assoc, declaredLength_header_append hsmall] at hshort
  simp only [List.length_append] at hshort
  omega

theorem readFrameFrom_of_rejected {chunks tail : Chunks UInt8} {bytes : Bytes}
    (hread : ByteStream.readExact HEADER_LENGTH chunks = (some bytes, tail))
    (hrejected : ¬ AcceptedHeader chunks.flatten) :
    ∃ error, error ≠ .io ∧ readFrameFrom chunks = (.error error, tail) := by
  obtain ⟨hchunks, hlength⟩ := flatten_of_readExact hread
  have htake : chunks.flatten.take HEADER_LENGTH = bytes := by
    rw [hchunks, List.take_left' hlength]
  unfold readFrameFrom readFrame
  rw [exec_readExact_bind]
  simp only [hread]
  by_cases hvalid : bytes.take 4 = IPC_MAGIC ∧ bytes[4]? = some IPC_VERSION
  · rw [exec_require_bind hvalid]
    cases htype : MessageType.tryFrom (bytes.getD 5 0) with
    | error error =>
      have hne : error ≠ .io := by
        unfold MessageType.tryFrom at htype
        split at htype <;> cases htype
        exact IpcError.noConfusion
      exact ⟨error, hne, rfl⟩
    | ok messageType =>
      rw [exec_done_bind_ok rfl]
      by_cases hsmall : fromBigEndian (bytes.drop 6) ≤ MAX_FRAME_PAYLOAD
      · subst htake
        have hcomplete : HEADER_LENGTH ≤ chunks.flatten.length := by
          rw [hchunks, List.length_append, hlength]
          omega
        exact absurd ⟨hcomplete, hvalid.1, hvalid.2, ⟨messageType, htype⟩, hsmall⟩ hrejected
      · rw [Program.require, if_neg hsmall]
        exact ⟨.tooLarge, IpcError.noConfusion, rfl⟩
  · rw [Program.require, if_neg hvalid]
    exact ⟨.invalidHeader, IpcError.noConfusion, rfl⟩

/-- Every read is one of the cases, and the reader goes on delivering. -/
theorem readFrameFrom_cases {chunks : Chunks UInt8} (hdelivers : Delivers chunks) :
    Delivers (readFrameFrom chunks).2 ∧
      ReadCases chunks.flatten (readFrameFrom chunks).1 (readFrameFrom chunks).2.flatten := by
  by_cases hless : chunks.flatten.length < HEADER_LENGTH
  · have hread : readFrameFrom chunks = (.error .io, []) := by
      unfold readFrameFrom readFrame
      rw [exec_readExact_bind, readExact_of_lt hdelivers hless]
    rw [hread]
    constructor
    · exact List.forall_mem_nil _
    · by_cases hempty : chunks.flatten = []
      · exact .ended hempty
      · exact .truncated ⟨hempty, .inl hless⟩
  have hcomplete : HEADER_LENGTH ≤ chunks.flatten.length := Nat.le_of_not_lt hless
  obtain ⟨tail, hread, htail, hflatten⟩ := readExact_of_le hdelivers hcomplete
  by_cases haccepted : AcceptedHeader chunks.flatten
  · obtain ⟨messageType, htype⟩ := haccepted.known
    have hlength : (chunks.flatten.take HEADER_LENGTH).length = HEADER_LENGTH := by
      rw [List.length_take]
      omega
    have hheader := eq_header hlength haccepted.magic haccepted.version htype
    change _ = header messageType (declaredLength chunks.flatten) at hheader
    rw [hheader] at hread
    rw [readFrameFrom_of_header haccepted.small hread]
    by_cases hpayload : tail.flatten.length < declaredLength chunks.flatten
    · rw [readExact_of_lt htail hpayload]
      constructor
      · exact List.forall_mem_nil _
      · apply ReadCases.truncated
        constructor
        · rintro hempty
          rw [hempty] at hcomplete
          exact absurd hcomplete (by decide)
        · right
          rw [hflatten, List.length_drop] at hpayload
          exact ⟨haccepted, by omega⟩
    · obtain ⟨rest, hread', hrest, hflatten'⟩ := readExact_of_le htail (Nat.le_of_not_lt hpayload)
      rw [hread']
      have hlength' : (tail.flatten.take (declaredLength chunks.flatten)).length =
          declaredLength chunks.flatten := by
        rw [List.length_take]
        omega
      have hwritten : writeFrame ⟨messageType, tail.flatten.take (declaredLength chunks.flatten)⟩ =
          .ok (header messageType (declaredLength chunks.flatten) ++
            tail.flatten.take (declaredLength chunks.flatten)) := by
        rw [writeFrame_eq_ok_iff, hlength']
        exact ⟨haccepted.small, rfl⟩
      constructor
      · exact hrest
      · apply ReadCases.frame _ _ _ hwritten
        rw [← hheader, hflatten', List.append_assoc, List.take_append_drop, hflatten,
          List.take_append_drop]
  · obtain ⟨error, hne, hrejected⟩ := readFrameFrom_of_rejected hread haccepted
    rw [hrejected]
    constructor
    · exact htail
    · rw [hflatten]
      exact .rejected error hne hcomplete haccepted

theorem written_append_inj {frame frame' : Frame} {sent sent' rest rest' : Bytes}
    (hwritten : writeFrame frame = .ok sent) (hwritten' : writeFrame frame' = .ok sent')
    (h : sent ++ rest = sent' ++ rest') : frame = frame' ∧ rest = rest' := by
  have hnonempty : sent ++ rest ≠ [] :=
    List.append_ne_nil_of_left_ne_nil (ne_nil_of_written hwritten) rest
  have hdelivers : Delivers [sent ++ rest] := by
    intro chunk hchunk
    rw [List.mem_singleton] at hchunk
    rw [hchunk]
    exact hnonempty
  obtain ⟨left, hread, -, hleft⟩ :=
    readFrameFrom_of_written hwritten hdelivers (List.flatten_singleton ..)
  obtain ⟨left', hread', -, hleft'⟩ :=
    readFrameFrom_of_written hwritten' hdelivers ((List.flatten_singleton ..).trans h)
  obtain ⟨hframe, rfl⟩ := Prod.mk.inj (hread.symm.trans hread')
  exact ⟨Except.ok.inj hframe, hleft.symm.trans hleft'⟩

end CertaelAgent.Ipc
