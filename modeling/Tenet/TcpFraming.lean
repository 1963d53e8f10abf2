import Tenet.Readers
import Tenet.Lib.Slice
import Mathlib.Data.List.TakeWhile

/-! Frames on a TCP connection: `handleTCP` of `node/tcp_io.go` with the buffers it reads into. -/

namespace Tenet

open Lib ByteStream Slice

section Buffers

/-- How one round of the loop ends: the reader stops, skips the frame or hands on a packet. -/
inductive TcpRound where
  | stop (status : ReaderStatus)
  | skip (frameBuf : Bytes) (left : List ReadEvent)
  | packet (packetType : UInt8) (payload frameBuf : Bytes) (left : List ReadEvent)
  deriving DecidableEq, Repr

def copyInto (dst src : Bytes) : Bytes := src.take dst.length ++ dst.drop src.length

/-- What becomes of a frame in its buffer; `none` is an access out of range. -/
def tcpPacket (frameBuf buf : Bytes) (length : Nat) (left : List ReadEvent) : Option TcpRound :=
  if length < 5 then some (.skip frameBuf left)
  else do
    let magic ← slice buf 0 4
    if magic ≠ magicBytes then some (.skip frameBuf left)
    else do
      let packetType ← index buf 4
      let body ← slice buf 5 buf.length
      let payload := copyInto (List.replicate (length - 5) 0) body
      some (.packet packetType payload frameBuf left)

/-- The buffer of the body: the pooled one, or one of its own if that is too short. -/
def bodyBuffer (frameBuf : Bytes) (length : Nat) : Option Bytes :=
  if length ≤ frameBuf.length then slice frameBuf 0 length else some (List.replicate length 0)

def tcpBody (frameBuf : Bytes) (length : Nat) (left : List ReadEvent) : Option TcpRound := do
  let buf ← bodyBuffer frameBuf length
  match readFull buf.length left with
  | (_, .blocked, _) => some (.stop .waiting)
  | (_, .timeout, _) | (_, .closed, _) => some (.stop .returned)
  | (read, .full, left) =>
      -- a pooled frame leaves its bytes in the pool
      let pooled := if length ≤ frameBuf.length then copyInto frameBuf read else frameBuf
      tcpPacket pooled (copyInto buf read) length left

def tcpRound (frameBuf : Bytes) (events : List ReadEvent) : Option TcpRound :=
  match readFull 2 events with
  | (_, .blocked, _) => some (.stop .waiting)
  | (_, .timeout, _) | (_, .closed, _) => some (.stop .returned)
  | (header, .full, left) => do
      let high ← index header 0
      let low ← index header 1
      let length := high.toNat * 256 + low.toNat
      if length = 0 then some (.stop .returned) else tcpBody frameBuf length left

theorem copyInto_whole (dst src : Bytes) (same : src.length = dst.length) : copyInto dst src = src := by
  rw [copyInto, ← same, List.take_length, List.drop_eq_nil_of_le (by omega), List.append_nil]

theorem tcpPacket_eq (frameBuf buf : Bytes) (left : List ReadEvent) :
    tcpPacket frameBuf buf buf.length left =
      some (if isTent buf then .packet (buf.getD 4 0) (buf.drop 5) frameBuf left
        else .skip frameBuf left) := by
  by_cases short : buf.length < 5
  · have foreign : isTent buf = false := by simp [isTent, short]
    rw [tcpPacket, if_pos short, foreign]
    rfl
  · have magic : slice buf 0 4 = some (buf.take 4) := slice_inside buf 0 4 (by omega)
    have type : index buf 4 = some (buf.getD 4 0) := index_inside buf 4 0 (by omega)
    have body : slice buf 5 buf.length = some (buf.drop 5) := slice_rest buf 5 (by omega)
    have copied : copyInto (List.replicate (buf.length - 5) 0) (buf.drop 5) = buf.drop 5 := by
      apply copyInto_whole
      rw [List.length_drop, List.length_replicate]
    have tent : isTent buf = (buf.take 4 == magicBytes) := by
      rw [isTent, decide_eq_true (Nat.le_of_not_lt short), Bool.true_and]
    simp only [tcpPacket, if_neg short, magic, type, body, copied, tent, Option.bind_eq_bind,
      Option.bind_some, beq_iff_eq]
    split
    · rfl
    · next same => simp only [if_pos (not_not.mp same)]

def refill (frameBuf packet : Bytes) : Bytes :=
  if packet.length ≤ frameBuf.length then copyInto frameBuf packet else frameBuf

theorem bodyBuffer_length (frameBuf : Bytes) (length : Nat) :
    ∃ buf, bodyBuffer frameBuf length = some buf ∧ buf.length = length := by
  unfold bodyBuffer
  split
  · next fits =>
      have inside := slice_inside frameBuf 0 length (by omega)
      rw [Nat.zero_add, List.drop_zero] at inside
      exact ⟨_, inside, List.length_take_of_le fits⟩
  · exact ⟨_, rfl, List.length_replicate⟩

theorem tcpBody_eq (frameBuf : Bytes) (length : Nat) (left : List ReadEvent) :
    tcpBody frameBuf length left = match readFull length left with
      | (_, .blocked, _) => some (.stop .waiting)
      | (_, .timeout, _) | (_, .closed, _) => some (.stop .returned)
      | (read, .full, left) => tcpPacket (refill frameBuf read) read read.length left := by
  rcases bodyBuffer_length frameBuf length with ⟨buf, taken, whole⟩
  have filled := readFull_length length left
  simp only [tcpBody, taken, Option.bind_eq_bind, Option.bind_some, whole]
  split
  · rfl
  · rfl
  · rfl
  · next read behind full =>
      rw [full] at filled
      have same : read.length = length := filled rfl
      rw [copyInto_whole buf read (same.trans whole.symm), refill, same]

theorem tcpRound_eq (frameBuf : Bytes) (events : List ReadEvent) :
    tcpRound frameBuf events = some (match readFrame events with
      | (.header .blocked, _) | (.body .blocked, _) => .stop .waiting
      | (.header _, _) | (.body _, _) => .stop .returned
      | (.frame packet, left) =>
          if packet.length = 0 then .stop .returned
          else if isTent packet then
            .packet (packet.getD 4 0) (packet.drop 5) (refill frameBuf packet) left
          else .skip (refill frameBuf packet) left) := by
  have two := readFull_length 2 events
  rcases readHeader : readFull 2 events with ⟨header, status, left⟩
  rw [readHeader] at two
  simp only [tcpRound, readFrame, readHeader]
  cases status with
  | blocked => rfl
  | timeout => rfl
  | closed => rfl
  | full =>
      have length : header.length = 2 := two rfl
      have high : index header 0 = some (header.getD 0 0) := index_inside header 0 0 (by omega)
      have low : index header 1 = some (header.getD 1 0) := index_inside header 1 0 (by omega)
      have size : (header.getD 0 0).toNat * 256 + (header.getD 1 0).toNat = lengthOf header := rfl
      have filled := readFull_length (lengthOf header) left
      simp only [high, low, Option.bind_eq_bind, Option.bind_some, size, tcpBody_eq, if_true]
      rcases readBody : readFull (lengthOf header) left with ⟨packet, ending, behind⟩
      rw [readBody] at filled
      by_cases empty : lengthOf header = 0
      · rw [empty, readFull] at readBody
        cases readBody
        simp only [if_pos empty, if_true]
        rfl
      · rw [if_neg empty]
        cases ending with
        | blocked => rfl
        | timeout => rfl
        | closed => rfl
        | full =>
            have nonempty : ¬packet.length = 0 := by
              rw [filled rfl]
              exact empty
            simp only [tcpPacket_eq, if_true, if_neg nonempty]

def TcpRound.left : TcpRound → Option (List ReadEvent)
  | .stop _ => none
  | .skip _ left => some left
  | .packet _ _ _ left => some left

theorem tcpRound_weight (frameBuf : Bytes) (events left : List ReadEvent) (round : TcpRound)
    (done : tcpRound frameBuf events = some round) (goes_on : round.left = some left) :
    weight left < weight events := by
  rw [tcpRound_eq] at done
  have progress := readFrame_weight events
  rcases read : readFrame events with ⟨outcome, behind⟩
  rw [read] at done
  cases outcome with
  | header status => cases status <;> cases done <;> cases goes_on
  | body status => cases status <;> cases done <;> cases goes_on
  | frame packet =>
      have shorter := progress behind (.frame packet) read (by simp)
      simp only [Option.some.injEq] at done
      split at done
      · cases done
        cases goes_on
      · split at done
        · cases done
          cases goes_on
          exact shorter
        · cases done
          cases goes_on
          exact shorter

variable {S : Type}

/-- The loop on its buffers; `none` is an access out of range. -/
def handleTCPBuffers (handlePacket : S → UInt8 → Bytes → S) (frameBuf : Bytes) (s : S)
    (events : List ReadEvent) : Option (S × ReaderStatus) :=
  match _round : tcpRound frameBuf events with
  | none => none
  | some (.stop status) => some (s, status)
  | some (.skip frameBuf left) => handleTCPBuffers handlePacket frameBuf s left
  | some (.packet packetType payload frameBuf left) =>
      handleTCPBuffers handlePacket frameBuf (handlePacket s packetType payload) left
termination_by weight events
decreasing_by
  all_goals exact tcpRound_weight _ events left _ _round rfl

variable (handlePacket : S → UInt8 → Bytes → S)

theorem handleTCPBuffers_stop (frameBuf : Bytes) (s : S) (events : List ReadEvent)
    (status : ReaderStatus) (stopped : tcpRound frameBuf events = some (.stop status)) :
    handleTCPBuffers handlePacket frameBuf s events = some (s, status) := by
  rw [handleTCPBuffers]
  split <;> rename_i seen <;> rw [stopped] at seen <;> cases seen
  rfl

theorem handleTCPBuffers_frame (frameBuf : Bytes) (s : S) (events left : List ReadEvent)
    (packet : Bytes) (read : readFrame events = (.frame packet, left)) (nonempty : packet.length ≠ 0) :
    handleTCPBuffers handlePacket frameBuf s events =
      handleTCPBuffers handlePacket (refill frameBuf packet) (dispatch handlePacket s packet) left := by
  have round := tcpRound_eq frameBuf events
  simp only [read, if_neg nonempty] at round
  rw [dispatch]
  split at round
  · next tent =>
      rw [handleTCPBuffers, if_pos tent]
      split <;> rename_i seen <;> rw [round] at seen <;> cases seen
      rfl
  · next foreign =>
      rw [handleTCPBuffers, if_neg foreign]
      split <;> rename_i seen <;> rw [round] at seen <;> cases seen
      rfl

theorem handleTCP_empty (s : S) (events left : List ReadEvent)
    (read : readFrame events = (.frame [], left)) :
    handleTCP handlePacket s events = (s, .returned) := by
  rw [handleTCP, readLoop]
  split <;> rename_i seen <;> rw [read] at seen <;> cases seen
  rfl

/-- On its buffers the reader never goes out of range, and does what `handleTCP` does. -/
theorem handleTCPBuffers_eq (frameBuf : Bytes) (s : S) (events : List ReadEvent) :
    handleTCPBuffers handlePacket frameBuf s events = some (handleTCP handlePacket s events) := by
  induction size : weight events using Nat.strongRecOn generalizing frameBuf s events with
  | ind size ih =>
      have round := tcpRound_eq frameBuf events
      rcases read : readFrame events with ⟨outcome, left⟩
      rw [read] at round
      cases outcome with
      | header status =>
          rw [handleTCP, readLoop_header _ handlePacket s events left status read]
          apply handleTCPBuffers_stop
          cases status <;> exact round
      | body status =>
          rw [handleTCP, readLoop_body _ handlePacket s events left status read]
          apply handleTCPBuffers_stop
          cases status <;> exact round
      | frame packet =>
          cases packet with
          | nil =>
              rw [handleTCP_empty handlePacket s events left read]
              exact handleTCPBuffers_stop handlePacket frameBuf s events _ round
          | cons first rest =>
              have shorter := readFrame_weight events left _ read (by simp)
              rw [handleTCPBuffers_frame handlePacket frameBuf s events left _ read (by simp),
                ih _ (size ▸ shorter) _ _ left rfl]
              exact congrArg some (readLoop_frame _ _ _ s events left _ read (Or.inl (by simp))).symm

end Buffers

section Frames

variable {S : Type} (handlePacket : S → UInt8 → Bytes → S)

theorem handleTCP_framed (packets : List Bytes) (rest : Bytes) (s : S) (events : List ReadEvent)
    (carries : arrived events = packets.flatMap prefixed ++ rest)
    (sized : ∀ packet ∈ packets, packet.length < 65536 ∧ packet.length ≠ 0) (ends : Incomplete rest) :
    handleTCP handlePacket s events =
      (handlePackets handlePacket s (tentPackets packets), stopped (interruption events).1) :=
  readLoop_framed .returned handlePacket packets rest s events carries
    (fun packet member => (sized packet member).1)
    (fun packet member => Or.inl (sized packet member).2) ends

theorem handleTCP_framed_empty (packets : List Bytes) (more : Bytes) (s : S) (events : List ReadEvent)
    (carries : arrived events = packets.flatMap prefixed ++ (prefixed [] ++ more))
    (sized : ∀ packet ∈ packets, packet.length < 65536 ∧ packet.length ≠ 0) :
    handleTCP handlePacket s events =
      (handlePackets handlePacket s (tentPackets packets), .returned) := by
  rcases readLoop_arrived .returned .returned handlePacket packets _ s events carries
    (fun packet member => (sized packet member).1)
    (fun packet member => Or.inl (sized packet member).2) with ⟨left, read, leftBytes, _⟩
  rcases readFrame_arrived left [] more leftBytes (by simp) with ⟨behind, empty, _⟩
  rw [handleTCP, read, ← handleTCP, handleTCP_empty handlePacket _ left behind empty, foldl_dispatch]
  rfl

theorem filled_frames (frames : List Bytes) (full : [] ∉ frames) :
    ∀ frame ∈ frames, frame.length ≠ 0 ∧ (!frame.isEmpty) = true := by
  intro frame member
  cases frame with
  | nil => exact absurd member full
  | cons first rest => exact ⟨by simp, rfl⟩

/-- Any bytes are read frame by frame: each frame is consumed whole before the next header, up to an
empty frame or to the beginning of a frame that does not arrive. -/
theorem handleTCP_any (s : S) (events : List ReadEvent) :
    ∃ (frames : List Bytes) (rest : Bytes),
      arrived events = frames.flatMap encodeTCPFrame ++ rest ∧ Incomplete rest ∧
      handleTCP handlePacket s events =
        (handlePackets handlePacket s (tentPackets (frames.takeWhile fun frame => !frame.isEmpty)),
          if [] ∈ frames then .returned else stopped (interruption events).1) := by
  rcases bytes_framed (arrived events) with ⟨frames, rest, carries, short, ends⟩
  refine ⟨frames, rest, carries, ends, ?_⟩
  by_cases empty : [] ∈ frames
  · rcases List.eq_append_cons_of_mem empty with ⟨front, back, rfl, full⟩
    have filled := filled_frames front full
    have until_empty : (front ++ [] :: back).takeWhile (fun frame => !frame.isEmpty) = front := by
      rw [List.takeWhile_append_of_pos fun frame member => (filled frame member).2]
      simp
    rw [List.flatMap_append, List.flatMap_cons, List.append_assoc, List.append_assoc] at carries
    rw [until_empty, if_pos empty]
    apply handleTCP_framed_empty handlePacket front _ s events carries
    intro frame member
    exact ⟨short frame (List.mem_append_left _ member), (filled frame member).1⟩
  · have filled := filled_frames frames empty
    have all_filled : frames.takeWhile (fun frame => !frame.isEmpty) = frames :=
      List.takeWhile_eq_self_iff.mpr fun frame member => (filled frame member).2
    rw [all_filled, if_neg empty]
    apply handleTCP_framed handlePacket frames rest s events carries _ ends
    intro frame member
    exact ⟨short frame member, (filled frame member).1⟩

/-- Packets of 1 to 65535 bytes come out of the connection as they went in, however the stream is cut;
what arrives of the stream before it is cut off or interrupted gives a first part of them; and no
bytes whatsoever lead the reader out of its buffers or out of step. -/
theorem tcp_stream_framing (packets : List Bytes)
    (sized : ∀ packet ∈ packets, 1 ≤ packet.length ∧ packet.length ≤ 65535) (frameBuf : Bytes) (s : S) :
    (∀ pieces : List Bytes, pieces.flatten = packets.flatMap encodeTCPFrame →
      handleTCPBuffers handlePacket frameBuf s (pieces.map .data) =
        some (handlePackets handlePacket s (tentPackets packets), .waiting)) ∧
    (∀ events, arrived events <+: packets.flatMap encodeTCPFrame →
      ∃ dispatched, dispatched <+: tentPackets packets ∧
        handleTCPBuffers handlePacket frameBuf s events =
          some (handlePackets handlePacket s dispatched, stopped (interruption events).1)) ∧
    ∀ events, ∃ (frames : List Bytes) (rest : Bytes),
      arrived events = frames.flatMap encodeTCPFrame ++ rest ∧ Incomplete rest ∧
      handleTCPBuffers handlePacket frameBuf s events =
        some (handlePackets handlePacket s (tentPackets (frames.takeWhile fun frame => !frame.isEmpty)),
          if [] ∈ frames then .returned else stopped (interruption events).1) := by
  have bounded : ∀ packet ∈ packets, packet.length < 65536 ∧ packet.length ≠ 0 := by
    intro packet member
    have := sized packet member
    omega
  simp only [handleTCPBuffers_eq, Option.some.injEq]
  refine ⟨?_, ?_, handleTCP_any handlePacket s⟩
  · intro pieces carried
    have live := live_cut pieces
    have framed : arrived (pieces.map .data) = packets.flatMap prefixed ++ [] := by
      rw [arrived_live _ live, bytesOf_cut, carried, List.append_nil]
      rfl
    rw [handleTCP_framed handlePacket packets [] s _ framed bounded (Or.inl (by simp)),
      (live_iff _).mp live]
    rfl
  · intro events initial
    rcases framed_initial packets (arrived events) (fun packet member => (bounded packet member).1)
      initial with ⟨count, rest, carries, ends⟩
    refine ⟨tentPackets (packets.take count), ?_, ?_⟩
    · exact ((List.take_prefix count packets).filter isTent).map _
    · apply handleTCP_framed handlePacket _ rest s events carries _ ends
      intro packet member
      exact bounded packet (List.mem_of_mem_take member)

/-- A data packet and a foreign one, cut in the middle of both lengths. -/
theorem tcp_stream_framing_cut :
    handleTCPBuffers (fun log packetType payload => log ++ [(packetType, payload)]) [0, 0, 0, 0] []
        ([[0], [7, 84, 69, 78], [84, 3, 1, 2, 0], [1, 9]].map .data) =
      some ([((3 : UInt8), ([1, 2] : Bytes))], .waiting) :=
  (tcp_stream_framing _ [[84, 69, 78, 84, 3, 1, 2], [9]] (by decide) _ _).1 _ rfl

end Frames

end Tenet
