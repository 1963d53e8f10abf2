import Tenet.Receive

/-! The reader loops of a TCP connection (`node/tcp_io.go`) and of a KCP session
(`node/kcp_transport.go`). -/

namespace Tenet

open Lib ByteStream

inductive ReaderStatus where
  | waiting
  | returned
  deriving DecidableEq, Repr

section

variable {S : Type}

/-- The two readers share their loop, up to what they do on a timeout in front of a header and
on an empty frame. -/
def readLoop (afterTimeout afterEmpty : ReaderStatus) (handlePacket : S → UInt8 → Bytes → S)
    (s : S) (events : List ReadEvent) : S × ReaderStatus :=
  match _read : readFrame events with
  | (.header .blocked, _) => (s, .waiting)
  | (.header .timeout, left) =>
      match afterTimeout with
      | .waiting => readLoop afterTimeout afterEmpty handlePacket s left
      | .returned => (s, .returned)
  | (.header .closed, _) | (.header .full, _) => (s, .returned)
  | (.body .blocked, _) => (s, .waiting)
  | (.body _, _) => (s, .returned)
  | (.frame packet, left) =>
      if packet.length = 0 then
        match afterEmpty with
        | .waiting => readLoop afterTimeout afterEmpty handlePacket s left
        | .returned => (s, .returned)
      else if isTent packet then
        readLoop afterTimeout afterEmpty handlePacket
          (handlePacket s (packet.getD 4 0) (packet.drop 5)) left
      else readLoop afterTimeout afterEmpty handlePacket s left
termination_by weight events
decreasing_by
  all_goals exact readFrame_weight events _ _ _read (by simp)

def handleTCP (handlePacket : S → UInt8 → Bytes → S) (s : S) (events : List ReadEvent) :
    S × ReaderStatus :=
  readLoop .returned .returned handlePacket s events

/-- Whether the error of a KCP read that ran out of time is a `net.Error`. kcp-go returns its
`errTimeout` through `errors.WithStack`, and the wrapper has no method `Timeout`. -/
def kcpTimeoutIsNetError : Bool := false

/-- Only a timeout that is a `net.Error` lets the session go on. -/
def handleSession (handlePacket : S → UInt8 → Bytes → S) (s : S) (events : List ReadEvent) :
    S × ReaderStatus :=
  readLoop (if kcpTimeoutIsNetError then .waiting else .returned) .waiting handlePacket s events

variable (afterTimeout afterEmpty : ReaderStatus) (handlePacket : S → UInt8 → Bytes → S)

def dispatch (handlePacket : S → UInt8 → Bytes → S) (s : S) (packet : Bytes) : S :=
  if isTent packet then handlePacket s (packet.getD 4 0) (packet.drop 5) else s

theorem dispatch_tentPacket (handlePacket : S → UInt8 → Bytes → S) (s : S) (packetType : UInt8)
    (body : Bytes) :
    dispatch handlePacket s (tentPacket packetType body) = handlePacket s packetType body := by
  rw [dispatch, if_pos (isTent_tentPacket packetType body)]
  rfl

def tentPackets (packets : List Bytes) : List (UInt8 × Bytes) :=
  (packets.filter isTent).map fun packet => (packet.getD 4 0, packet.drop 5)

theorem foldl_dispatch (handlePacket : S → UInt8 → Bytes → S) (s : S) (packets : List Bytes) :
    packets.foldl (dispatch handlePacket) s =
      (tentPackets packets).foldl (fun s packet => handlePacket s packet.1 packet.2) s := by
  induction packets generalizing s with
  | nil => rfl
  | cons packet packets ih =>
      rw [List.foldl_cons, ih, dispatch, tentPackets, tentPackets, List.filter_cons]
      split
      · rfl
      · rfl

theorem readLoop_frame (s : S) (events left : List ReadEvent) (packet : Bytes)
    (read : readFrame events = (.frame packet, left))
    (goes_on : packet.length ≠ 0 ∨ afterEmpty = .waiting) :
    readLoop afterTimeout afterEmpty handlePacket s events =
      readLoop afterTimeout afterEmpty handlePacket (dispatch handlePacket s packet) left := by
  rw [readLoop]
  split <;> rename_i seen <;> rw [read] at seen <;> cases seen
  split
  · next empty =>
      cases goes_on.resolve_left (not_not.mpr empty)
      rw [List.length_eq_zero_iff.mp empty]
      rfl
  · rw [dispatch]
    split <;> rfl

theorem readLoop_blocked (s : S) (events : List ReadEvent)
    (blocked : (readFrame events).1 = .header .blocked) :
    readLoop afterTimeout afterEmpty handlePacket s events = (s, .waiting) := by
  rw [readLoop]
  split <;> rename_i seen <;> rw [seen] at blocked <;> cases blocked

theorem readLoop_arrived (packets : List Bytes) (rest : Bytes) (s : S) (events : List ReadEvent)
    (carries : arrived events = packets.flatMap prefixed ++ rest)
    (short : ∀ packet ∈ packets, packet.length < 65536)
    (goes_on : ∀ packet ∈ packets, packet.length ≠ 0 ∨ afterEmpty = .waiting) :
    ∃ left, readLoop afterTimeout afterEmpty handlePacket s events =
        readLoop afterTimeout afterEmpty handlePacket (packets.foldl (dispatch handlePacket) s) left ∧
      arrived left = rest ∧ interruption left = interruption events := by
  induction packets generalizing s events with
  | nil => exact ⟨events, rfl, carries, rfl⟩
  | cons packet packets ih =>
      rw [List.flatMap_cons, List.append_assoc] at carries
      rcases readFrame_arrived events packet _ carries (short packet List.mem_cons_self) with
        ⟨left, read, leftBytes, leftSame⟩
      rw [readLoop_frame _ _ _ s events left packet read (goes_on packet List.mem_cons_self),
        List.foldl_cons, ← leftSame]
      apply ih _ left leftBytes
      · intro other member
        exact short other (List.mem_cons_of_mem packet member)
      · intro other member
        exact goes_on other (List.mem_cons_of_mem packet member)

/-- However a stream of well-formed packets is cut, the reader hands on exactly these packets,
in order, and then waits for more. -/
theorem readLoop_packets (packets : List (UInt8 × Bytes)) (s : S) (events : List ReadEvent)
    (live : Live events) (short : ∀ packet ∈ packets, packet.2.length + 5 < 65536)
    (carries : bytesOf events =
      packets.flatMap fun packet => prefixed (tentPacket packet.1 packet.2)) :
    readLoop afterTimeout afterEmpty handlePacket s events =
      (packets.foldl (fun s packet => handlePacket s packet.1 packet.2) s, .waiting) := by
  have framed : arrived events =
      (packets.map fun packet => tentPacket packet.1 packet.2).flatMap prefixed ++ [] := by
    rw [arrived_live events live, carries, List.flatMap_map, List.append_nil]
  have sized (packet : Bytes)
      (member : packet ∈ packets.map fun packet => tentPacket packet.1 packet.2) :
      packet.length < 65536 ∧ packet.length ≠ 0 := by
    rcases List.mem_map.mp member with ⟨sent, found, rfl⟩
    have := short sent found
    rw [tentPacket_length]
    omega
  rcases readLoop_arrived afterTimeout afterEmpty handlePacket _ [] s events framed
    (fun packet member => (sized packet member).1)
    (fun packet member => Or.inl (sized packet member).2) with ⟨left, read, drained, same⟩
  have leftLive : Live left := (live_iff left).mpr (same.trans ((live_iff events).mp live))
  rw [arrived_live left leftLive] at drained
  rw [read, readLoop_blocked _ _ _ _ left (readFrame_drained left leftLive drained), List.foldl_map]
  simp only [dispatch_tentPacket]

/-- A reader that a timeout ends is ended by any interrupted read, wherever it was. -/
def stopped (status : Status) : ReaderStatus := if status = .blocked then .waiting else .returned

theorem readLoop_header (s : S) (events left : List ReadEvent) (status : Status)
    (read : readFrame events = (.header status, left)) :
    readLoop .returned afterEmpty handlePacket s events = (s, stopped status) := by
  rw [readLoop]
  split <;> rename_i seen <;> rw [read] at seen <;> cases seen <;> rfl

theorem readLoop_body (s : S) (events left : List ReadEvent) (status : Status)
    (read : readFrame events = (.body status, left)) :
    readLoop .returned afterEmpty handlePacket s events = (s, stopped status) := by
  rw [readLoop]
  split <;> rename_i seen <;> rw [read] at seen <;> cases seen
  · rfl
  · next other =>
      rw [stopped, if_neg]
      rintro rfl
      exact other rfl

theorem readLoop_incomplete (s : S) (events : List ReadEvent) (ends : Incomplete (arrived events)) :
    readLoop .returned afterEmpty handlePacket s events = (s, stopped (interruption events).1) := by
  have unfilled := interruption_unfilled events
  by_cases two : (arrived events).length < 2
  · exact readLoop_header afterEmpty handlePacket s events _ _ (readFrame_header events two unfilled)
  · have short := ends.resolve_left two
    exact readLoop_body afterEmpty handlePacket s events _ _
      (readFrame_body events (Nat.le_of_not_lt two) short unfilled)

def handlePackets (s : S) (packets : List (UInt8 × Bytes)) : S :=
  packets.foldl (fun s packet => handlePacket s packet.1 packet.2) s

theorem readLoop_framed (packets : List Bytes) (rest : Bytes) (s : S) (events : List ReadEvent)
    (carries : arrived events = packets.flatMap prefixed ++ rest)
    (short : ∀ packet ∈ packets, packet.length < 65536)
    (goes_on : ∀ packet ∈ packets, packet.length ≠ 0 ∨ afterEmpty = .waiting)
    (ends : Incomplete rest) :
    readLoop .returned afterEmpty handlePacket s events =
      (handlePackets handlePacket s (tentPackets packets), stopped (interruption events).1) := by
  rcases readLoop_arrived .returned afterEmpty handlePacket packets rest s events carries short goes_on
    with ⟨left, read, leftBytes, same⟩
  rw [← leftBytes] at ends
  rw [read, readLoop_incomplete afterEmpty handlePacket _ left ends, foldl_dispatch, same]
  rfl

end

def Stream.reader {S : Type} (stream : Stream) (handlePacket : S → UInt8 → Bytes → S) (s : S)
    (events : List ReadEvent) : S × ReaderStatus :=
  match stream with
  | .tcp _ => handleTCP handlePacket s events
  | .kcp _ => handleSession handlePacket s events

theorem Stream.reader_packets {S : Type} (stream : Stream) (handlePacket : S → UInt8 → Bytes → S)
    (packets : List (UInt8 × Bytes)) (s : S) (events : List ReadEvent) (live : Live events)
    (short : ∀ packet ∈ packets, packet.2.length + 5 < 65536)
    (carries : bytesOf events =
      packets.flatMap fun packet => prefixed (tentPacket packet.1 packet.2)) :
    stream.reader handlePacket s events =
      (packets.foldl (fun s packet => handlePacket s packet.1 packet.2) s, .waiting) := by
  cases stream with
  | tcp conn => exact readLoop_packets _ _ handlePacket packets s events live short carries
  | kcp handler => exact readLoop_packets _ _ handlePacket packets s events live short carries

end Tenet
