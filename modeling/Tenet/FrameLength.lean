import Tenet.Discovery
import Tenet.Send

/-! The packets that a node writes to a byte stream, by length.

TCP connections and KCP sessions carry packets behind a 16-bit length, to which the length of the
packet is cut. The Noise library is a parameter: what matters here is how long its messages are. -/

namespace Tenet

open Lib ByteStream

/-- What the messages of the XX pattern add to their payload: a key, then a key, an encrypted key
and a tag, then an encrypted key and a tag. -/
def noiseOverhead : Nat → Nat
  | 0 => 32
  | 1 => 32 + 48 + 16
  | _ => 48 + 16

/-- `noise.HandshakeState` of flynn/noise for the pattern XX. -/
structure NoiseXX where
  State : Type
  /-- how many messages were read or written -/
  messageIndex : State → Nat
  readMessage : State → Bytes → Option (Bytes × State)
  writeMessage : State → Bytes → Option (Bytes × State)
  /-- whether the next message can be made: a Diffie-Hellman with a low-order key fails -/
  takesKeys : State → Bool
  read_message : ∀ state message payload next, readMessage state message = some (payload, next) →
    messageIndex next = messageIndex state + 1 ∧
      message.length = payload.length + noiseOverhead (messageIndex state)
  write_message : ∀ state payload message next, writeMessage state payload = some (message, next) →
    messageIndex next = messageIndex state + 1 ∧
      message.length = payload.length + noiseOverhead (messageIndex state)
  /-- of the message, only the payload is limited -/
  write_limit : ∀ state payload, messageIndex state < 3 →
    ((writeMessage state payload).isSome = true ↔
      takesKeys state = true ∧ payload.length ≤ 65535)

/-- A concrete library to run the model with: nothing is encrypted, and the keys and tags it writes are
zeros. Like X25519 it does not take the zero key for the other side's. -/
def NoiseXX.plain : NoiseXX where
  State := Nat × Bool
  messageIndex := Prod.fst
  readMessage state message :=
    if noiseOverhead state.1 ≤ message.length then
      some (message.drop (noiseOverhead state.1),
        (state.1 + 1, (message.take 32).any fun byte => decide (byte ≠ 0)))
    else none
  writeMessage state payload :=
    if state.2 = true ∧ payload.length ≤ 65535 then
      some (List.replicate (noiseOverhead state.1) 0 ++ payload, (state.1 + 1, state.2))
    else none
  takesKeys := Prod.snd
  read_message state message payload next read := by
    split at read
    · next long =>
        cases read
        exact ⟨rfl, by rw [List.length_drop]; exact (Nat.sub_add_cancel long).symm⟩
    · cases read
  write_message state payload message next written := by
    split at written
    · cases written
      refine ⟨rfl, ?_⟩
      rw [List.length_append, List.length_replicate, Nat.add_comm]
    · cases written
  write_limit state payload _ := by
    split
    · next allowed => exact iff_of_true rfl allowed
    · next refused => exact iff_of_false Bool.false_ne_true refused

def NoiseXX.Fresh (noise : NoiseXX) : Type := { state : noise.State // noise.messageIndex state = 0 }

structure WireHandshake (noise : NoiseXX) where
  hs : noise.State
  completed : Bool

/-- `ProcessMessage` on bytes: the answer carries the payload that came with the message. -/
def WireHandshake.processMessage {noise : NoiseXX} (h : WireHandshake noise) (msg : Bytes) :
    Option (WireHandshake noise × Option Bytes) :=
  if h.completed then none
  else
    (noise.readMessage h.hs msg).bind fun (payload, hs) =>
      -- the ciphers come with the third message
      if noise.messageIndex hs < 3 then
        (noise.writeMessage hs payload).map fun (response, hs) =>
          (⟨hs, decide (noise.messageIndex hs = 3)⟩, some response)
      else some (⟨hs, true⟩, none)

/-- The payload of a received packet: a frame has at most 65535 bytes, 5 of them in front of it, and
a datagram has fewer. -/
def Received : Type := { payload : Bytes // payload.length + 5 ≤ 65535 }

structure WireNode (noise : NoiseXX) where
  node : Node
  pending : GoMap (Transport × Bytes) (WireHandshake noise)

inductive WireCall (noise : NoiseXX) where
  | sendAppFrame (peerID : Bytes) (appFrameType : UInt8) (data : Bytes) (dial : Option UInt32)
      (accepts : Nat → Bool)
  | processHandshake (conn : Option ConnId) (remoteAddr : NetAddr) (transport : Transport)
      (payload : Received) (fresh : noise.Fresh)
  /-- message 1 of `awaitConnectResult` and `awaitLateTCPUpgrade` -/
  | firstMessage (conn : ConnId) (fresh : noise.Fresh)
  | sendFastRehandshake (p : Peer) (fresh : noise.Fresh)
  | sendHeartbeats (timestamp : Nat)
  | processHeartbeat (conn : Option ConnId) (remoteAddr : NetAddr) (transport : Transport)
      (now : Int) (timestamp : Nat)
  | sendDiscoveryRequest (p : Peer)
  | processDiscoveryRequest (conn : Option ConnId) (remoteAddr : NetAddr) (transport : Transport)
  | gracefulStop

def sendRaw (conn : Option ConnId) (addr : NetAddr) (transport : Transport) (packet : Bytes) :
    List Effect :=
  match transport, conn with
  | .tcp, some conn => [.write (.tcp conn) (encodeTCPFrame packet)]
  | _, _ => if addr.kind = .udp then [.writeToUDP addr.text packet] else []

def Effect.written : Effect → List Effect
  | .sendRaw conn addr transport (.raw packet) => Tenet.sendRaw conn addr transport packet
  | effect => [effect]

def buildGoodbyePacket : Bytes := tentPacket packetTypeHeartbeat [0xFF]

def Node.sendToPeers (n : Node) (packet : Bytes) : List Effect :=
  n.peers.ids.flatMap fun peerID =>
    (n.peers.get peerID).toList.flatMap fun p => sendRaw p.conn p.addr p.transport packet

namespace WireNode

variable {noise : NoiseXX} (w : WireNode noise)

def pendingHandshake (stateKey : Transport × Bytes) (fresh : noise.Fresh) : WireHandshake noise :=
  (w.pending.get stateKey).getD ⟨fresh.1, false⟩

def firstPacket (fresh : noise.Fresh) : Option Bytes :=
  (noise.writeMessage fresh.1 []).map fun (message, _) => buildHandshakePacket message

def sent (aead : Aead) : WireCall noise → List Effect
  | .sendAppFrame peerID appFrameType data dial accepts =>
      (w.node.sendAppFrame aead peerID appFrameType data dial accepts).2.1
  | .processHandshake conn remoteAddr transport payload fresh =>
      match (w.pendingHandshake (transport, remoteAddr.text) fresh).processMessage payload.1 with
      | some (_, some response) => sendRaw conn remoteAddr transport (buildHandshakePacket response)
      | _ => []
  | .firstMessage conn fresh =>
      (firstPacket fresh).toList.map fun packet => .write (.tcp conn) (encodeTCPFrame packet)
  | .sendFastRehandshake p fresh =>
      (firstPacket fresh).toList.flatMap (sendRaw p.conn p.addr p.transport)
  | .sendHeartbeats timestamp => w.node.sendToPeers (buildHeartbeatPacket timestamp)
  | .processHeartbeat conn remoteAddr transport now timestamp =>
      (w.node.processHeartbeat conn remoteAddr transport now timestamp).2.flatMap Effect.written
  | .sendDiscoveryRequest p => (Node.sendDiscoveryRequest p).flatMap Effect.written
  | .processDiscoveryRequest conn remoteAddr transport =>
      (w.node.processDiscoveryRequest conn remoteAddr transport).flatMap Effect.written
  | .gracefulStop => w.node.sendToPeers buildGoodbyePacket

end WireNode

/-- The length in front is that of a packet which is neither empty nor too long, and the reader of
the stream finds this packet and after it what follows. -/
def InStep (frame : Bytes) : Prop :=
  ∃ packet, frame = prefixed packet ∧ 1 ≤ packet.length ∧ packet.length ≤ 65535 ∧
    lengthOf (frame.take 2) = packet.length ∧
    ∀ events more, Live events → bytesOf events = frame ++ more →
      ∃ left, readFrame events = (.frame packet, left) ∧ Live left ∧ bytesOf left = more

theorem inStep_prefixed (packet : Bytes) :
    InStep (prefixed packet) ↔ 1 ≤ packet.length ∧ packet.length ≤ 65535 := by
  constructor
  · rintro ⟨other, same, nonempty, short, -⟩
    have same : packet = other := (List.cons.inj (List.cons.inj same).2).2
    rw [same]
    exact ⟨nonempty, short⟩
  · rintro ⟨nonempty, short⟩
    have below : packet.length < 65536 := by omega
    refine ⟨packet, rfl, nonempty, short, ?_, fun events more live carries =>
      readFrame_prefixed events packet more live carries below⟩
    have length := lengthOf_prefixed packet [] below
    rwa [List.append_nil] at length

def FramesInStep (effects : List Effect) : Prop :=
  ∀ stream frame, Effect.write stream frame ∈ effects → InStep frame

theorem framesInStep_nil : FramesInStep [] := by
  intro stream frame member
  cases member

theorem framesInStep_flatMap {α : Type} (items : List α) (effects : α → List Effect)
    (each : ∀ item ∈ items, FramesInStep (effects item)) : FramesInStep (items.flatMap effects) := by
  intro stream frame member
  obtain ⟨item, listed, written⟩ := List.mem_flatMap.mp member
  exact each item listed stream frame written

theorem framesInStep_sendRaw (conn : Option ConnId) (addr : NetAddr) (transport : Transport)
    (packetType : UInt8) (body : Bytes) :
    FramesInStep (sendRaw conn addr transport (tentPacket packetType body)) ↔
      (transport = .tcp → conn.isSome = true → body.length + 5 ≤ 65535) := by
  have datagram : FramesInStep
      (if addr.kind = .udp then [.writeToUDP addr.text (tentPacket packetType body)] else []) := by
    intro stream frame member
    split at member
    · cases List.mem_singleton.mp member
    · cases member
  cases transport with
  | tcp =>
      cases conn with
      | none => exact iff_of_true datagram (by simp)
      | some conn =>
          have fits := inStep_prefixed (tentPacket packetType body)
          rw [tentPacket_length] at fits
          constructor
          · intro all _ _
            exact (fits.mp (all (.tcp conn) _ List.mem_cons_self)).2
          · intro short stream frame member
            cases List.mem_singleton.mp member
            exact fits.mpr ⟨by omega, short rfl rfl⟩
  | udp => exact iff_of_true datagram (by simp)
  | kcp => exact iff_of_true datagram (by simp)

theorem framesInStep_short (conn : Option ConnId) (addr : NetAddr) (transport : Transport)
    (packetType : UInt8) (body : Bytes) (short : body.length ≤ 65530) :
    FramesInStep (sendRaw conn addr transport (tentPacket packetType body)) :=
  (framesInStep_sendRaw conn addr transport packetType body).mpr fun _ _ => by omega

theorem framesInStep_sendToPeers (n : Node) (packetType : UInt8) (body : Bytes)
    (short : body.length ≤ 65530) : FramesInStep (n.sendToPeers (tentPacket packetType body)) := by
  apply framesInStep_flatMap
  intro peerID _
  apply framesInStep_flatMap
  intro p _
  exact framesInStep_short p.conn p.addr p.transport packetType body short

section Data

variable (aead : IdealAead) (n : Node) (path : SendPath) (accepts : Nat → Bool)

theorem writePacket_framed (accepted : Bool) (packet : Bytes) (effect : Effect)
    (written : n.writePacket path accepted packet = .ok effect) :
    ∃ stream, effect = .write stream (prefixed packet) := by
  cases path with
  | tcp conn =>
      simp only [Node.writePacket] at written
      split at written
      · cases written
        exact ⟨_, rfl⟩
      · cases written
  | kcp peerID =>
      simp only [Node.writePacket] at written
      split at written
      · cases written
      · split at written
        · cases written
          exact ⟨_, rfl⟩
        · cases written

theorem sendFrame_inStep (s : Sending) (kind : UInt8) (fragment : Bytes)
    (short : fragment.length ≤ maxPayloadSize) (before : FramesInStep s.effects) :
    FramesInStep (sendFrame aead.toAead n path accepts s kind fragment).1.effects := by
  rcases encrypted : s.session.encrypt aead.toAead (kind :: fragment) with _ | ⟨ciphertext, session⟩
  · simp only [sendFrame, encrypted]
    exact before
  · obtain ⟨cipher, _, pair⟩ := Option.map_eq_some_iff.mp encrypted
    have length : ciphertext.length = fragment.length + 17 := by
      rw [← (Prod.mk.inj pair).1, aead.overhead, List.length_cons]
    cases written : n.writePacket path (accepts s.attempts) (buildDataPacket ciphertext) with
    | error err =>
        simp only [sendFrame, encrypted, written]
        exact before
    | ok effect =>
        simp only [sendFrame, encrypted, written]
        obtain ⟨stream, rfl⟩ := writePacket_framed n path _ _ effect written
        intro other frame member
        rcases List.mem_append.mp member with earlier | now
        · exact before other frame earlier
        · cases List.mem_singleton.mp now
          rw [inStep_prefixed, buildDataPacket, tentPacket_length, length]
          have size : maxPayloadSize = 61440 := rfl
          omega

theorem sendFrames_inStep (frames : List (Fragment.Frame UInt8)) (s : Sending)
    (short : ∀ frame ∈ frames, frame.body.length ≤ maxPayloadSize)
    (before : FramesInStep s.effects) :
    FramesInStep (sendFrames aead.toAead n path accepts frames s).1.effects := by
  induction frames generalizing s with
  | nil => exact before
  | cons frame frames ih =>
      have first := sendFrame_inStep aead n path accepts s (frameType frame.kind) frame.body
        (short frame List.mem_cons_self) before
      rcases result : sendFrame aead.toAead n path accepts s (frameType frame.kind) frame.body with
        ⟨after, _ | err⟩
      · rw [result] at first
        simp only [sendFrames, result]
        exact ih after (fun other member => short other (List.mem_cons_of_mem frame member)) first
      · rw [result] at first
        simp only [sendFrames, result]
        exact first

theorem sendAppFrame_inStep (peerID : Bytes) (appFrameType : UInt8) (data : Bytes)
    (dial : Option UInt32) :
    FramesInStep (n.sendAppFrame aead.toAead peerID appFrameType data dial accepts).2.1 := by
  unfold Node.sendAppFrame
  split
  · exact framesInStep_nil
  · split
    · exact framesInStep_nil
    · split
      · exact framesInStep_nil
      · split
        · exact framesInStep_nil
        · next session _ n path _ =>
            rw [sendPayload_eq_sendFrames]
            apply sendFrames_inStep aead n path accepts
            · exact Fragment.split_body_le maxPayloadSize (by decide) (appFrameType :: data)
            · exact framesInStep_nil

end Data

namespace WireNode

variable {noise : NoiseXX} (w : WireNode noise)

def AwaitsFirst (stateKey : Transport × Bytes) (fresh : noise.Fresh) : Prop :=
  (w.pendingHandshake stateKey fresh).completed = false ∧
    noise.messageIndex (w.pendingHandshake stateKey fresh).hs = 0

theorem processMessage_response (h after : WireHandshake noise) (msg response : Bytes)
    (answered : h.processMessage msg = some (after, some response)) :
    (noise.messageIndex h.hs = 0 ∧ response.length = msg.length + 64) ∨
      response.length ≤ msg.length := by
  unfold WireHandshake.processMessage at answered
  split at answered
  · cases answered
  · obtain ⟨⟨payload, hs⟩, read, answered⟩ := Option.bind_eq_some_iff.mp answered
    obtain ⟨next, length⟩ := noise.read_message _ _ _ _ read
    simp only at answered
    split at answered
    · next unfinished =>
        obtain ⟨⟨written, last⟩, wrote, result⟩ := Option.map_eq_some_iff.mp answered
        obtain ⟨-, longer⟩ := noise.write_message _ _ _ _ wrote
        have same : written = response := Option.some.inj (Prod.mk.inj result).2
        rw [next, same] at longer
        rw [next] at unfinished
        rcases index : noise.messageIndex h.hs with _ | _ | more
        · rw [index] at length longer
          simp only [noiseOverhead] at length longer
          exact Or.inl ⟨rfl, by omega⟩
        · rw [index] at length longer
          simp only [noiseOverhead] at length longer
          exact Or.inr (by omega)
        · omega
    · cases answered

theorem processMessage_takes {h after : WireHandshake noise} {msg response : Bytes}
    (answered : h.processMessage msg = some (after, some response)) :
    (noise.readMessage h.hs msg).any (fun read => noise.takesKeys read.2) = true := by
  unfold WireHandshake.processMessage at answered
  split at answered
  · cases answered
  · obtain ⟨⟨payload, hs⟩, read, answered⟩ := Option.bind_eq_some_iff.mp answered
    simp only at answered
    split at answered
    · next unfinished =>
        obtain ⟨written, wrote, -⟩ := Option.map_eq_some_iff.mp answered
        have taken := (noise.write_limit hs payload unfinished).mp
          (Option.isSome_iff_exists.mpr ⟨written, wrote⟩)
        rw [read]
        exact taken.1
    · cases answered

theorem processMessage_first (h : WireHandshake noise) (msg : Bytes) (running : h.completed = false)
    (first : noise.messageIndex h.hs = 0)
    (takes : (noise.readMessage h.hs msg).any (fun read => noise.takesKeys read.2) = true)
    (short : msg.length ≤ 65535) :
    ∃ after response, h.processMessage msg = some (after, some response) ∧
      response.length = msg.length + 64 := by
  obtain ⟨⟨payload, hs⟩, read, taken⟩ := Option.any_eq_true _ _ |>.mp takes
  obtain ⟨next, length⟩ := noise.read_message _ _ _ _ read
  have unfinished : noise.messageIndex hs < 3 := by omega
  have limit : payload.length ≤ 65535 := by omega
  obtain ⟨⟨response, last⟩, wrote⟩ :=
    Option.isSome_iff_exists.mp ((noise.write_limit hs payload unfinished).mpr ⟨taken, limit⟩)
  obtain ⟨-, longer⟩ := noise.write_message _ _ _ _ wrote
  refine ⟨⟨last, decide (noise.messageIndex last = 3)⟩, response, ?_, ?_⟩
  · simp only [WireHandshake.processMessage, running, Bool.false_eq_true, if_false, read,
      Option.bind_some, unfinished, if_true, wrote, Option.map_some]
  · rw [next, first] at longer
    rw [first] at length
    simp only [noiseOverhead] at length longer
    omega

/-- The count in front of the entries of a discovery response is their number. -/
def EntriesCounted : WireCall noise → Prop
  | .processDiscoveryRequest _ remoteAddr _ =>
      w.node.isDiscoverySourceAuthenticated remoteAddr.text = true →
        discoveryCount (discoveryPayload w.node.discoveryEntries) = w.node.discoveryEntries.length
  | _ => True

def takesFirst (stateKey : Transport × Bytes) (fresh : noise.Fresh) (msg : Bytes) : Bool :=
  (noise.readMessage (w.pendingHandshake stateKey fresh).hs msg).any fun read =>
    noise.takesKeys read.2

/-- No message 1 within 64 bytes of the longest packet arrives on a TCP connection with a key that
the library takes, and no peer is told of more peers than a packet, or 16 bits, can hold. -/
def Bounded : WireCall noise → Prop
  | .processHandshake conn remoteAddr transport payload fresh =>
      transport = .tcp → conn.isSome = true → w.AwaitsFirst (transport, remoteAddr.text) fresh →
        w.takesFirst (transport, remoteAddr.text) fresh payload.1 = true →
          payload.1.length ≤ 65466
  | .processDiscoveryRequest conn remoteAddr transport =>
      w.node.isDiscoverySourceAuthenticated remoteAddr.text = true →
        w.node.discoveryEntries.length ≤ 65535 ∧
          (transport = .tcp → conn.isSome = true → entrySizes w.node.discoveryEntries ≤ 65528)
  | _ => True

theorem handshake_inStep_iff (aead : Aead) (conn : Option ConnId) (remoteAddr : NetAddr)
    (transport : Transport) (payload : Received) (fresh : noise.Fresh) :
    FramesInStep (w.sent aead (.processHandshake conn remoteAddr transport payload fresh)) ↔
      w.Bounded (.processHandshake conn remoteAddr transport payload fresh) := by
  have received := payload.2
  simp only [sent, Bounded]
  constructor
  · intro all framed connected first takes
    by_contra long
    obtain ⟨after, response, answered, length⟩ := processMessage_first
      (w.pendingHandshake (transport, remoteAddr.text) fresh) payload.1 first.1 first.2 takes
      (by omega)
    simp only [answered] at all
    have fits := (framesInStep_sendRaw conn remoteAddr transport _ response).mp all framed connected
    omega
  · intro bounded
    split
    · next after response answered =>
        refine (framesInStep_sendRaw conn remoteAddr transport _ response).mpr fun framed connected => ?_
        rcases processMessage_response _ _ _ _ answered with ⟨first, length⟩ | shorter
        · have running : (w.pendingHandshake (transport, remoteAddr.text) fresh).completed = false := by
            by_contra closed
            rw [WireHandshake.processMessage, if_pos (by simpa using closed)] at answered
            cases answered
          have limit := bounded framed connected ⟨running, first⟩ (processMessage_takes answered)
          omega
        · omega
    · exact framesInStep_nil

theorem discovery_iff (aead : Aead) (conn : Option ConnId) (remoteAddr : NetAddr)
    (transport : Transport) :
    FramesInStep (w.sent aead (.processDiscoveryRequest conn remoteAddr transport)) ∧
        w.EntriesCounted (.processDiscoveryRequest conn remoteAddr transport) ↔
      w.Bounded (.processDiscoveryRequest conn remoteAddr transport) := by
  simp only [sent, Node.processDiscoveryRequest, EntriesCounted, Bounded]
  split
  · next authenticated =>
      rw [List.flatMap_singleton, Effect.written, framesInStep_sendRaw, discoveryPayload_length,
        discoveryCount_payload]
      constructor
      · rintro ⟨fits, counted⟩ known
        refine ⟨by have := counted known; omega, fun framed connected => ?_⟩
        have short := fits framed connected
        omega
      · intro bounded
        obtain ⟨few, small⟩ := bounded authenticated
        refine ⟨fun framed connected => ?_, fun _ => Nat.mod_eq_of_lt (by omega)⟩
        have short := small framed connected
        omega
  · next unknown =>
      refine iff_of_true ⟨framesInStep_nil, fun known => absurd known unknown⟩ ?_
      intro known
      exact absurd known unknown

theorem firstPacket_short (fresh : noise.Fresh) (packet : Bytes)
    (first : packet ∈ (firstPacket fresh).toList) :
    ∃ message, packet = buildHandshakePacket message ∧ message.length = 32 := by
  obtain ⟨⟨message, next⟩, wrote, rfl⟩ := Option.map_eq_some_iff.mp (Option.mem_toList.mp first)
  obtain ⟨-, length⟩ := noise.write_message _ _ _ _ wrote
  rw [fresh.2] at length
  exact ⟨message, rfl, length⟩

/-- Every packet that any call hands to a connection fits its frame, and every discovery response
counts its entries, exactly when the echoed payloads and the peer list are small enough. -/
theorem inStep_iff_bounded (aead : IdealAead) (call : WireCall noise) :
    FramesInStep (w.sent aead.toAead call) ∧ w.EntriesCounted call ↔ w.Bounded call := by
  cases call with
  | processHandshake conn remoteAddr transport payload fresh =>
      rw [← handshake_inStep_iff w aead.toAead]
      exact and_iff_left trivial
  | processDiscoveryRequest conn remoteAddr transport =>
      exact discovery_iff w aead.toAead conn remoteAddr transport
  | sendAppFrame peerID appFrameType data dial accepts =>
      exact iff_of_true ⟨sendAppFrame_inStep aead w.node accepts peerID appFrameType data dial,
        trivial⟩ trivial
  | firstMessage conn fresh =>
      refine iff_of_true ⟨?_, trivial⟩ trivial
      intro stream frame member
      obtain ⟨packet, first, same⟩ := List.mem_map.mp member
      obtain ⟨message, rfl, length⟩ := firstPacket_short fresh packet first
      cases same
      rw [encodeTCPFrame, inStep_prefixed, buildHandshakePacket, tentPacket_length, length]
      decide
  | sendFastRehandshake p fresh =>
      refine iff_of_true ⟨framesInStep_flatMap _ _ fun packet first => ?_, trivial⟩ trivial
      obtain ⟨message, rfl, length⟩ := firstPacket_short fresh packet first
      exact framesInStep_short p.conn p.addr p.transport _ message (by omega)
  | sendHeartbeats timestamp =>
      refine iff_of_true ⟨framesInStep_sendToPeers w.node _ (putTimestamp timestamp) ?_, trivial⟩ trivial
      rw [putTimestamp, littleEndian_length]
      decide
  | processHeartbeat conn remoteAddr transport now timestamp =>
      have answer : (w.node.processHeartbeat conn remoteAddr transport now timestamp).2 =
          [.sendRaw conn remoteAddr transport (.raw (buildHeartbeatAckPacket timestamp))] := by
        unfold Node.processHeartbeat
        split <;> rfl
      refine iff_of_true ⟨?_, trivial⟩ trivial
      rw [sent, answer, List.flatMap_singleton, Effect.written]
      apply framesInStep_short
      rw [putTimestamp, littleEndian_length]
      decide
  | sendDiscoveryRequest p =>
      refine iff_of_true ⟨?_, trivial⟩ trivial
      rw [sent, Node.sendDiscoveryRequest, List.flatMap_singleton, Effect.written]
      exact framesInStep_short p.conn p.addr p.transport _ [] (by decide)
  | gracefulStop =>
      exact iff_of_true ⟨framesInStep_sendToPeers w.node _ [0xFF] (by decide), trivial⟩ trivial

end WireNode

namespace Echo

def cfg : Config := { defaultConfig with networkPassword := [1] }

def node : WireNode .plain := ⟨newNode .padded cfg (newIdentity .padded [5]), ∅⟩

def fresh : NoiseXX.plain.Fresh := ⟨((0 : Nat), true), rfl⟩

/-- A message 1 that fills its frame: the base point of X25519 for the key, and zeros. -/
def longest : Received := ⟨9 :: List.replicate 65529 0, by rw [List.length_cons, List.length_replicate]⟩

theorem longest_length : longest.1.length = 65530 := by
  rw [longest, List.length_cons, List.length_replicate]

theorem takesFirst_nonzero (first : UInt8) (rest : Bytes) (nonzero : first ≠ 0)
    (long : 31 ≤ rest.length) : node.takesFirst (.tcp, [9]) fresh (first :: rest) = true := by
  have read : NoiseXX.plain.readMessage (node.pendingHandshake (.tcp, [9]) fresh).hs (first :: rest) =
      some (rest.drop 31, (1, ((first :: rest).take 32).any fun byte => decide (byte ≠ 0))) :=
    if_pos (Nat.succ_le_succ long)
  rw [WireNode.takesFirst, read]
  exact List.any_eq_true.mpr ⟨first, List.mem_cons_self, decide_eq_true nonzero⟩

theorem sent_echo (payload : Received)
    (takes : node.takesFirst (.tcp, [9]) fresh payload.1 = true) :
    ∃ packet, node.sent IdealAead.tagged.toAead
        (.processHandshake (some 1) ⟨.tcp, [9]⟩ .tcp payload fresh) =
          [.write (.tcp 1) (encodeTCPFrame packet)] ∧
      packet.length = payload.1.length + 69 := by
  have bound := payload.2
  obtain ⟨after, response, answered, length⟩ := WireNode.processMessage_first
    (node.pendingHandshake (.tcp, [9]) fresh) payload.1 rfl rfl takes (by omega)
  refine ⟨buildHandshakePacket response, ?_, ?_⟩
  · simp only [WireNode.sent, answered]
    rfl
  · rw [buildHandshakePacket, tentPacket_length, length]

/-- Message 2 echoes the payload with 64 bytes more than message 1 had: its frame announces 63 bytes
and 65599 follow. -/
theorem echoed_payload_wraps :
    cfg.validate = true ∧ (node.node.peers.count : Int) ≤ cfg.maxPeers ∧
      ∃ packet, node.sent IdealAead.tagged.toAead
          (.processHandshake (some 1) ⟨.tcp, [9]⟩ .tcp longest fresh) =
            [.write (.tcp 1) (encodeTCPFrame packet)] ∧
        packet.length = 65599 ∧ lengthOf ((encodeTCPFrame packet).take 2) = 63 ∧
        ¬ InStep (encodeTCPFrame packet) := by
  obtain ⟨packet, sent, length⟩ := sent_echo longest
    (takesFirst_nonzero 9 _ (by decide) (by rw [List.length_replicate]; decide))
  rw [longest_length] at length
  refine ⟨by decide, by decide, packet, sent, length, ?_, ?_⟩
  · simp only [encodeTCPFrame, prefixed, lengthOf, List.take_succ_cons, List.take_zero,
      List.getD_cons_zero, List.getD_cons_succ, UInt8.toNat_ofNat', length]
  · rw [encodeTCPFrame, inStep_prefixed, length]
    decide

end Echo

end Tenet
