import Tenet.Codec
import Tenet.HandshakeStep
import Tenet.Lib.Run
import Tenet.RelayFormat
import Tenet.Events

/-! Hosts that exchange datagrams and connect to each other through one relay. Of what the nodes send,
the handshake and relay packets are followed; a datagram is not lost and arrives once. -/

namespace Tenet

open Lib

structure Hop where
  source : Bytes
  destination : Bytes
  packet : Bytes
  deriving DecidableEq, Repr

def outgoing (codec : Codec) (effects : List Effect) : List (Bytes × Bytes) :=
  effects.filterMap fun
    | .writeToUDP addr packet => some (addr, packet)
    | .sendRaw _ addr _ (.handshake message) =>
        some (addr.text, buildHandshakePacket (codec.wire message))
    | _ => none

/-- The handshake message that a reader hands on, and the address it is taken to come from. -/
def incoming (codec : Codec) (effects : List Effect) : Option (NetAddr × Message) :=
  effects.findSome? fun
    | .handlePacket remoteAddr _ packetType payload =>
        if packetType = packetTypeHandshake then some (remoteAddr, codec.read payload) else none
    | _ => none

namespace Node

/-- `connectViaRelay` with the relay that it selects. The packet is built before anything is
registered. -/
def connectViaRelay (env : Env) (codec : Codec) (n : Node) (relayAddr targetAddr : Bytes)
    (ephemeral : Key) (now : Int) : Node × List Effect :=
  match env.resolveUDPAddr targetAddr with
  | none => (n, [])
  | some target =>
      let (hs, msg) := newInitiatorHandshake n.identity.noisePublicKey n.config.networkPassword
        ephemeral now
      match n.buildRelayPacket env relayModeForward target (buildHandshakePacket (codec.wire msg))
          now with
      | none => (n, [])
      | some packet => (n.registerRelayHandshake relayAddr target hs, [.writeToUDP relayAddr packet])

/-- One datagram at the UDP reader, up to the handshake handler behind it. -/
def receiveUDP (env : Env) (codec : Codec) (n : Node) (source packet : Bytes) (ephemeral : Key)
    (now : Int) : Node × List Effect :=
  let read := n.handleRead env source packet now
  match incoming codec read.2 with
  | none => read
  | some (remoteAddr, message) =>
      let handled := read.1.processHandshake env none remoteAddr .udp message ephemeral now
      (handled.1, read.2 ++ handled.2)

end Node

/-- The hosts with their addresses, and who connects to whom through the relay. -/
structure RelayPlan (H ι : Type) where
  addr : H → Bytes
  host : Bytes → Option H
  host_eq : ∀ h text, host text = some h ↔ addr h = text
  relay : H
  origin : ι → H
  target : ι → H
  ephemeral : ι → Key

namespace RelayPlan

variable {H ι : Type} (plan : RelayPlan H ι)

theorem addr_injective {one other : H} (same : plan.addr one = plan.addr other) : one = other := by
  have found : plan.host (plan.addr other) = some one := (plan.host_eq one _).mpr same
  rw [(plan.host_eq other _).mpr rfl] at found
  exact (Option.some.inj found).symm

def handshakeHop (codec : Codec) (source destination : H) (message : Message) : Hop :=
  ⟨plan.addr source, plan.addr destination, buildHandshakePacket (codec.wire message)⟩

def relayHop (source destination : H) (payload : Bytes) : Hop :=
  ⟨plan.addr source, plan.addr destination, tentPacket packetTypeRelay payload⟩

end RelayPlan

structure Delivery (H : Type) where
  host : H
  node : Node
  hop : Hop
  ephemeral : Key
  now : Int

structure RelayNet (H ι : Type) where
  node : H → Node
  flight : List Hop
  started : ι → Bool
  history : List (Delivery H)

inductive RelayEvent (ι : Type) where
  | connectViaRelay (connect : ι) (now : Int)
  | deliver (index : Nat) (ephemeral : Key) (now : Int)
  deriving DecidableEq, Repr

namespace Delivery

variable {H : Type} (env : Env) (codec : Codec) (d : Delivery H)

def read : Node × List Effect := d.node.handleRead env d.hop.source d.hop.packet d.now

def result : Node × List Effect :=
  d.node.receiveUDP env codec d.hop.source d.hop.packet d.ephemeral d.now

def handled : Option (NetAddr × Message) := incoming codec (d.read env).2

def message : Option Message :=
  if isTent d.hop.packet ∧ d.hop.packet.getD 4 0 = packetTypeHandshake then
    some (codec.read (d.hop.packet.drop 5))
  else none

/-- The packet is passed on as it is, to that address and to no handler. -/
def PassedTo (addr : Bytes) : Prop := d.read env = (d.node, [.writeToUDP addr d.hop.packet])

end Delivery

namespace RelayNet

variable {H ι : Type} [DecidableEq H] [DecidableEq ι]

def post (plan : RelayPlan H ι) (codec : Codec) (host : H) (effects : List Effect) :
    List Hop :=
  (outgoing codec effects).map fun (addr, packet) => ⟨plan.addr host, addr, packet⟩

def step (env : Env) (codec : Codec) (plan : RelayPlan H ι) (s : RelayNet H ι) :
    RelayEvent ι → RelayNet H ι
  | .connectViaRelay connect now =>
      if s.started connect then s
      else
        let origin := plan.origin connect
        let sent := (s.node origin).connectViaRelay env codec (plan.addr plan.relay)
          (plan.addr (plan.target connect)) (plan.ephemeral connect) now
        { s with
          node := Function.update s.node origin sent.1
          flight := s.flight ++ post plan codec origin sent.2
          started := Function.update s.started connect true }
  | .deliver index ephemeral now =>
      match s.flight[index]? with
      | none => s
      | some hop =>
          match plan.host hop.destination with
          | none => { s with flight := s.flight.eraseIdx index }
          | some host =>
              let d : Delivery H := ⟨host, s.node host, hop, ephemeral, now⟩
              { s with
                node := Function.update s.node host (d.result env codec).1
                flight := s.flight.eraseIdx index ++ post plan codec host (d.result env codec).2
                history := s.history ++ [d] }

def begin (node : H → Node) : RelayNet H ι := ⟨node, [], fun _ => false, []⟩

end RelayNet

section Reading

variable (env : Env) (codec : Codec) (n : Node) (source : Bytes) (ephemeral : Key) (now : Int)

theorem handleRead_handshake (body : Bytes) :
    n.handleRead env source (buildHandshakePacket body) now =
      match (if n.config.enableRelay then n.relayForward.get source else none) with
      | some originAddr => (n, [.writeToUDP originAddr (buildHandshakePacket body)])
      | none => (n, [.handlePacket ⟨.udp, source⟩ .udp packetTypeHandshake body]) := by
  have tent : isTent (buildHandshakePacket body) = true := isTent_tentPacket _ _
  have long : ¬(buildHandshakePacket body).length < 4 := by
    simp [buildHandshakePacket, tentPacket, magicBytes]
  have noProbe : ¬(buildHandshakePacket body).take 4 = probeMagic := by
    simp [buildHandshakePacket, tentPacket, magicBytes, probeMagic]
  have noRelay : ¬(buildHandshakePacket body).getD 4 0 = packetTypeRelay := by
    simp [buildHandshakePacket, tentPacket, magicBytes, packetTypeHandshake, packetTypeRelay]
  rw [Node.handleRead, if_neg long, if_neg noProbe, if_pos tent, if_neg noRelay]
  rfl

theorem handleRead_relay (payload : Bytes) :
    n.handleRead env source (tentPacket packetTypeRelay payload) now =
      n.handleRelayPacket env source payload now := by
  have tent : isTent (tentPacket packetTypeRelay payload) = true := isTent_tentPacket _ _
  have long : ¬(tentPacket packetTypeRelay payload).length < 4 := by
    simp [tentPacket, magicBytes]
  have noProbe : ¬(tentPacket packetTypeRelay payload).take 4 = probeMagic := by
    simp [tentPacket, magicBytes, probeMagic]
  have relay : (tentPacket packetTypeRelay payload).getD 4 0 = packetTypeRelay := rfl
  rw [Node.handleRead, if_neg long, if_neg noProbe, if_pos tent, if_pos relay]
  rfl

theorem receiveUDP_forwarded (body origin : Bytes) (relays : n.config.enableRelay = true)
    (entry : n.relayForward.get source = some origin) :
    n.receiveUDP env codec source (buildHandshakePacket body) ephemeral now =
      (n, [.writeToUDP origin (buildHandshakePacket body)]) := by
  simp only [Node.receiveUDP, handleRead_handshake, relays, if_true, entry]
  rfl

theorem handleRead_unrelayed (body : Bytes)
    (entry : n.config.enableRelay = true → n.relayForward.get source = none) :
    n.handleRead env source (buildHandshakePacket body) now =
      (n, [.handlePacket ⟨.udp, source⟩ .udp packetTypeHandshake body]) := by
  have unrelayed : (if n.config.enableRelay then n.relayForward.get source else none) = none := by
    split
    · next relays => exact entry relays
    · rfl
  rw [handleRead_handshake, unrelayed]

theorem incoming_handshake (message : Message)
    (entry : n.config.enableRelay = true → n.relayForward.get source = none) :
    incoming codec (n.handleRead env source (buildHandshakePacket (codec.wire message)) now).2 =
      some (⟨.udp, source⟩, message) := by
  simp only [handleRead_unrelayed env n source now (codec.wire message) entry, incoming,
    List.findSome?_cons, if_true, codec.read_wire]

theorem receiveUDP_handshake (message : Message)
    (entry : n.config.enableRelay = true → n.relayForward.get source = none) :
    n.receiveUDP env codec source (buildHandshakePacket (codec.wire message)) ephemeral now =
      ((n.processHandshake env none ⟨.udp, source⟩ .udp message ephemeral now).1,
        .handlePacket ⟨.udp, source⟩ .udp packetTypeHandshake (codec.wire message) ::
          (n.processHandshake env none ⟨.udp, source⟩ .udp message ephemeral now).2) := by
  simp only [Node.receiveUDP, incoming_handshake env codec n source now message entry]
  rw [handleRead_unrelayed env n source now (codec.wire message) entry]
  rfl

end Reading

section Relaying

variable (env : Env) (codec : Codec) (n : Node) (source : Bytes) (ephemeral : Key) (now : Int)

theorem relayToken_short : (n.relayToken env now).length ≤ 255 := by
  unfold Node.relayToken
  split
  · split
    · exact Nat.zero_le 255
    · exact List.length_take_le 255 _
  · exact Nat.zero_le 255

theorem buildRelayPacket_parsed {mode : UInt8} {addr inner packet : Bytes}
    (built : n.buildRelayPacket env mode addr inner now = some packet) :
    ∃ payload, packet = tentPacket packetTypeRelay payload ∧
      parseRelayPacket payload = some ⟨mode, addr, n.relayToken env now, inner⟩ := by
  unfold Node.buildRelayPacket at built
  split at built
  · cases built
  · next short =>
      refine ⟨_, (Option.some.inj built).symm, ?_⟩
      exact parseRelayPacket_built mode addr (n.relayToken env now) inner (by omega)
        (relayToken_short env n now)

theorem buildRelayPacket_short (mode : UInt8) (addr inner : Bytes) (short : addr.length ≤ 255) :
    ∃ packet, n.buildRelayPacket env mode addr inner now = some packet := by
  rw [Node.buildRelayPacket, if_neg (by omega)]
  exact ⟨_, rfl⟩

theorem connectViaRelay_cases {targetAddr target : Bytes}
    (resolves : env.resolveUDPAddr targetAddr = some target) (relayAddr : Bytes) :
    (n.buildRelayPacket env relayModeForward target
        (buildHandshakePacket (codec.wire (.one ephemeral))) now = none ∧
      n.connectViaRelay env codec relayAddr targetAddr ephemeral now = (n, [])) ∨
    ∃ payload, parseRelayPacket payload = some ⟨relayModeForward, target, n.relayToken env now,
        buildHandshakePacket (codec.wire (.one ephemeral))⟩ ∧
      n.connectViaRelay env codec relayAddr targetAddr ephemeral now =
        (n.registerRelayHandshake relayAddr target (newInitiatorHandshake
          n.identity.noisePublicKey n.config.networkPassword ephemeral now).1,
          [.writeToUDP relayAddr (tentPacket packetTypeRelay payload)]) := by
  rcases built : n.buildRelayPacket env relayModeForward target
    (buildHandshakePacket (codec.wire (.one ephemeral))) now with _ | packet
  · refine Or.inl ⟨rfl, ?_⟩
    simp only [Node.connectViaRelay, resolves, newInitiatorHandshake, built]
  · obtain ⟨payload, rfl, parsed⟩ := buildRelayPacket_parsed env n now built
    refine Or.inr ⟨payload, parsed, ?_⟩
    simp only [Node.connectViaRelay, resolves, newInitiatorHandshake, built]

def Node.AcceptsToken (env : Env) (n : Node) (packet : Bytes) (now : Int) : Prop :=
  packet.getD 4 0 = packetTypeRelay → n.config.enableRelayAuth = true →
    ∀ relayed ∈ parseRelayPacket (packet.drop 5), 0 < relayed.authToken.length →
      acceptsToken env n.relayAuth relayed.authToken now = true

instance decidableAcceptsToken (packet : Bytes) : Decidable (n.AcceptsToken env packet now) := by
  unfold Node.AcceptsToken
  infer_instance

variable {env n now}

theorem admitRelayPacket_cases {payload target : Bytes} {relayed : RelayPacket}
    (parsed : parseRelayPacket payload = some relayed)
    (resolves : env.resolveUDPAddr relayed.addr = some target) :
    n.admitRelayPacket env payload now = none ∨
      n.admitRelayPacket env payload now = some (relayed, target) := by
  simp only [Node.admitRelayPacket, parsed, resolves]
  split
  · split
    · exact Or.inl rfl
    · split
      · exact Or.inl rfl
      · exact Or.inr rfl
  · exact Or.inl rfl

theorem admitRelayPacket_accepted {payload target : Bytes} {relayed : RelayPacket}
    (parsed : parseRelayPacket payload = some relayed)
    (resolves : env.resolveUDPAddr relayed.addr = some target)
    (relays : n.config.enableRelay = true) (full : relayed.inner ≠ [])
    (accepts : n.AcceptsToken env (tentPacket packetTypeRelay payload) now) :
    n.admitRelayPacket env payload now = some (relayed, target) := by
  have nonempty : ¬relayed.inner.length = 0 := fun empty => full (List.eq_nil_of_length_eq_zero empty)
  have accepted : ¬(n.config.enableRelayAuth = true ∧ relayed.authToken.length > 0 ∧
      acceptsToken env n.relayAuth relayed.authToken now = false) := by
    intro refused
    have taken := accepts rfl refused.1 relayed parsed refused.2.1
    rw [refused.2.2] at taken
    cases taken
  simp only [Node.admitRelayPacket, parsed, resolves, relays, if_true, if_neg nonempty,
    if_neg accepted]
  rfl

theorem admitRelayPacket_relays {payload : Bytes} {admitted : RelayPacket × Bytes}
    (accepted : n.admitRelayPacket env payload now = some admitted) :
    n.config.enableRelay = true := by
  unfold Node.admitRelayPacket at accepted
  split at accepted
  · assumption
  · cases accepted

variable {source payload addr target : Bytes}

theorem receiveUDP_refused (refused : n.admitRelayPacket env payload now = none) :
    n.receiveUDP env codec source (tentPacket packetTypeRelay payload) ephemeral now = (n, []) := by
  simp only [Node.receiveUDP, handleRead_relay, Node.handleRelayPacket, refused]
  rfl

theorem receiveUDP_forward {token inner : Bytes}
    (admitted : n.admitRelayPacket env payload now =
      some (⟨relayModeForward, addr, token, inner⟩, target)) :
    n.receiveUDP env codec source (tentPacket packetTypeRelay payload) ephemeral now =
      n.relayForwardTo env source target inner now := by
  have nothing : incoming codec (n.relayForwardTo env source target inner now).2 = none := by
    simp only [Node.relayForwardTo]
    cases n.buildRelayPacket env relayModeTarget target inner now <;> rfl
  simp only [Node.receiveUDP, handleRead_relay, Node.handleRelayPacket, admitted, if_true, nothing]

/-- What comes from the relay from here on is taken to be relayed. -/
def Node.inboundFrom (n : Node) (source : Bytes) : Node :=
  { n with relayInbound := insert source n.relayInbound }

theorem handleRead_deliver {token : Bytes} {message : Message}
    (admitted : n.admitRelayPacket env payload now = some
      (⟨relayModeTarget, addr, token, buildHandshakePacket (codec.wire message)⟩, target)) :
    n.handleRead env source (tentPacket packetTypeRelay payload) now =
      (n.inboundFrom source,
        [.handlePacket ⟨.udp, source⟩ .udp packetTypeHandshake (codec.wire message)]) := by
  have other : relayModeTarget ≠ relayModeForward := by decide
  have tent : isTent (buildHandshakePacket (codec.wire message)) = true := isTent_tentPacket _ _
  simp only [handleRead_relay, Node.handleRelayPacket, admitted, if_neg other, if_true,
    Node.relayDeliver, tent]
  rfl

theorem incoming_deliver {token : Bytes} {message : Message}
    (admitted : n.admitRelayPacket env payload now = some
      (⟨relayModeTarget, addr, token, buildHandshakePacket (codec.wire message)⟩, target)) :
    incoming codec (n.handleRead env source (tentPacket packetTypeRelay payload) now).2 =
      some (⟨.udp, source⟩, message) := by
  simp only [handleRead_deliver codec admitted, incoming, List.findSome?_cons, if_true,
    codec.read_wire]

theorem receiveUDP_deliver {token : Bytes} {message : Message}
    (admitted : n.admitRelayPacket env payload now = some
      (⟨relayModeTarget, addr, token, buildHandshakePacket (codec.wire message)⟩, target)) :
    n.receiveUDP env codec source (tentPacket packetTypeRelay payload) ephemeral now =
      (((n.inboundFrom source).processHandshake env none ⟨.udp, source⟩ .udp message ephemeral now).1,
        .handlePacket ⟨.udp, source⟩ .udp packetTypeHandshake (codec.wire message) ::
          ((n.inboundFrom source).processHandshake env none ⟨.udp, source⟩ .udp message ephemeral
            now).2) := by
  simp only [Node.receiveUDP, incoming_deliver codec admitted]
  rw [handleRead_deliver codec admitted]
  rfl

end Relaying

section Deliveries

variable {H : Type} {env : Env} {codec : Codec} (d : Delivery H)

theorem message_relay {payload : Bytes}
    (packet : d.hop.packet = tentPacket packetTypeRelay payload) : d.message codec = none := by
  have relay : (tentPacket packetTypeRelay payload).getD 4 0 = packetTypeRelay := rfl
  rw [Delivery.message, packet, relay]
  exact if_neg fun both => absurd both.2 (by decide)

theorem message_handshake {message : Message}
    (packet : d.hop.packet = buildHandshakePacket (codec.wire message)) :
    d.message codec = some message := by
  have tent : isTent (buildHandshakePacket (codec.wire message)) = true := isTent_tentPacket _ _
  have handshake : (buildHandshakePacket (codec.wire message)).getD 4 0 = packetTypeHandshake := rfl
  have body : (buildHandshakePacket (codec.wire message)).drop 5 = codec.wire message := rfl
  rw [Delivery.message, packet, if_pos ⟨tent, handshake⟩, body, codec.read_wire]

variable (env) in
/-- The relay passes a handshake packet on raw when it relays for the sender. -/
theorem relay_forwards {message : Message} {addr : Bytes}
    (packet : d.hop.packet = buildHandshakePacket (codec.wire message))
    (relays : d.node.config.enableRelay = true)
    (entry : d.node.relayForward.get d.hop.source = some addr) :
    d.result env codec = (d.node, [.writeToUDP addr d.hop.packet]) ∧ d.PassedTo env addr := by
  rw [Delivery.result, Delivery.PassedTo, Delivery.read, packet]
  refine ⟨receiveUDP_forwarded env codec d.node d.hop.source d.ephemeral d.now _ addr relays entry,
    ?_⟩
  rw [handleRead_handshake, relays, if_pos rfl, entry]

end Deliveries

section Outgoing

variable (codec : Codec)

@[simp] theorem outgoing_append (front back : List Effect) :
    outgoing codec (front ++ back) = outgoing codec front ++ outgoing codec back :=
  List.filterMap_append

theorem sessionEstablished_outgoing (env : Env) (n : Node) (conn : Option ConnId)
    (remoteAddr : NetAddr) (transport : Transport) (session : Session) (now : Int) :
    outgoing codec (n.sessionEstablished env conn remoteAddr transport session now).2 = [] := by
  apply filterMap_notices (sessionEstablished_notices env n conn remoteAddr transport session now)
  intro effect notice
  cases effect with
  | writeToUDP addr packet => cases notice
  | sendRaw conn addr transport packet => cases notice
  | _ => rfl

theorem processHandshake_outgoing (env : Env) (n : Node) (conn : Option ConnId)
    (remoteAddr : NetAddr) (transport : Transport) (payload : Message) (ephemeral : Key)
    (now : Int) :
    outgoing codec
        (n.processHandshake env conn remoteAddr transport payload ephemeral now).2 =
      (handshakeReplies (n.processHandshake env conn remoteAddr transport payload ephemeral
        now).2).map fun message =>
          (remoteAddr.text, buildHandshakePacket (codec.wire message)) := by
  have replied (response : Option Message) :
      outgoing codec (response.toList.map fun message =>
          .sendRaw conn remoteAddr transport (.handshake message)) =
        response.toList.map fun message =>
          (remoteAddr.text, buildHandshakePacket (codec.wire message)) := by
    cases response <;> rfl
  rcases result : (n.pendingHandshake (transport, remoteAddr.text) ephemeral now).processMessage
    payload with _ | ⟨hs, response, _ | session⟩
  · rw [processHandshake_failed env n conn remoteAddr transport payload ephemeral now result]
    rfl
  · rw [processHandshake_waiting env n conn remoteAddr transport payload ephemeral now hs response
      result]
    cases response <;> rfl
  · rw [processHandshake_finished env n conn remoteAddr transport payload ephemeral now hs response
      session result]
    dsimp only
    rw [outgoing_append, replied, sessionEstablished_outgoing, List.append_nil,
      handshakeReplies_sendRaw, sessionEstablished_replies, List.append_nil]

end Outgoing

section Frames

variable (env : Env) (codec : Codec) (n : Node) (source packet : Bytes) (ephemeral : Key) (now : Int)

theorem handleRead_frame :
    (n.handleRead env source packet now).1.identity = n.identity ∧
      (n.handleRead env source packet now).1.config = n.config := by
  unfold Node.handleRead
  split
  · exact ⟨rfl, rfl⟩
  · split
    · exact ⟨rfl, rfl⟩
    · split
      · split
        · exact ⟨(handleRelayPacket_frame env n source (packet.drop 5) now).1,
            (handleRelayPacket_tables env n source (packet.drop 5) now).2.2.1⟩
        · split <;> exact ⟨rfl, rfl⟩
      · exact ⟨rfl, rfl⟩

theorem receiveUDP_frame :
    (n.receiveUDP env codec source packet ephemeral now).1.identity = n.identity ∧
      (n.receiveUDP env codec source packet ephemeral now).1.config = n.config := by
  obtain ⟨identity, config⟩ := handleRead_frame env n source packet now
  unfold Node.receiveUDP
  dsimp only
  split
  · exact ⟨identity, config⟩
  · next remoteAddr message _ =>
      refine ⟨?_, ?_⟩
      · rw [processHandshake_identity, identity]
      · rw [(processHandshake_tables env _ none remoteAddr .udp message ephemeral now).2.config,
          config]

end Frames

namespace RelayNet

variable {H ι : Type} [DecidableEq H] [DecidableEq ι] (env : Env) (codec : Codec)
  (plan : RelayPlan H ι) (s : RelayNet H ι)

def delivered (d : Delivery H) : RelayNet H ι :=
  { s with
    node := Function.update s.node d.host (d.result env codec).1
    flight := post plan codec d.host (d.result env codec).2
    history := s.history ++ [d] }

omit [DecidableEq ι] in
theorem node_delivered (d : Delivery H) :
    (delivered env codec plan s d).node d.host = (d.result env codec).1 :=
  Function.update_self d.host _ s.node

omit [DecidableEq ι] in
theorem node_delivered_other (d : Delivery H) {host : H} (other : host ≠ d.host) :
    (delivered env codec plan s d).node host = s.node host :=
  Function.update_of_ne other _ s.node

theorem step_deliver {hop : Hop} {host : H} (flight : s.flight = [hop])
    (destination : hop.destination = plan.addr host) (index : Nat) (ephemeral : Key) (now : Int) :
    step env codec plan s (.deliver index ephemeral now) = s ∨
      s.flight[index]? = some hop ∧ plan.host hop.destination = some host ∧
        step env codec plan s (.deliver index ephemeral now) =
          delivered env codec plan s ⟨host, s.node host, hop, ephemeral, now⟩ := by
  have found : plan.host hop.destination = some host :=
    (plan.host_eq host hop.destination).mpr destination.symm
  cases index with
  | zero =>
      refine Or.inr ⟨by rw [flight]; rfl, found, ?_⟩
      simp only [step, flight, List.getElem?_cons_zero, found, List.eraseIdx_cons_zero,
        List.nil_append]
      rfl
  | succ index =>
      refine Or.inl ?_
      simp only [step, flight, List.getElem?_cons_succ, List.getElem?_nil]

end RelayNet

end Tenet
