import Tenet.RelayNet
import Mathlib.Data.Fintype.Defs

/-! Connects through one relay. The relay remembers one origin for each target, and an origin one
handshake for each relay, so connects are kept apart as long as those that overlap share neither. -/

namespace Tenet.RelaySeparate

open Lib Lib.Run

def answeredKey : Message → Option Key
  | .two (.one ephemeral) _ _ _ => some ephemeral
  | _ => none

/-- The key of the message 1 that a message is or answers. -/
def openingKey : Message → Option Key
  | .one ephemeral => some ephemeral
  | message => answeredKey message

def Late (message : Message) : Prop := openingKey message = none

section

variable {H ι : Type} [DecidableEq H] [DecidableEq ι] (env : Env) (codec : Codec)
  (plan : RelayPlan H ι)

def answered (d : Delivery H) : Option Key := (d.message codec).bind answeredKey

/-- The handshake message of a packet, also of one packed for a relay or by it. -/
def carried (packet : Bytes) : Option Message :=
  let inner :=
    if packet.getD 4 0 = packetTypeRelay then
      ((parseRelayPacket (packet.drop 5)).map RelayPacket.inner).getD []
    else packet
  if isTent inner ∧ inner.getD 4 0 = packetTypeHandshake then some (codec.read (inner.drop 5))
  else none

/-- The datagram has the message 1 of this connect, or the answer to it. -/
def Concerns (hop : Hop) (connect : ι) : Prop :=
  (carried codec hop.packet).bind openingKey = some (plan.ephemeral connect)

def BehindRelay (hop : Hop) (connect : ι) : Prop :=
  hop.source = plan.addr (plan.target connect) ∨ hop.destination = plan.addr (plan.target connect)

/-- A reply to this connect: the relay passes it to the connect's origin, which takes it to the
connect's own handshake state and writes the connect's own target into a peer that it creates. -/
structure Separate (connect : ι) (d : Delivery H) : Prop where
  relayed : d.host = plan.relay → d.PassedTo env (plan.addr (plan.origin connect))
  own : d.host ≠ plan.relay → d.host = plan.origin connect ∧
    d.handled env codec =
      (d.message codec).map fun message => (⟨.udp, plan.addr plan.relay⟩, message)
  state : d.host ≠ plan.relay →
    (d.node.pendingHandshakes.get (.udp, plan.addr plan.relay)).map HandshakeState.stage =
      some (.awaitTwo (.one (plan.ephemeral connect)))
  target : d.host ≠ plan.relay → ∀ id p, d.node.peers.get id = none →
    (d.result env codec).1.peers.get id = some p →
    p.relayTarget = some ⟨.udp, plan.addr (plan.target connect)⟩

def KeptApart (s : RelayNet H ι) : Prop :=
  ∀ d ∈ s.history, ∀ connect, answered codec d = some (plan.ephemeral connect) →
    Separate env codec plan connect d

/-- While a connect is on its way to its answer, its origin makes no other and receives nothing else;
while it is behind the relay, the relay is not asked for its target. And no origin relays for the
relay when its answer arrives. -/
def Apart (s : RelayNet H ι) : RelayEvent ι → Prop
  | .connectViaRelay connect _ => s.started connect = false → ∀ hop ∈ s.flight, ∀ other,
      Concerns codec plan hop other → plan.origin other ≠ plan.origin connect
  | .deliver index _ _ => ∀ hop ∈ s.flight[index]?, ∀ host ∈ plan.host hop.destination,
      (∀ connect, Concerns codec plan hop connect → host = plan.origin connect →
        (s.node host).relayForward.get (plan.addr plan.relay) = none) ∧
      ∀ meanwhile ∈ s.flight.eraseIdx index, ∀ other, Concerns codec plan meanwhile other →
        plan.origin other ≠ host ∧
          (host = plan.relay → BehindRelay plan meanwhile other →
            ∀ connect, Concerns codec plan hop connect → plan.target other ≠ plan.target connect)

instance decidableApart [Fintype ι] (s : RelayNet H ι) (event : RelayEvent ι) :
    Decidable (Apart codec plan s event) := by
  cases event <;> unfold Apart <;> unfold Concerns <;> unfold BehindRelay <;> infer_instance

/-- Every connect goes from one end to another, and draws its own key. -/
structure Setup : Prop where
  origins : ∀ connect, plan.origin connect ≠ plan.relay
  targets : ∀ connect, plan.target connect ≠ plan.relay
  ends : ∀ connect, plan.origin connect ≠ plan.target connect
  resolves : ∀ connect, env.resolveUDPAddr (plan.addr (plan.target connect)) =
    some (plan.addr (plan.target connect))
  distinct : Function.Injective plan.ephemeral

end

section Responses

variable {hs after : HandshakeState} {message reply : Message} {session : Option Session}

theorem response_cases (answers : hs.processMessage message = some (after, some reply, session)) :
    (∃ prologue drawn static, reply = .two message prologue drawn static) ∨
      (∀ ephemeral, message ≠ .one ephemeral) ∧ ∃ static, reply = .three message static := by
  unfold HandshakeState.processMessage at answers
  split at answers
  · cases answers
  · split at answers
    · cases answers
      exact Or.inl ⟨_, _, _, rfl⟩
    · split at answers
      · cases answers
        exact Or.inr ⟨nofun, _, rfl⟩
      · cases answers
    · split at answers <;> cases answers
    · cases answers

theorem response_late (answers : hs.processMessage message = some (after, some reply, session))
    (later : ∀ ephemeral, message ≠ .one ephemeral) : Late reply := by
  rcases response_cases answers with ⟨prologue, drawn, static, rfl⟩ | ⟨_, static, rfl⟩
  · cases message with
    | one ephemeral => exact absurd rfl (later ephemeral)
    | two first prologue ephemeral static => rfl
    | three second static => rfl
  · rfl

theorem response_to_first {ephemeral : Key}
    (answers : hs.processMessage (.one ephemeral) = some (after, some reply, session)) :
    answeredKey reply = some ephemeral := by
  rcases response_cases answers with ⟨prologue, drawn, static, rfl⟩ | ⟨later, _⟩
  · rfl
  · exact absurd rfl (later ephemeral)

end Responses

section Peers

theorem get_add_new {store : PeerStore} {written p : Peer} {id : Bytes}
    (unknown : store.get id = none) (created : (store.add written).get id = some p) :
    id = written.id ∧ p = written := by
  rw [PeerStore.get_add] at created
  split at created
  · next same => exact ⟨same, (Option.some.inj created).symm⟩
  · rw [unknown] at created
    cases created

theorem sessionEstablished_created (env : Env) (n : Node) (conn : Option ConnId)
    (remoteAddr : NetAddr) (transport : Transport) (session : Session) (now : Int) {id : Bytes}
    {p : Peer} (unknown : n.peers.get id = none)
    (created : (n.sessionEstablished env conn remoteAddr transport session now).1.peers.get id =
      some p) :
    p.relayTarget = (n.relayPendingTarget.get remoteAddr.text).map (⟨.udp, ·⟩) := by
  cases known : n.peers.get (peerIDOf env session.remotePublicKey) with
  | none =>
      simp only [Node.sessionEstablished, known, Node.handleNewPeer] at created
      split at created
      · rw [unknown] at created
        cases created
      · rw [registerRelayCandidate_peers] at created
        rw [(get_add_new unknown created).2]
        rfl
  | some existing =>
      obtain ⟨linkMode, relayTarget, lastSeen, peers⟩ :=
        sessionEstablished_known env n conn remoteAddr transport session now existing known
      rw [peers] at created
      have same : id = peerIDOf env session.remotePublicKey :=
        ((get_add_new unknown created).1.trans (Peer.upgradeTransport_id _ _ _ _ _ _)).trans
          (n.peers.get_id _ existing known)
      rw [same, known] at unknown
      cases unknown

theorem processHandshake_created (env : Env) (n : Node) (conn : Option ConnId)
    (remoteAddr : NetAddr) (transport : Transport) (payload : Message) (ephemeral : Key) (now : Int)
    {id : Bytes} {p : Peer} (unknown : n.peers.get id = none)
    (created : (n.processHandshake env conn remoteAddr transport payload ephemeral now).1.peers.get
      id = some p) :
    p.relayTarget = (n.relayPendingTarget.get remoteAddr.text).map (⟨.udp, ·⟩) := by
  rcases result : (n.pendingHandshake (transport, remoteAddr.text) ephemeral now).processMessage
    payload with _ | ⟨hs, response, _ | session⟩
  · rw [processHandshake_failed env n conn remoteAddr transport payload ephemeral now result,
      unknown] at created
    cases created
  · rw [processHandshake_waiting env n conn remoteAddr transport payload ephemeral now hs response
      result, unknown] at created
    cases created
  · rw [processHandshake_finished env n conn remoteAddr transport payload ephemeral now hs response
      session result] at created
    exact sessionEstablished_created env
      { n with pendingHandshakes := n.pendingHandshakes.set (transport, remoteAddr.text) hs } conn
      remoteAddr transport session now unknown created

end Peers

section Deliveries

variable {H : Type} {env : Env} {codec : Codec}

def LatePacket (codec : Codec) (packet : Bytes) : Prop :=
  ∃ message, packet = buildHandshakePacket (codec.wire message) ∧ Late message

theorem end_outgoing (d : Delivery H) {message : Message}
    (packet : d.hop.packet = buildHandshakePacket (codec.wire message))
    (direct : d.node.config.enableRelay = true → d.node.relayForward.get d.hop.source = none) :
    outgoing codec (d.result env codec).2 =
      (((d.node.pendingHandshake (.udp, d.hop.source) d.ephemeral d.now).processMessage
        message).bind fun result => result.2.1).toList.map fun reply =>
          (d.hop.source, buildHandshakePacket (codec.wire reply)) := by
  rw [Delivery.result, packet,
    receiveUDP_handshake env codec d.node d.hop.source d.ephemeral d.now message direct]
  have sent := processHandshake_outgoing codec env d.node none ⟨.udp, d.hop.source⟩ .udp message
    d.ephemeral d.now
  rw [processHandshake_replies] at sent
  exact sent

theorem end_sends_late (d : Delivery H) {message : Message}
    (packet : d.hop.packet = buildHandshakePacket (codec.wire message))
    (direct : d.node.config.enableRelay = true → d.node.relayForward.get d.hop.source = none)
    (later : ∀ ephemeral, message ≠ .one ephemeral) :
    ∀ sent ∈ outgoing codec (d.result env codec).2, LatePacket codec sent.2 := by
  rw [end_outgoing d packet direct]
  intro sent member
  obtain ⟨reply, replied, rfl⟩ := List.mem_map.mp member
  obtain ⟨⟨after, response, session⟩, result, rfl⟩ :=
    Option.bind_eq_some_iff.mp (Option.mem_toList.mp replied)
  exact ⟨reply, rfl, response_late result later⟩

theorem direct_or_relays (n : Node) (source : Bytes) :
    (n.config.enableRelay = true → n.relayForward.get source = none) ∨
      n.config.enableRelay = true ∧ ∃ addr, n.relayForward.get source = some addr := by
  by_cases relays : n.config.enableRelay = true
  · cases entry : n.relayForward.get source with
    | none => exact Or.inl fun _ => rfl
    | some addr => exact Or.inr ⟨relays, addr, rfl⟩
  · exact Or.inl fun enabled => absurd enabled relays

/-- Whatever a late packet leads to is late, wherever it arrives. -/
theorem late_sends_late (d : Delivery H) (late : LatePacket codec d.hop.packet) :
    ∀ sent ∈ outgoing codec (d.result env codec).2, LatePacket codec sent.2 := by
  obtain ⟨message, packet, isLate⟩ := late
  rcases direct_or_relays d.node d.hop.source with direct | ⟨relays, addr, entry⟩
  · apply end_sends_late d packet direct
    rintro ephemeral rfl
    cases isLate
  · rw [(relay_forwards env d packet relays entry).1]
    intro sent member
    rw [List.mem_singleton.mp member]
    exact ⟨message, packet, isLate⟩

end Deliveries

section Carried

variable (codec : Codec)

theorem carried_handshake (message : Message) :
    carried codec (buildHandshakePacket (codec.wire message)) = some message := by
  have tent : isTent (buildHandshakePacket (codec.wire message)) = true := isTent_tentPacket _ _
  have handshake : (buildHandshakePacket (codec.wire message)).getD 4 0 = packetTypeHandshake := rfl
  have body : (buildHandshakePacket (codec.wire message)).drop 5 = codec.wire message := rfl
  have unpacked : ¬(buildHandshakePacket (codec.wire message)).getD 4 0 = packetTypeRelay := by
    rw [handshake]
    decide
  simp only [carried, if_neg unpacked]
  rw [if_pos ⟨tent, handshake⟩, body, codec.read_wire]

theorem carried_relay {payload addr token : Bytes} {mode : UInt8} {message : Message}
    (parsed : parseRelayPacket payload =
      some ⟨mode, addr, token, buildHandshakePacket (codec.wire message)⟩) :
    carried codec (tentPacket packetTypeRelay payload) = some message := by
  have tent : isTent (buildHandshakePacket (codec.wire message)) = true := isTent_tentPacket _ _
  have handshake : (buildHandshakePacket (codec.wire message)).getD 4 0 = packetTypeHandshake := rfl
  have inside : ((parseRelayPacket ((tentPacket packetTypeRelay payload).drop 5)).map
      RelayPacket.inner).getD [] = buildHandshakePacket (codec.wire message) := by
    rw [show (tentPacket packetTypeRelay payload).drop 5 = payload from rfl, parsed]
    rfl
  have packed : (tentPacket packetTypeRelay payload).getD 4 0 = packetTypeRelay := rfl
  simp only [carried, if_pos packed, inside]
  rw [if_pos ⟨tent, handshake⟩]
  exact congrArg some (codec.read_wire message)

end Carried

section Legs

variable {H ι : Type} (env : Env) (codec : Codec) (plan : RelayPlan H ι)

/-- The origin keeps the handshake of this connect, and its target. -/
structure Waiting (node : H → Node) (connect : ι) : Prop where
  state : ((node (plan.origin connect)).pendingHandshakes.get
    (.udp, plan.addr plan.relay)).map HandshakeState.stage =
      some (.awaitTwo (.one (plan.ephemeral connect)))
  target : (node (plan.origin connect)).relayPendingTarget.get (plan.addr plan.relay) =
    some (plan.addr (plan.target connect))

structure Forwarding (node : H → Node) (connect : ι) : Prop where
  relays : (node plan.relay).config.enableRelay = true
  entry : (node plan.relay).relayForward.get (plan.addr (plan.target connect)) =
    some (plan.addr (plan.origin connect))

/-- The datagram with which a connect is on its way to its answer. -/
inductive Leg (node : H → Node) (connect : ι) : Hop → Prop where
  | request {payload token : Bytes}
      (parsed : parseRelayPacket payload = some ⟨relayModeForward,
        plan.addr (plan.target connect), token,
        buildHandshakePacket (codec.wire (.one (plan.ephemeral connect)))⟩)
      (waiting : Waiting plan node connect) :
      Leg node connect (plan.relayHop (plan.origin connect) plan.relay payload)
  | forwarded {payload token : Bytes}
      (parsed : parseRelayPacket payload = some ⟨relayModeTarget,
        plan.addr (plan.target connect), token,
        buildHandshakePacket (codec.wire (.one (plan.ephemeral connect)))⟩)
      (waiting : Waiting plan node connect) (forwarding : Forwarding plan node connect) :
      Leg node connect (plan.relayHop plan.relay (plan.target connect) payload)
  | reply {message : Message} (answers : answeredKey message = some (plan.ephemeral connect))
      (waiting : Waiting plan node connect) (forwarding : Forwarding plan node connect) :
      Leg node connect (plan.handshakeHop codec (plan.target connect) plan.relay message)
  | returned {message : Message} (answers : answeredKey message = some (plan.ephemeral connect))
      (waiting : Waiting plan node connect) :
      Leg node connect (plan.handshakeHop codec plan.relay (plan.origin connect) message)

def Expected (node : H → Node) (hop : Hop) : Prop :=
  LatePacket codec hop.packet ∨ ∃ connect, Leg codec plan node connect hop

structure Inv (s : RelayNet H ι) : Prop where
  apart : KeptApart env codec plan s
  hops : ∀ hop ∈ s.flight, Expected codec plan s.node hop

variable {env codec plan} {node after : H → Node} {connect : ι} {hop : Hop}

theorem opening_of_answered {message : Message} {key : Key} (answers : answeredKey message = some key) :
    openingKey message = some key := by
  cases message with
  | one ephemeral => cases answers
  | two first prologue ephemeral static => exact answers
  | three second static => cases answers

theorem Leg.concerns (leg : Leg codec plan node connect hop) : Concerns codec plan hop connect := by
  cases leg with
  | request parsed waiting =>
      exact congrArg (Option.bind · openingKey) (carried_relay codec parsed)
  | forwarded parsed waiting forwarding =>
      exact congrArg (Option.bind · openingKey) (carried_relay codec parsed)
  | @reply message answers waiting forwarding =>
      exact (congrArg (Option.bind · openingKey) (carried_handshake codec message)).trans
        (opening_of_answered answers)
  | @returned message answers waiting =>
      exact (congrArg (Option.bind · openingKey) (carried_handshake codec message)).trans
        (opening_of_answered answers)

theorem Leg.kept (leg : Leg codec plan node connect hop)
    (waits : Waiting plan node connect → Waiting plan after connect)
    (forwards : BehindRelay plan hop connect → Forwarding plan node connect →
      Forwarding plan after connect) : Leg codec plan after connect hop := by
  cases leg with
  | request parsed waiting => exact .request parsed (waits waiting)
  | forwarded parsed waiting forwarding =>
      exact .forwarded parsed (waits waiting) (forwards (Or.inr rfl) forwarding)
  | reply answers waiting forwarding =>
      exact .reply answers (waits waiting) (forwards (Or.inl rfl) forwarding)
  | returned answers waiting => exact .returned answers (waits waiting)

variable [DecidableEq H]

theorem Waiting.elsewhere (waiting : Waiting plan node connect) {host : H} (n : Node)
    (other : plan.origin connect ≠ host) :
    Waiting plan (Function.update node host n) connect := by
  refine ⟨?_, ?_⟩ <;> rw [Function.update_of_ne other]
  · exact waiting.state
  · exact waiting.target

theorem Forwarding.elsewhere (forwarding : Forwarding plan node connect) {host : H} (n : Node)
    (other : plan.relay ≠ host) : Forwarding plan (Function.update node host n) connect := by
  refine ⟨?_, ?_⟩ <;> rw [Function.update_of_ne other]
  · exact forwarding.relays
  · exact forwarding.entry

theorem Forwarding.at_relay (forwarding : Forwarding plan node connect) {n : Node}
    (config : n.config = (node plan.relay).config)
    (entry : n.relayForward.get (plan.addr (plan.target connect)) =
      (node plan.relay).relayForward.get (plan.addr (plan.target connect))) :
    Forwarding plan (Function.update node plan.relay n) connect := by
  refine ⟨?_, ?_⟩ <;> rw [Function.update_self]
  · rw [config]
    exact forwarding.relays
  · rw [entry]
    exact forwarding.entry

end Legs

section Arrivals

variable {H ι : Type} {env : Env} {codec : Codec} {plan : RelayPlan H ι} {node : H → Node}
  {s : RelayNet H ι}

theorem answered_late (d : Delivery H) (late : LatePacket codec d.hop.packet) :
    answered codec d = none := by
  obtain ⟨message, packet, isLate⟩ := late
  rw [answered, message_handshake d packet, Option.bind_some]
  cases message with
  | one ephemeral => rfl
  | two first prologue ephemeral static => exact isLate
  | three second static => rfl

theorem answered_relay (d : Delivery H) {payload : Bytes}
    (packet : d.hop.packet = tentPacket packetTypeRelay payload) : answered codec d = none := by
  rw [answered, message_relay d packet]
  rfl

theorem answered_eq (setup : Setup env plan) (d : Delivery H) {message : Message}
    (packet : d.hop.packet = buildHandshakePacket (codec.wire message)) {one other : ι}
    (answers : answeredKey message = some (plan.ephemeral one))
    (key : answered codec d = some (plan.ephemeral other)) : one = other := by
  rw [answered, message_handshake d packet, Option.bind_some, answers] at key
  exact setup.distinct (Option.some.inj key)

theorem handshake_forwards_as_before (d : Delivery H) {message : Message}
    (packet : d.hop.packet = buildHandshakePacket (codec.wire message)) :
    (d.result env codec).1.relayForward = d.node.relayForward := by
  rcases direct_or_relays d.node d.hop.source with direct | ⟨relays, addr, entry⟩
  · rw [Delivery.result, packet,
      receiveUDP_handshake env codec d.node d.hop.source d.ephemeral d.now message direct]
    exact (processHandshake_tables env d.node none ⟨.udp, d.hop.source⟩ .udp message d.ephemeral
      d.now).2.relayForward
  · rw [(relay_forwards env d packet relays entry).1]

theorem at_destination {destination : Bytes} {host there : H}
    (here : plan.host destination = some host) (addressed : destination = plan.addr there) :
    there = host :=
  plan.addr_injective (addressed.symm.trans ((plan.host_eq host _).mp here).symm)

variable [DecidableEq H] (setup : Setup env plan) {connect : ι} (ephemeral : Key) (now : Int)

def SendsExpected (env : Env) (codec : Codec) (plan : RelayPlan H ι) (node : H → Node)
    (d : Delivery H) : Prop :=
  ∀ sent ∈ outgoing codec (d.result env codec).2,
    Expected codec plan (Function.update node d.host (d.result env codec).1)
      ⟨plan.addr d.host, sent.1, sent.2⟩

theorem sendsExpected_silent (d : Delivery H) (silent : outgoing codec (d.result env codec).2 = []) :
    SendsExpected env codec plan node d := by
  intro sent member
  rw [silent] at member
  cases member

include setup

omit [DecidableEq H] in
theorem request_result {payload token : Bytes}
    (parsed : parseRelayPacket payload = some ⟨relayModeForward, plan.addr (plan.target connect),
      token, buildHandshakePacket (codec.wire (.one (plan.ephemeral connect)))⟩) :
    let result := Delivery.result env codec ⟨plan.relay, node plan.relay,
      plan.relayHop (plan.origin connect) plan.relay payload, ephemeral, now⟩
    result = (node plan.relay, []) ∨ (node plan.relay).config.enableRelay = true ∧
      result = (node plan.relay).relayForwardTo env (plan.addr (plan.origin connect))
        (plan.addr (plan.target connect))
        (buildHandshakePacket (codec.wire (.one (plan.ephemeral connect)))) now := by
  have admission : (node plan.relay).admitRelayPacket env payload now = none ∨ _ :=
    admitRelayPacket_cases parsed (setup.resolves connect)
  rcases admission with refused | admitted
  · exact Or.inl (receiveUDP_refused codec ephemeral refused)
  · exact Or.inr ⟨admitRelayPacket_relays admitted, receiveUDP_forward codec ephemeral admitted⟩

theorem request_arrives {payload token : Bytes}
    (parsed : parseRelayPacket payload = some ⟨relayModeForward, plan.addr (plan.target connect),
      token, buildHandshakePacket (codec.wire (.one (plan.ephemeral connect)))⟩)
    (waiting : Waiting plan node connect) :
    SendsExpected env codec plan node ⟨plan.relay, node plan.relay,
      plan.relayHop (plan.origin connect) plan.relay payload, ephemeral, now⟩ := by
  let d : Delivery H := ⟨plan.relay, node plan.relay,
    plan.relayHop (plan.origin connect) plan.relay payload, ephemeral, now⟩
  have cases : d.result env codec = _ ∨ _ ∧ d.result env codec = _ :=
    request_result setup ephemeral now parsed
  rcases cases with result | ⟨relays, result⟩
  · exact sendsExpected_silent d (congrArg (fun received => outgoing codec received.2) result)
  · rcases built : (node plan.relay).buildRelayPacket env relayModeTarget
      (plan.addr (plan.target connect))
      (buildHandshakePacket (codec.wire (.one (plan.ephemeral connect)))) now with _ | packet
    · apply sendsExpected_silent d
      simp only [result, Node.relayForwardTo, built]
      rfl
    · obtain ⟨forwarded, rfl, reparsed⟩ := buildRelayPacket_parsed env (node plan.relay) now built
      have sends : outgoing codec (d.result env codec).2 =
          [(plan.addr (plan.target connect), tentPacket packetTypeRelay forwarded)] := by
        simp only [result, Node.relayForwardTo, built]
        rfl
      intro sent member
      rw [sends] at member
      rw [List.mem_singleton.mp member]
      refine Or.inr ⟨connect, .forwarded reparsed (waiting.elsewhere _ (setup.origins connect))
        ⟨?_, ?_⟩⟩
      · rw [Function.update_self, result]
        exact relays
      · rw [Function.update_self, result]
        simp only [Node.relayForwardTo, GoMap.get_set, if_true]

theorem forwarded_arrives {payload token : Bytes}
    (parsed : parseRelayPacket payload = some ⟨relayModeTarget, plan.addr (plan.target connect),
      token, buildHandshakePacket (codec.wire (.one (plan.ephemeral connect)))⟩)
    (waiting : Waiting plan node connect) (forwarding : Forwarding plan node connect) :
    SendsExpected env codec plan node ⟨plan.target connect, node (plan.target connect),
      plan.relayHop plan.relay (plan.target connect) payload, ephemeral, now⟩ := by
  let d : Delivery H := ⟨plan.target connect, node (plan.target connect),
    plan.relayHop plan.relay (plan.target connect) payload, ephemeral, now⟩
  have admission : (node (plan.target connect)).admitRelayPacket env payload now = none ∨ _ :=
    admitRelayPacket_cases parsed (setup.resolves connect)
  rcases admission with refused | admitted
  · have result : d.result env codec = _ := receiveUDP_refused codec ephemeral refused
    exact sendsExpected_silent d (congrArg (fun received => outgoing codec received.2) result)
  · let inbound := (node (plan.target connect)).inboundFrom (plan.addr plan.relay)
    have result : d.result env codec = _ := receiveUDP_deliver codec ephemeral admitted
    have sends := processHandshake_outgoing codec env inbound none ⟨.udp, plan.addr plan.relay⟩ .udp
      (.one (plan.ephemeral connect)) ephemeral now
    rw [processHandshake_replies] at sends
    rcases responded : ((inbound.pendingHandshake (.udp, plan.addr plan.relay) ephemeral
      now).processMessage (.one (plan.ephemeral connect))).bind fun result => result.2.1 with
      _ | reply
    · rw [responded] at sends
      exact sendsExpected_silent d (result ▸ sends)
    · obtain ⟨⟨after, response, session⟩, answers, rfl⟩ := Option.bind_eq_some_iff.mp responded
      rw [responded] at sends
      intro sent member
      rw [result] at member
      have among : sent ∈ outgoing codec (inbound.processHandshake env none
        ⟨.udp, plan.addr plan.relay⟩ .udp (.one (plan.ephemeral connect)) ephemeral now).2 := member
      rw [sends] at among
      rw [List.mem_singleton.mp among]
      exact Or.inr ⟨connect, .reply (response_to_first answers)
        (waiting.elsewhere _ (setup.ends connect))
        (forwarding.elsewhere _ (setup.targets connect).symm)⟩

theorem reply_arrives {message : Message} (answers : answeredKey message = some (plan.ephemeral connect))
    (waiting : Waiting plan node connect) (forwarding : Forwarding plan node connect) :
    let d : Delivery H := ⟨plan.relay, node plan.relay,
      plan.handshakeHop codec (plan.target connect) plan.relay message, ephemeral, now⟩
    (∀ other, answered codec d = some (plan.ephemeral other) → Separate env codec plan other d) ∧
      SendsExpected env codec plan node d := by
  intro d
  obtain ⟨result, passed⟩ := relay_forwards env d rfl forwarding.relays forwarding.entry
  refine ⟨fun other key => ?_, ?_⟩
  · have same := answered_eq setup d rfl answers key
    subst same
    exact ⟨fun _ => passed, fun away => absurd rfl away, fun away => absurd rfl away,
      fun away => absurd rfl away⟩
  · intro sent member
    rw [result] at member
    rw [List.mem_singleton.mp member]
    exact Or.inr ⟨connect, .returned answers (waiting.elsewhere _ (setup.origins connect))⟩

theorem returned_arrives {message : Message}
    (answers : answeredKey message = some (plan.ephemeral connect))
    (waiting : Waiting plan node connect)
    (direct : (node (plan.origin connect)).relayForward.get (plan.addr plan.relay) = none) :
    let d : Delivery H := ⟨plan.origin connect, node (plan.origin connect),
      plan.handshakeHop codec plan.relay (plan.origin connect) message, ephemeral, now⟩
    (∀ other, answered codec d = some (plan.ephemeral other) → Separate env codec plan other d) ∧
      SendsExpected env codec plan node d := by
  intro d
  refine ⟨fun other key => ?_, ?_⟩
  · have same := answered_eq setup d rfl answers key
    subst same
    refine ⟨fun here => absurd here (setup.origins connect), fun _ => ⟨rfl, ?_⟩,
      fun _ => waiting.state, fun _ id p unknown created => ?_⟩
    · rw [message_handshake d rfl]
      exact incoming_handshake env codec d.node (plan.addr plan.relay) now message fun _ => direct
    · have result : d.result env codec = _ := receiveUDP_handshake env codec d.node
        (plan.addr plan.relay) ephemeral now message fun _ => direct
      rw [result] at created
      have target := processHandshake_created env d.node none ⟨.udp, plan.addr plan.relay⟩ .udp
        message ephemeral now unknown created
      rw [target]
      exact congrArg (Option.map (NetAddr.mk .udp)) waiting.target
  · intro sent member
    refine Or.inl (end_sends_late d rfl (fun _ => direct) ?_ sent member)
    rintro first rfl
    cases answers

/-- The delivery of a datagram that is expected: a reply in it is kept apart. -/
theorem expected_arrives {hop : Hop} {host : H} (expected : Expected codec plan node hop)
    (here : plan.host hop.destination = some host)
    (direct : ∀ connect, Concerns codec plan hop connect → host = plan.origin connect →
      (node host).relayForward.get (plan.addr plan.relay) = none) :
    let d : Delivery H := ⟨host, node host, hop, ephemeral, now⟩
    (∀ other, answered codec d = some (plan.ephemeral other) → Separate env codec plan other d) ∧
      SendsExpected env codec plan node d := by
  intro d
  have relayed {payload : Bytes} (packet : hop.packet = tentPacket packetTypeRelay payload) (other : ι)
      (answers : answered codec d = some (plan.ephemeral other)) : Separate env codec plan other d := by
    rw [answered_relay d packet] at answers
    cases answers
  rcases expected with late | ⟨connect, leg⟩
  · refine ⟨fun other answers => ?_, fun sent member => Or.inl (late_sends_late d late sent member)⟩
    rw [answered_late d late] at answers
    cases answers
  · have concerns := leg.concerns
    cases leg with
    | request parsed waiting =>
        obtain rfl := at_destination here rfl
        exact ⟨relayed rfl, request_arrives setup ephemeral now parsed waiting⟩
    | forwarded parsed waiting forwarding =>
        obtain rfl := at_destination here rfl
        exact ⟨relayed rfl, forwarded_arrives setup ephemeral now parsed waiting forwarding⟩
    | reply answers waiting forwarding =>
        obtain rfl := at_destination here rfl
        exact reply_arrives setup ephemeral now answers waiting forwarding
    | returned answers waiting =>
        obtain rfl := at_destination here rfl
        exact returned_arrives setup ephemeral now answers waiting (direct connect concerns rfl)

/-- The relay remembers the origin of a connect for as long as nobody else asks for its target. -/
theorem forwarding_arrives {hop : Hop} {other : ι} (forwarding : Forwarding plan node other)
    (expected : Expected codec plan node hop) (here : plan.host hop.destination = some plan.relay)
    (apart : ∀ connect, Concerns codec plan hop connect → plan.target other ≠ plan.target connect) :
    Forwarding plan (Function.update node plan.relay
      (Delivery.result env codec ⟨plan.relay, node plan.relay, hop, ephemeral, now⟩).1) other := by
  let d : Delivery H := ⟨plan.relay, node plan.relay, hop, ephemeral, now⟩
  have config : (d.result env codec).1.config = (node plan.relay).config :=
    (receiveUDP_frame env codec d.node d.hop.source d.hop.packet d.ephemeral d.now).2
  have handshake {message : Message}
      (packet : hop.packet = buildHandshakePacket (codec.wire message)) :
      Forwarding plan (Function.update node plan.relay (d.result env codec).1) other :=
    forwarding.at_relay config (by rw [handshake_forwards_as_before d packet])
  rcases expected with ⟨message, packet, _⟩ | ⟨connect, leg⟩
  · exact handshake packet
  · have concerns := leg.concerns
    cases leg with
    | @request payload token parsed waiting =>
        have cases : d.result env codec = _ ∨ _ ∧ d.result env codec = _ :=
          request_result setup ephemeral now parsed
        apply forwarding.at_relay config
        rcases cases with result | ⟨_, result⟩
        · rw [result]
        · have differs : plan.addr (plan.target other) ≠ plan.addr (plan.target connect) :=
            fun same => apart connect concerns (plan.addr_injective same)
          rw [result]
          simp only [Node.relayForwardTo, GoMap.get_set, if_neg differs]
    | forwarded parsed waiting _ => exact absurd (at_destination here rfl) (setup.targets connect)
    | reply answers waiting _ => exact handshake rfl
    | returned answers waiting => exact absurd (at_destination here rfl) (setup.origins connect)

end Arrivals

section Steps

variable {H ι : Type} [DecidableEq H] [DecidableEq ι] {env : Env} {codec : Codec}
  {plan : RelayPlan H ι} {s : RelayNet H ι} (setup : Setup env plan) (inv : Inv env codec plan s)

omit [DecidableEq H] [DecidableEq ι] in
theorem keptApart_append {history : List (Delivery H)}
    (apart : ∀ d ∈ history, ∀ connect, answered codec d = some (plan.ephemeral connect) →
      Separate env codec plan connect d)
    (d : Delivery H)
    (separate : ∀ connect, answered codec d = some (plan.ephemeral connect) →
      Separate env codec plan connect d) :
    ∀ each ∈ history ++ [d], ∀ connect, answered codec each = some (plan.ephemeral connect) →
      Separate env codec plan connect each := by
  intro each member
  rcases List.mem_append.mp member with earlier | last
  · exact apart each earlier
  · rw [List.mem_singleton.mp last]
    exact separate

include setup inv

theorem inv_deliver (index : Nat) (ephemeral : Key) (now : Int)
    (apart : Apart codec plan s (.deliver index ephemeral now)) :
    Inv env codec plan (RelayNet.step env codec plan s (.deliver index ephemeral now)) := by
  cases found : s.flight[index]? with
  | none =>
      simp only [RelayNet.step, found]
      exact inv
  | some hop =>
      have expected := inv.hops hop (List.mem_of_getElem? found)
      cases here : plan.host hop.destination with
      | none =>
          simp only [RelayNet.step, found, here]
          exact ⟨inv.apart, fun other member => inv.hops other (List.mem_of_mem_eraseIdx member)⟩
      | some host =>
          simp only [RelayNet.step, found, here]
          obtain ⟨direct, undisturbed⟩ := apart hop found host here
          obtain ⟨separate, sends⟩ := expected_arrives setup ephemeral now expected here direct
          refine ⟨keptApart_append inv.apart _ separate, fun other member => ?_⟩
          rcases List.mem_append.mp member with waits | posted
          · rcases inv.hops other (List.mem_of_mem_eraseIdx waits) with late | ⟨connect, leg⟩
            · exact Or.inl late
            · obtain ⟨away, unasked⟩ := undisturbed other waits connect leg.concerns
              refine Or.inr ⟨connect, leg.kept (·.elsewhere _ away) fun behind forwarding => ?_⟩
              by_cases relay : host = plan.relay
              · subst relay
                exact forwarding_arrives setup ephemeral now forwarding expected here
                  (unasked rfl behind)
              · exact forwarding.elsewhere _ (Ne.symm relay)
          · obtain ⟨sent, among, rfl⟩ := List.mem_map.mp posted
            exact sends sent among

theorem inv_connect (connect : ι) (now : Int)
    (apart : Apart codec plan s (.connectViaRelay connect now)) :
    Inv env codec plan (RelayNet.step env codec plan s (.connectViaRelay connect now)) := by
  cases started : s.started connect with
  | true =>
      simp only [RelayNet.step, started, if_true]
      exact inv
  | false =>
      simp only [RelayNet.step, started, Bool.false_eq_true, if_false]
      have kept (n : Node) : ∀ hop ∈ s.flight,
          Expected codec plan (Function.update s.node (plan.origin connect) n) hop := by
        intro hop member
        rcases inv.hops hop member with late | ⟨other, leg⟩
        · exact Or.inl late
        · have away := apart started hop member other leg.concerns
          exact Or.inr ⟨other, leg.kept (·.elsewhere n away)
            fun _ forwarding => forwarding.elsewhere n (setup.origins connect).symm⟩
      refine ⟨inv.apart, fun hop member => ?_⟩
      rcases List.mem_append.mp member with earlier | posted
      · exact kept _ hop earlier
      · rcases connectViaRelay_cases env codec (s.node (plan.origin connect))
          (plan.ephemeral connect) now (setup.resolves connect) (plan.addr plan.relay) with
          ⟨_, unsent⟩ | ⟨payload, parsed, sent⟩
        · rw [unsent] at posted
          cases posted
        · rw [sent] at posted ⊢
          rw [List.mem_singleton.mp posted]
          refine Or.inr ⟨connect, .request parsed ⟨?_, ?_⟩⟩
          · simp only [Function.update_self, Node.registerRelayHandshake, GoMap.get_set, if_true]
            rfl
          · simp only [Function.update_self, Node.registerRelayHandshake, GoMap.get_set, if_true]

theorem inv_step (event : RelayEvent ι) (apart : Apart codec plan s event) :
    Inv env codec plan (RelayNet.step env codec plan s event) := by
  cases event with
  | connectViaRelay connect now => exact inv_connect setup inv connect now apart
  | deliver index ephemeral now => exact inv_deliver setup inv index ephemeral now apart

end Steps

section

variable {H ι : Type} [DecidableEq H] [DecidableEq ι] {env : Env} {codec : Codec}
  {plan : RelayPlan H ι}

/-- Connects through one relay are kept apart where those that overlap share no end. -/
theorem keptApart_throughout (setup : Setup env plan) (node : H → Node)
    (events : List (RelayEvent ι))
    (apart : Along (RelayNet.step env codec plan) (Apart codec plan) (RelayNet.begin node) events) :
    Throughout (RelayNet.step env codec plan) (KeptApart env codec plan) (RelayNet.begin node)
      events := by
  have initially : Inv env codec plan (RelayNet.begin node) :=
    ⟨fun _ member => absurd member List.not_mem_nil, fun _ member => absurd member List.not_mem_nil⟩
  have always := throughout_keeps _ events initially apart
    fun _ event inv allowed => inv_step setup inv event allowed
  exact throughout_mono _ events always fun _ inv => inv.apart

end

namespace Example

inductive Host where
  | a
  | b
  | r
  | c
  | d
  deriving DecidableEq, Repr

def key : Host → Key
  | .a => [7]
  | .b => [8]
  | .r => [9]
  | .c => [10]
  | .d => [11]

def plan (origin target : Bool → Host) : RelayPlan Host Bool where
  addr := key
  host text := if text = [7] then some .a else if text = [8] then some .b
    else if text = [9] then some .r else if text = [10] then some .c
    else if text = [11] then some .d else none
  host_eq host text := by
    cases host <;> grind [key]
  relay := .r
  origin := origin
  target := target
  ephemeral
    | false => [1]
    | true => [2]

def node (host : Host) : Node :=
  startedNode .padded { defaultConfig with networkPassword := [1] } (newIdentity .padded (key host))
    true

def fork : RelayPlan Host Bool := plan (fun _ => .a) fun second => if second then .c else .b

def join : RelayPlan Host Bool := plan (fun second => if second then .b else .a) fun _ => .c

def pairs : RelayPlan Host Bool :=
  plan (fun second => if second then .c else .a) fun second => if second then .d else .b

theorem setup_pairs : Setup .padded pairs where
  origins := by decide
  targets := by decide
  ends := by decide
  resolves := by decide
  distinct := by
    intro one other same
    revert one other
    decide

abbrev runOf (plan : RelayPlan Host Bool) (events : List (RelayEvent Bool)) : RelayNet Host Bool :=
  run (RelayNet.step .padded .plain plan) (RelayNet.begin node) events

def abreast : List (RelayEvent Bool) :=
  .connectViaRelay false 0 :: .connectViaRelay true 1 ::
    (List.range 14).map fun time => .deliver 0 [20 + UInt8.ofNat time] (time + 2)

/-- Two connects that share only the relay, in step. -/
theorem keptApart_throughout_abreast :
    Throughout (RelayNet.step .padded .plain pairs) (KeptApart .padded .plain pairs)
        (RelayNet.begin node) abreast ∧
      ∀ ends ∈ [(Host.a, Host.b), (.c, .d)],
        (((runOf pairs abreast).node ends.1).peers.get (peerIDOf .padded (key ends.2))).map
          Peer.relayTarget = some (some ⟨.udp, key ends.2⟩) :=
  ⟨keptApart_throughout setup_pairs node abreast (by decide +kernel), by decide +kernel⟩

def overtaken : List (RelayEvent Bool) :=
  [.connectViaRelay false 0, .connectViaRelay true 1, .deliver 0 [20] 2, .deliver 1 [21] 3,
    .deliver 1 [22] 4, .deliver 1 [23] 5]

def crossed : List (RelayEvent Bool) :=
  [.connectViaRelay false 0, .connectViaRelay true 1, .deliver 0 [20] 2, .deliver 0 [21] 3,
    .deliver 0 [22] 4, .deliver 1 [23] 5]

/-- With two targets the reply to the first connect is taken to the handshake of the second. With two
origins the relay sends the reply to the first origin to the second. -/
theorem overlapping_connects_mixed :
    (¬Throughout (RelayNet.step .padded .plain fork) (KeptApart .padded .plain fork)
        (RelayNet.begin node) overtaken ∧
      ∃ d ∈ (runOf fork overtaken).history, d.host = .a ∧ answered .plain d = some [1] ∧
        (d.node.pendingHandshakes.get (.udp, key .r)).map HandshakeState.stage =
          some (.awaitTwo (.one [2]))) ∧
    (¬Throughout (RelayNet.step .padded .plain join) (KeptApart .padded .plain join)
        (RelayNet.begin node) crossed ∧
      ∃ d ∈ (runOf join crossed).history, d.host = .r ∧ answered .plain d = some [1] ∧
        (d.read .padded).2 = [.writeToUDP (key .b) d.hop.packet]) := by
  have taken : ∃ d ∈ (runOf fork overtaken).history, d.host = .a ∧ answered .plain d = some [1] ∧
      (d.node.pendingHandshakes.get (.udp, key .r)).map HandshakeState.stage =
        some (.awaitTwo (.one [2])) := by decide +kernel
  have sent : ∃ d ∈ (runOf join crossed).history, d.host = .r ∧ answered .plain d = some [1] ∧
      (d.read .padded).2 = [.writeToUDP (key .b) d.hop.packet] := by decide +kernel
  refine ⟨⟨fun apart => ?_, taken⟩, fun apart => ?_, sent⟩
  · obtain ⟨d, member, here, answers, state⟩ := taken
    have separate := throughout_run _ _ apart d member false answers
    have other := separate.state (by rw [here]; decide)
    rw [show fork.addr fork.relay = key .r from rfl, state] at other
    exact absurd other (by decide)
  · obtain ⟨d, member, here, answers, written⟩ := sent
    have separate := throughout_run _ _ apart d member false answers
    rw [separate.relayed here] at written
    exact absurd (congrArg (List.map fun
      | .writeToUDP addr _ => addr
      | _ => []) written) (by simp [join, plan, key])

end Example

end Tenet.RelaySeparate
