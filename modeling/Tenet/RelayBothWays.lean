import Tenet.RelayNet

/-! One handshake through a relay. Its first two messages find their way, but the third is sent to the
relay unwrapped, and the relay passes it on only if it happens to relay for the origin too. -/

namespace Tenet.RelayBothWays

open Lib Lib.Run

/-- One connect between three nodes, with the static keys of its two ends and their prologue. -/
structure Relayed (H : Type) extends RelayPlan H Unit where
  keyO : Key
  keyT : Key
  prologue : Bytes

namespace Relayed

variable {H : Type} (plan : Relayed H)

abbrev O : H := plan.origin ()

abbrev T : H := plan.target ()

def first : Message := .one (plan.ephemeral ())

def second (drawn : Key) : Message := .two plan.first plan.prologue drawn plan.keyT

def third (drawn : Key) : Message := .three (plan.second drawn) plan.keyO

end Relayed

def Holds (n : Node) (peerID : Bytes) : Prop :=
  ∃ p session, n.peers.get peerID = some p ∧ p.session = some session

/-- The node has a session with the peer, or does not know it and has room. -/
def Welcomes (n : Node) (peerID : Bytes) : Prop :=
  Holds n peerID ∨ n.peers.get peerID = none ∧ n.isFull = false

section

variable {H : Type} [DecidableEq H] (env : Env) (codec : Codec) (plan : Relayed H)

abbrev step : RelayNet H Unit → RelayEvent Unit → RelayNet H Unit :=
  RelayNet.step env codec plan.toRelayPlan

def Reached (s : RelayNet H Unit) (host : H) (message : Message) : Prop :=
  ∃ d ∈ s.history, d.host = host ∧
    d.handled env codec = some (⟨.udp, plan.addr plan.relay⟩, message)

/-- What the relay gets from one end goes to the other end and to no handler of the relay. When
nothing is on its way, the three messages have reached their ends, which have a session. -/
structure BothWays (s : RelayNet H Unit) : Prop where
  toTarget : ∀ d ∈ s.history, d.host = plan.relay → (d.message codec).isSome = true →
    d.hop.source = plan.addr plan.O → d.PassedTo env (plan.addr plan.T)
  toOrigin : ∀ d ∈ s.history, d.host = plan.relay → (d.message codec).isSome = true →
    d.hop.source = plan.addr plan.T → d.PassedTo env (plan.addr plan.O)
  settled : s.started () = true → s.flight = [] →
    (∃ drawn, Reached env codec plan s plan.T plan.first ∧
      Reached env codec plan s plan.O (plan.second drawn) ∧
      Reached env codec plan s plan.T (plan.third drawn)) ∧
    Holds (s.node plan.O) (peerIDOf env plan.keyT) ∧ Holds (s.node plan.T) (peerIDOf env plan.keyO)

/-- What a host has to be like for a delivery to do what it is meant to: relay tokens are accepted;
the relay relays for the origin as well, to the target; the ends do not relay for the relay and have
room; and the target has no handshake pending with the relay when the first message arrives. -/
structure Clear (d : Delivery H) : Prop where
  accepts : d.node.AcceptsToken env d.hop.packet d.now
  returns : d.host = plan.relay → d.hop.source = plan.addr plan.O → (d.message codec).isSome = true →
    d.node.relayForward.get (plan.addr plan.O) = some (plan.addr plan.T)
  direct : d.host ≠ plan.relay → d.node.relayForward.get (plan.addr plan.relay) = none
  origin : d.host = plan.O → Welcomes d.node (peerIDOf env plan.keyT)
  target : d.host = plan.T → Welcomes d.node (peerIDOf env plan.keyO)
  idle : d.host = plan.T → d.message codec = none →
    d.node.pendingHandshakes.get (.udp, plan.addr plan.relay) = none

instance decidableHolds (n : Node) (peerID : Bytes) : Decidable (Holds n peerID) :=
  decidable_of_iff (((n.peers.get peerID).bind Peer.session).isSome = true) (by
    rw [Option.isSome_iff_exists]
    simp only [Option.bind_eq_some_iff]
    exact exists_comm.trans (exists_congr fun p => exists_congr fun session => Iff.rfl))

instance decidableWelcomes (n : Node) (peerID : Bytes) : Decidable (Welcomes n peerID) := by
  unfold Welcomes
  infer_instance

instance decidableClear (d : Delivery H) : Decidable (Clear env codec plan d) :=
  decidable_of_iff
    (d.node.AcceptsToken env d.hop.packet d.now ∧
      (d.host = plan.relay → d.hop.source = plan.addr plan.O → (d.message codec).isSome = true →
        d.node.relayForward.get (plan.addr plan.O) = some (plan.addr plan.T)) ∧
      (d.host ≠ plan.relay → d.node.relayForward.get (plan.addr plan.relay) = none) ∧
      (d.host = plan.O → Welcomes d.node (peerIDOf env plan.keyT)) ∧
      (d.host = plan.T → Welcomes d.node (peerIDOf env plan.keyO)) ∧
      (d.host = plan.T → d.message codec = none →
        d.node.pendingHandshakes.get (.udp, plan.addr plan.relay) = none))
    ⟨fun ⟨accepts, returns, direct, origin, target, idle⟩ =>
        ⟨accepts, returns, direct, origin, target, idle⟩,
      fun clear => ⟨clear.accepts, clear.returns, clear.direct, clear.origin, clear.target,
        clear.idle⟩⟩

def ClearStep (s : RelayNet H Unit) : RelayEvent Unit → Prop
  | .connectViaRelay _ _ => True
  | .deliver index ephemeral now => ∀ hop ∈ s.flight[index]?,
      ∀ host ∈ plan.host hop.destination,
        Clear env codec plan ⟨host, s.node host, hop, ephemeral, now⟩

instance decidableClearStep (s : RelayNet H Unit) (event : RelayEvent Unit) :
    Decidable (ClearStep env codec plan s event) := by
  cases event <;> unfold ClearStep <;> infer_instance

structure Setup (node : H → Node) : Prop where
  originRelay : plan.O ≠ plan.relay
  targetRelay : plan.T ≠ plan.relay
  ends : plan.O ≠ plan.T
  resolves : env.resolveUDPAddr (plan.addr plan.T) = some (plan.addr plan.T)
  short : (plan.addr plan.T).length ≤ 255
  relays : ∀ host, (node host).config.enableRelay = true
  keyO : (node plan.O).identity.noisePublicKey = plan.keyO
  keyT : (node plan.T).identity.noisePublicKey = plan.keyT
  prologueO : prologuePrefix ++ (node plan.O).config.networkPassword = plan.prologue
  prologueT : prologuePrefix ++ (node plan.T).config.networkPassword = plan.prologue

end

section Holding

variable {env : Env}

theorem upgradeTransport_holds (p : Peer) (addr : NetAddr) (conn : Option ConnId)
    (transport : Transport) (session : Session) (now : Int) (live : ∃ old, p.session = some old) :
    ∃ kept, (p.upgradeTransport addr conn transport session now).1.session = some kept := by
  rcases p.upgradeTransport_session addr conn transport session now with same | replaced
  · rw [same]
    exact live
  · exact ⟨session, replaced⟩

theorem sessionEstablished_holds (n : Node) (conn : Option ConnId) (remoteAddr : NetAddr)
    (transport : Transport) (session : Session) (now : Int)
    (welcomes : Welcomes n (peerIDOf env session.remotePublicKey)) :
    Holds (n.sessionEstablished env conn remoteAddr transport session now).1
      (peerIDOf env session.remotePublicKey) := by
  rcases welcomes with ⟨p, old, stored, live⟩ | ⟨unknown, room⟩
  · have named := n.peers.get_id _ p stored
    obtain ⟨linkMode, relayTarget, lastSeen, peers⟩ :=
      sessionEstablished_known env n conn remoteAddr transport session now p stored
    obtain ⟨kept, has⟩ := upgradeTransport_holds { p with linkMode, relayTarget } remoteAddr conn
      transport session now ⟨old, live⟩
    have id := Peer.upgradeTransport_id { p with linkMode, relayTarget } remoteAddr conn transport
      session now
    refine ⟨(Peer.upgradeTransport { p with linkMode, relayTarget } remoteAddr conn transport
      session now).1.updateLastSeen lastSeen, kept, ?_, has⟩
    rw [peers, PeerStore.get_add]
    exact if_pos (id.trans named).symm
  · obtain ⟨p, named, live, _, _, peers, _⟩ := sessionEstablished_new env n conn remoteAddr transport
      session now unknown room
    refine ⟨p, session, ?_, live⟩
    rw [peers, PeerStore.get_add, if_pos named.symm]

theorem processHandshake_holds (n : Node) (conn : Option ConnId) (remoteAddr : NetAddr)
    (transport : Transport) (message : Message) (ephemeral : Key) (now : Int)
    {hs last : HandshakeState} {response : Option Message} {session : Session}
    (pending : n.pendingHandshakes.get (transport, remoteAddr.text) = some hs)
    (finished : hs.processMessage message = some (last, response, some session))
    (welcomes : Welcomes n (peerIDOf env session.remotePublicKey)) :
    Holds (n.processHandshake env conn remoteAddr transport message ephemeral now).1
      (peerIDOf env session.remotePublicKey) := by
  have taken := pendingHandshake_of_get n remoteAddr transport ephemeral now hs pending
  rw [processHandshake_finished env n conn remoteAddr transport message ephemeral now last response
    session (by rw [taken, finished])]
  exact sessionEstablished_holds _ conn remoteAddr transport session now welcomes

end Holding

section Phases

variable {H : Type} [DecidableEq H] (env : Env) (codec : Codec) (plan : Relayed H)

def Waiting (s : RelayNet H Unit) : Prop :=
  ∃ hs, (s.node plan.O).pendingHandshakes.get (.udp, plan.addr plan.relay) = some hs ∧
    Initiating hs plan.first plan.prologue plan.keyO

structure Answered (s : RelayNet H Unit) (drawn : Key) : Prop where
  pending : ∃ hs, (s.node plan.T).pendingHandshakes.get (.udp, plan.addr plan.relay) = some hs ∧
    Responding hs (plan.second drawn)
  reached : Reached env codec plan s plan.T plan.first

structure Finished (s : RelayNet H Unit) (drawn : Key) : Prop where
  holds : Holds (s.node plan.O) (peerIDOf env plan.keyT)
  reached : Reached env codec plan s plan.O (plan.second drawn)

def Forwarding (s : RelayNet H Unit) : Prop :=
  (s.node plan.relay).relayForward.get (plan.addr plan.T) = some (plan.addr plan.O)

/-- The seven places of the handshake on its way between the three nodes. -/
inductive Phase (s : RelayNet H Unit) : Prop where
  | one (payload token : Bytes) (flight : s.flight = [plan.relayHop plan.O plan.relay payload])
      (parsed : parseRelayPacket payload = some ⟨relayModeForward, plan.addr plan.T, token,
        buildHandshakePacket (codec.wire plan.first)⟩)
      (waiting : Waiting plan s)
  | two (payload token : Bytes) (flight : s.flight = [plan.relayHop plan.relay plan.T payload])
      (parsed : parseRelayPacket payload = some ⟨relayModeTarget, plan.addr plan.T, token,
        buildHandshakePacket (codec.wire plan.first)⟩)
      (waiting : Waiting plan s) (forwarding : Forwarding plan s)
  | three (drawn : Key)
      (flight : s.flight = [plan.handshakeHop codec plan.T plan.relay (plan.second drawn)])
      (waiting : Waiting plan s) (forwarding : Forwarding plan s)
      (answered : Answered env codec plan s drawn)
  | four (drawn : Key)
      (flight : s.flight = [plan.handshakeHop codec plan.relay plan.O (plan.second drawn)])
      (waiting : Waiting plan s) (answered : Answered env codec plan s drawn)
  | five (drawn : Key)
      (flight : s.flight = [plan.handshakeHop codec plan.O plan.relay (plan.third drawn)])
      (answered : Answered env codec plan s drawn) (finished : Finished env codec plan s drawn)
  | six (drawn : Key)
      (flight : s.flight = [plan.handshakeHop codec plan.relay plan.T (plan.third drawn)])
      (answered : Answered env codec plan s drawn) (finished : Finished env codec plan s drawn)
  | seven (drawn : Key) (flight : s.flight = [])
      (first : Reached env codec plan s plan.T plan.first)
      (finished : Finished env codec plan s drawn)
      (last : Reached env codec plan s plan.T (plan.third drawn))
      (holds : Holds (s.node plan.T) (peerIDOf env plan.keyO))

def Passes (d : Delivery H) : Prop :=
  d.host = plan.relay → (d.message codec).isSome = true →
    (d.hop.source = plan.addr plan.O → d.PassedTo env (plan.addr plan.T)) ∧
    (d.hop.source = plan.addr plan.T → d.PassedTo env (plan.addr plan.O))

structure Inv (s : RelayNet H Unit) : Prop where
  setup : Setup env plan s.node
  passed : ∀ d ∈ s.history, Passes env codec plan d
  phase : s.started () = false ∧ s.flight = [] ∨ s.started () = true ∧ Phase env codec plan s

end Phases

section Steps

variable {H : Type} [DecidableEq H] {env : Env} {codec : Codec} {plan : Relayed H}
  {s : RelayNet H Unit}

theorem setup_update {node : H → Node} (setup : Setup env plan node) (host : H) (n : Node)
    (identity : n.identity = (node host).identity) (config : n.config = (node host).config) :
    Setup env plan (Function.update node host n) := by
  have sameIdentity (each : H) :
      (Function.update node host n each).identity = (node each).identity := by
    by_cases here : each = host
    · rw [here, Function.update_self, identity]
    · rw [Function.update_of_ne here]
  have sameConfig (each : H) : (Function.update node host n each).config = (node each).config := by
    by_cases here : each = host
    · rw [here, Function.update_self, config]
    · rw [Function.update_of_ne here]
  exact
    { originRelay := setup.originRelay
      targetRelay := setup.targetRelay
      ends := setup.ends
      resolves := setup.resolves
      short := setup.short
      relays := fun each => by rw [sameConfig, setup.relays]
      keyO := by rw [sameIdentity, setup.keyO]
      keyT := by rw [sameIdentity, setup.keyT]
      prologueO := by rw [sameConfig, setup.prologueO]
      prologueT := by rw [sameConfig, setup.prologueT] }

theorem inv_delivered (inv : Inv env codec plan s) (d : Delivery H) (here : d.node = s.node d.host)
    (started : s.started () = true) (passes : Passes env codec plan d)
    (phase : Phase env codec plan (RelayNet.delivered env codec plan.toRelayPlan s d)) :
    Inv env codec plan (RelayNet.delivered env codec plan.toRelayPlan s d) := by
  obtain ⟨identity, config⟩ := receiveUDP_frame env codec d.node d.hop.source d.hop.packet
    d.ephemeral d.now
  refine ⟨?_, ?_, Or.inr ⟨started, phase⟩⟩
  · apply setup_update inv.setup d.host
    · rw [← here]
      exact identity
    · rw [← here]
      exact config
  · intro each member
    rcases List.mem_append.mp member with earlier | last
    · exact inv.passed each earlier
    · rw [List.mem_singleton.mp last]
      exact passes

section Delivered

variable (d : Delivery H)

theorem reached_delivered {host : H} {message : Message}
    (reached : Reached env codec plan s host message) :
    Reached env codec plan (RelayNet.delivered env codec plan.toRelayPlan s d) host message := by
  obtain ⟨earlier, member, rest⟩ := reached
  exact ⟨earlier, List.mem_append_left _ member, rest⟩

theorem reached_now {message : Message}
    (handled : d.handled env codec = some (⟨.udp, plan.addr plan.relay⟩, message)) :
    Reached env codec plan (RelayNet.delivered env codec plan.toRelayPlan s d) d.host message :=
  ⟨d, List.mem_append_right _ (List.mem_singleton.mpr rfl), rfl, handled⟩

theorem waiting_delivered (waiting : Waiting plan s) (other : plan.O ≠ d.host) :
    Waiting plan (RelayNet.delivered env codec plan.toRelayPlan s d) := by
  unfold Waiting
  rw [RelayNet.node_delivered_other env codec plan.toRelayPlan s d other]
  exact waiting

theorem answered_delivered {drawn : Key} (answered : Answered env codec plan s drawn)
    (other : plan.T ≠ d.host) :
    Answered env codec plan (RelayNet.delivered env codec plan.toRelayPlan s d) drawn := by
  refine ⟨?_, reached_delivered d answered.reached⟩
  rw [RelayNet.node_delivered_other env codec plan.toRelayPlan s d other]
  exact answered.pending

theorem finished_delivered {drawn : Key} (finished : Finished env codec plan s drawn)
    (other : plan.O ≠ d.host) :
    Finished env codec plan (RelayNet.delivered env codec plan.toRelayPlan s d) drawn := by
  refine ⟨?_, reached_delivered d finished.reached⟩
  rw [RelayNet.node_delivered_other env codec plan.toRelayPlan s d other]
  exact finished.holds

end Delivered

omit [DecidableEq H] in
theorem end_finishes (d : Delivery H) {source : Bytes} {message : Message}
    {hs last : HandshakeState} {response : Option Message} {session : Session}
    (hop : d.hop.packet = buildHandshakePacket (codec.wire message)) (sender : d.hop.source = source)
    (direct : d.node.relayForward.get source = none)
    (pending : d.node.pendingHandshakes.get (.udp, source) = some hs)
    (finished : hs.processMessage message = some (last, response, some session))
    (welcomes : Welcomes d.node (peerIDOf env session.remotePublicKey)) :
    Holds (d.result env codec).1 (peerIDOf env session.remotePublicKey) ∧
      outgoing codec (d.result env codec).2 =
        (response.toList.map fun reply => (source, buildHandshakePacket (codec.wire reply))) ∧
      d.handled env codec = some (⟨.udp, source⟩, message) := by
  have result := receiveUDP_handshake env codec d.node source d.ephemeral d.now message
    fun _ => direct
  rw [Delivery.result, Delivery.handled, Delivery.read, hop, sender, result]
  refine ⟨?_, ?_, ?_⟩
  · exact processHandshake_holds d.node none ⟨.udp, source⟩ .udp message d.ephemeral d.now pending
      finished welcomes
  · have replies := (processHandshake_finished_entry env d.node none ⟨.udp, source⟩ .udp message
      d.ephemeral d.now hs last response session pending finished).2
    have sent := processHandshake_outgoing codec env d.node none ⟨.udp, source⟩ .udp message
      d.ephemeral d.now
    rw [replies] at sent
    exact sent
  · exact incoming_handshake env codec d.node source d.now message fun _ => direct

theorem inv_connect (inv : Inv env codec plan s) (unstarted : s.started () = false)
    (flight : s.flight = []) (now : Int) :
    Inv env codec plan (step env codec plan s (.connectViaRelay () now)) := by
  obtain ⟨packet, built⟩ := buildRelayPacket_short env (s.node plan.O) now relayModeForward
    (plan.addr plan.T) (buildHandshakePacket (codec.wire plan.first)) inv.setup.short
  rcases connectViaRelay_cases env codec (s.node plan.O) (plan.ephemeral ()) now inv.setup.resolves
    (plan.addr plan.relay) with ⟨unbuilt, _⟩ | ⟨payload, parsed, sent⟩
  · rw [Relayed.first, unbuilt] at built
    cases built
  · have after : step env codec plan s (.connectViaRelay () now) =
        { s with
          node := Function.update s.node plan.O ((s.node plan.O).registerRelayHandshake
            (plan.addr plan.relay) (plan.addr plan.T) (newInitiatorHandshake
              (s.node plan.O).identity.noisePublicKey (s.node plan.O).config.networkPassword
              (plan.ephemeral ()) now).1)
          flight := [plan.relayHop plan.O plan.relay payload]
          started := Function.update s.started () true } := by
      simp only [step, RelayNet.step, unstarted, flight, sent]
      rfl
    rw [after]
    refine ⟨setup_update inv.setup plan.O _ rfl rfl, inv.passed,
      Or.inr ⟨Function.update_self () true s.started, ?_⟩⟩
    refine .one payload _ rfl parsed ⟨(newInitiatorHandshake (s.node plan.O).identity.noisePublicKey
      (s.node plan.O).config.networkPassword (plan.ephemeral ()) now).1, ?_, ?_⟩
    · simp only [Function.update_self, Node.registerRelayHandshake, GoMap.get_set, if_true]
    · exact ⟨rfl, inv.setup.prologueO, inv.setup.keyO, rfl, rfl⟩

variable (inv : Inv env codec plan s) (started : s.started () = true) (ephemeral : Key) (now : Int)

include inv started

theorem inv_one {payload token : Bytes}
    (parsed : parseRelayPacket payload = some ⟨relayModeForward, plan.addr plan.T, token,
      buildHandshakePacket (codec.wire plan.first)⟩)
    (waiting : Waiting plan s)
    (clear : Clear env codec plan ⟨plan.relay, s.node plan.relay,
      plan.relayHop plan.O plan.relay payload, ephemeral, now⟩) :
    Inv env codec plan (RelayNet.delivered env codec plan.toRelayPlan s ⟨plan.relay,
      s.node plan.relay, plan.relayHop plan.O plan.relay payload, ephemeral, now⟩) := by
  let d : Delivery H := ⟨plan.relay, s.node plan.relay, plan.relayHop plan.O plan.relay payload,
    ephemeral, now⟩
  have admitted := admitRelayPacket_accepted parsed inv.setup.resolves (inv.setup.relays plan.relay)
    (List.cons_ne_nil _ _) clear.accepts
  have result : d.result env codec = (s.node plan.relay).relayForwardTo env (plan.addr plan.O)
      (plan.addr plan.T) (buildHandshakePacket (codec.wire plan.first)) now :=
    receiveUDP_forward codec ephemeral admitted
  obtain ⟨packet, built⟩ := buildRelayPacket_short env (s.node plan.relay) now relayModeTarget
    (plan.addr plan.T) (buildHandshakePacket (codec.wire plan.first)) inv.setup.short
  obtain ⟨forwarded, rfl, reparsed⟩ := buildRelayPacket_parsed env (s.node plan.relay) now built
  apply inv_delivered inv d rfl started
  · intro _ raw
    rw [message_relay d rfl] at raw
    cases raw
  · refine .two forwarded _ ?_ reparsed (waiting_delivered d waiting inv.setup.originRelay) ?_
    · simp only [RelayNet.delivered, result, Node.relayForwardTo, built]
      rfl
    · rw [Forwarding, RelayNet.node_delivered env codec plan.toRelayPlan s d, result]
      simp only [Node.relayForwardTo, GoMap.get_set, if_true]

theorem inv_two {payload token : Bytes}
    (parsed : parseRelayPacket payload = some ⟨relayModeTarget, plan.addr plan.T, token,
      buildHandshakePacket (codec.wire plan.first)⟩)
    (waiting : Waiting plan s) (forwarding : Forwarding plan s)
    (clear : Clear env codec plan ⟨plan.T, s.node plan.T, plan.relayHop plan.relay plan.T payload,
      ephemeral, now⟩) :
    Inv env codec plan (RelayNet.delivered env codec plan.toRelayPlan s ⟨plan.T,
      s.node plan.T, plan.relayHop plan.relay plan.T payload, ephemeral, now⟩) := by
  let d : Delivery H := ⟨plan.T, s.node plan.T, plan.relayHop plan.relay plan.T payload, ephemeral,
    now⟩
  have admitted := admitRelayPacket_accepted parsed inv.setup.resolves (inv.setup.relays plan.T)
    (List.cons_ne_nil _ _) clear.accepts
  let inbound := (s.node plan.T).inboundFrom (plan.addr plan.relay)
  have free : inbound.pendingHandshakes.get (.udp, plan.addr plan.relay) = none :=
    clear.idle rfl (message_relay d rfl)
  have answer : .two plan.first (prologuePrefix ++ inbound.config.networkPassword) ephemeral
      inbound.identity.noisePublicKey = plan.second ephemeral := by
    rw [Relayed.second, ← inv.setup.prologueT, ← inv.setup.keyT]
    rfl
  have result : d.result env codec = ({ inbound with
      pendingHandshakes := inbound.pendingHandshakes.set (.udp, plan.addr plan.relay)
        (inbound.responding plan.first ephemeral now) },
      [.handlePacket ⟨.udp, plan.addr plan.relay⟩ .udp packetTypeHandshake (codec.wire plan.first),
        .sendRaw none ⟨.udp, plan.addr plan.relay⟩ .udp (.handshake (plan.second ephemeral))]) := by
    show (s.node plan.T).receiveUDP env codec (plan.addr plan.relay)
      (tentPacket packetTypeRelay payload) ephemeral now = _
    rw [receiveUDP_deliver codec ephemeral admitted, processHandshake_first env inbound none
      ⟨.udp, plan.addr plan.relay⟩ .udp plan.first ephemeral now free, answer]
  apply inv_delivered inv d rfl started (fun here => absurd here inv.setup.targetRelay)
  refine .three ephemeral ?_ (waiting_delivered d waiting inv.setup.ends) ?_ ⟨?_, ?_⟩
  · simp only [RelayNet.delivered, result]
    rfl
  · rw [Forwarding, RelayNet.node_delivered_other env codec plan.toRelayPlan s d
      inv.setup.targetRelay.symm]
    exact forwarding
  · refine ⟨inbound.responding plan.first ephemeral now, ?_, ?_⟩
    · rw [show plan.T = d.host from rfl, RelayNet.node_delivered, result]
      simp only [GoMap.get_set, if_true]
    · exact ⟨congrArg Stage.awaitThree answer, rfl, rfl⟩
  · exact reached_now d (incoming_deliver codec admitted)

theorem inv_three {drawn : Key} (waiting : Waiting plan s) (forwarding : Forwarding plan s)
    (answered : Answered env codec plan s drawn) :
    Inv env codec plan (RelayNet.delivered env codec plan.toRelayPlan s ⟨plan.relay,
      s.node plan.relay, plan.handshakeHop codec plan.T plan.relay (plan.second drawn), ephemeral,
      now⟩) := by
  let d : Delivery H := ⟨plan.relay, s.node plan.relay,
    plan.handshakeHop codec plan.T plan.relay (plan.second drawn), ephemeral, now⟩
  obtain ⟨result, passed⟩ := relay_forwards env d rfl (inv.setup.relays plan.relay)
    forwarding
  apply inv_delivered inv d rfl started
  · intro _ _
    exact ⟨fun same => absurd (plan.addr_injective same).symm inv.setup.ends, fun _ => passed⟩
  · refine .four drawn ?_ (waiting_delivered d waiting inv.setup.originRelay)
      (answered_delivered d answered inv.setup.targetRelay)
    simp only [RelayNet.delivered, result]
    rfl

theorem inv_four {drawn : Key} (waiting : Waiting plan s)
    (answered : Answered env codec plan s drawn)
    (clear : Clear env codec plan ⟨plan.O, s.node plan.O,
      plan.handshakeHop codec plan.relay plan.O (plan.second drawn), ephemeral, now⟩) :
    Inv env codec plan (RelayNet.delivered env codec plan.toRelayPlan s ⟨plan.O, s.node plan.O,
      plan.handshakeHop codec plan.relay plan.O (plan.second drawn), ephemeral, now⟩) := by
  let d : Delivery H := ⟨plan.O, s.node plan.O,
    plan.handshakeHop codec plan.relay plan.O (plan.second drawn), ephemeral, now⟩
  obtain ⟨hs, pending, initiating⟩ := waiting
  obtain ⟨holds, sent, handled⟩ := end_finishes d rfl rfl (clear.direct inv.setup.originRelay)
    pending (initiating_finishes initiating drawn plan.keyT) (clear.origin rfl)
  apply inv_delivered inv d rfl started (fun here => absurd here inv.setup.originRelay)
  refine .five drawn ?_ (answered_delivered d answered inv.setup.ends.symm)
    ⟨?_, reached_now d handled⟩
  · simp only [RelayNet.delivered, RelayNet.post, sent]
    rfl
  · rw [show plan.O = d.host from rfl, RelayNet.node_delivered]
    exact holds

theorem inv_five {drawn : Key} (answered : Answered env codec plan s drawn)
    (finished : Finished env codec plan s drawn)
    (clear : Clear env codec plan ⟨plan.relay, s.node plan.relay,
      plan.handshakeHop codec plan.O plan.relay (plan.third drawn), ephemeral, now⟩) :
    Inv env codec plan (RelayNet.delivered env codec plan.toRelayPlan s ⟨plan.relay,
      s.node plan.relay, plan.handshakeHop codec plan.O plan.relay (plan.third drawn), ephemeral,
      now⟩) := by
  let d : Delivery H := ⟨plan.relay, s.node plan.relay,
    plan.handshakeHop codec plan.O plan.relay (plan.third drawn), ephemeral, now⟩
  have raw : (d.message codec).isSome = true := by
    rw [message_handshake d rfl]
    rfl
  obtain ⟨result, passed⟩ := relay_forwards env d rfl (inv.setup.relays plan.relay)
    (clear.returns rfl rfl raw)
  apply inv_delivered inv d rfl started
  · intro _ _
    exact ⟨fun _ => passed, fun same => absurd (plan.addr_injective same) inv.setup.ends⟩
  · refine .six drawn ?_ (answered_delivered d answered inv.setup.targetRelay)
      (finished_delivered d finished inv.setup.originRelay)
    simp only [RelayNet.delivered, result]
    rfl

theorem inv_six {drawn : Key} (answered : Answered env codec plan s drawn)
    (finished : Finished env codec plan s drawn)
    (clear : Clear env codec plan ⟨plan.T, s.node plan.T,
      plan.handshakeHop codec plan.relay plan.T (plan.third drawn), ephemeral, now⟩) :
    Inv env codec plan (RelayNet.delivered env codec plan.toRelayPlan s ⟨plan.T, s.node plan.T,
      plan.handshakeHop codec plan.relay plan.T (plan.third drawn), ephemeral, now⟩) := by
  let d : Delivery H := ⟨plan.T, s.node plan.T,
    plan.handshakeHop codec plan.relay plan.T (plan.third drawn), ephemeral, now⟩
  obtain ⟨hs, pending, responding⟩ := answered.pending
  obtain ⟨holds, sent, handled⟩ := end_finishes d rfl rfl (clear.direct inv.setup.targetRelay)
    pending (responding_finishes responding plan.keyO) (clear.target rfl)
  apply inv_delivered inv d rfl started (fun here => absurd here inv.setup.targetRelay)
  refine .seven drawn ?_ (reached_delivered d answered.reached)
    (finished_delivered d finished inv.setup.ends) (reached_now d handled) ?_
  · simp only [RelayNet.delivered, RelayNet.post, sent]
    rfl
  · rw [show plan.T = d.host from rfl, RelayNet.node_delivered]
    exact holds

omit started in
theorem inv_step (event : RelayEvent Unit) (clear : ClearStep env codec plan s event) :
    Inv env codec plan (step env codec plan s event) := by
  rcases inv.phase with ⟨unstarted, flight⟩ | ⟨started, phase⟩
  · cases event with
    | connectViaRelay connect now => exact inv_connect inv unstarted flight now
    | deliver index ephemeral now =>
        have nothing : step env codec plan s (.deliver index ephemeral now) = s := by
          simp only [step, RelayNet.step, flight, List.getElem?_nil]
        rw [nothing]
        exact inv
  · cases event with
    | connectViaRelay connect now =>
        have nothing : step env codec plan s (.connectViaRelay connect now) = s := by
          simp only [step, RelayNet.step, started, if_true]
        rw [nothing]
        exact inv
    | deliver index ephemeral now =>
        have arrives {hop : Hop} {host : H} (flight : s.flight = [hop])
            (destination : hop.destination = plan.addr host)
            (handled : Clear env codec plan ⟨host, s.node host, hop, ephemeral, now⟩ →
              Inv env codec plan (RelayNet.delivered env codec plan.toRelayPlan s
                ⟨host, s.node host, hop, ephemeral, now⟩)) :
            Inv env codec plan (step env codec plan s (.deliver index ephemeral now)) := by
          rcases RelayNet.step_deliver env codec plan.toRelayPlan s flight destination index ephemeral
            now with nothing | ⟨found, here, after⟩
          · rw [step, nothing]
            exact inv
          · rw [step, after]
            exact handled (clear hop found host here)
        cases phase with
        | one payload token flight parsed waiting =>
            exact arrives flight rfl (inv_one inv started ephemeral now parsed waiting)
        | two payload token flight parsed waiting forwarding =>
            exact arrives flight rfl (inv_two inv started ephemeral now parsed waiting forwarding)
        | three drawn flight waiting forwarding answered =>
            exact arrives flight rfl fun _ =>
              inv_three inv started ephemeral now waiting forwarding answered
        | four drawn flight waiting answered =>
            exact arrives flight rfl (inv_four inv started ephemeral now waiting answered)
        | five drawn flight answered finished =>
            exact arrives flight rfl (inv_five inv started ephemeral now answered finished)
        | six drawn flight answered finished =>
            exact arrives flight rfl (inv_six inv started ephemeral now answered finished)
        | seven drawn flight first finished last holds =>
            have nothing : step env codec plan s (.deliver index ephemeral now) = s := by
              simp only [step, RelayNet.step, flight, List.getElem?_nil]
            rw [nothing]
            exact inv

omit started [DecidableEq H] in
theorem bothWays_of_inv : BothWays env codec plan s := by
  refine ⟨fun d member here raw => (inv.passed d member here raw).1,
    fun d member here raw => (inv.passed d member here raw).2, ?_⟩
  intro started quiet
  rcases inv.phase with ⟨unstarted, _⟩ | ⟨_, phase⟩
  · rw [unstarted] at started
    cases started
  · -- In every phase but the last there is a datagram on its way.
    cases phase with
    | seven drawn _ first finished last holds =>
        exact ⟨⟨drawn, first, finished.reached, last⟩, finished.holds, holds⟩
    | _ => simp_all

end Steps

section

variable {H : Type} [DecidableEq H] {env : Env} {codec : Codec} {plan : Relayed H}

/-- Where the nodes are clear for every datagram that arrives, the handshake goes through the relay in
both directions, whatever the order of events. -/
theorem bothWays_throughout (node : H → Node) (setup : Setup env plan node)
    (events : List (RelayEvent Unit))
    (clear : Along (step env codec plan) (ClearStep env codec plan) (RelayNet.begin node) events) :
    Throughout (step env codec plan) (BothWays env codec plan) (RelayNet.begin node) events := by
  have initially : Inv env codec plan (RelayNet.begin node) :=
    { setup := setup
      passed := fun _ member => absurd member List.not_mem_nil
      phase := Or.inl ⟨rfl, rfl⟩ }
  have always := throughout_keeps _ events initially clear
    fun _ event inv allowed => inv_step inv event allowed
  exact throughout_mono _ events always fun _ => bothWays_of_inv

end

namespace Example

inductive Host where
  | a
  | r
  | b
  deriving DecidableEq, Repr

def key : Host → Key
  | .a => [7]
  | .r => [8]
  | .b => [9]

def plan : Relayed Host where
  addr
    | .a => [10]
    | .r => [20]
    | .b => [30]
  host text := if text = [10] then some .a else if text = [20] then some .r
    else if text = [30] then some .b else none
  host_eq h text := by
    cases h <;> grind
  relay := .r
  origin _ := .a
  target _ := .b
  ephemeral _ := [1]
  keyO := key .a
  keyT := key .b
  prologue := prologuePrefix ++ [1]

def fresh (host : Host) : Node :=
  startedNode .padded { defaultConfig with networkPassword := [1] } (newIdentity .padded (key host))
    true

def relayed : Host → Node
  | .r => { fresh .r with relayForward := (fresh .r).relayForward.set [10] [30] }
  | host => fresh host

def events : List (RelayEvent Unit) :=
  [.connectViaRelay () 0, .deliver 0 [2] 1, .deliver 0 [3] 2, .deliver 0 [4] 3, .deliver 0 [5] 4,
    .deliver 0 [6] 5, .deliver 0 [7] 6, .deliver 0 [8] 7]

theorem setup_relayed : Setup .padded plan relayed := by
  constructor <;> try decide
  intro host
  cases host <;> rfl

theorem bothWays_throughout_relayed_before :
    Throughout (step .padded .plain plan) (BothWays .padded .plain plan) (RelayNet.begin relayed)
        events ∧
      (run (step .padded .plain plan) (RelayNet.begin relayed) events).started () = true ∧
      (run (step .padded .plain plan) (RelayNet.begin relayed) events).flight = [] :=
  ⟨bothWays_throughout relayed setup_relayed events (by decide +kernel), by decide +kernel,
    by decide +kernel⟩

/-- Between nodes that have just started the origin has a session in the end and the target has none:
the relay has handled message 3 itself. -/
theorem last_message_kept_by_relay :
    ¬Throughout (step .padded .plain plan) (BothWays .padded .plain plan) (RelayNet.begin fresh)
        events ∧
      let last := run (step .padded .plain plan) (RelayNet.begin fresh) events
      last.flight = [] ∧ Holds (last.node .a) (peerIDOf .padded (key .b)) ∧
        ¬Holds (last.node .b) (peerIDOf .padded (key .a)) ∧
        (last.history.filter fun d => d.host = .r).filterMap (Delivery.handled .padded .plain) =
          [(⟨.udp, [10]⟩, plan.third [3]), (⟨.udp, [10]⟩, .two (.two (plan.third [3])
            (prologuePrefix ++ [1]) [6] (key .r)) (prologuePrefix ++ [1]) [7] (key .a))] := by
  refine ⟨fun both => ?_, by decide +kernel⟩
  have settled := (throughout_run _ _ both).settled (by decide +kernel) (by decide +kernel)
  exact absurd settled.2.2 (by decide +kernel)

end Example

end Tenet.RelayBothWays
