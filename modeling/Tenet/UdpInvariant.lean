import Tenet.UdpHandshake

/-! The states that a handshake over UDP can get into, and one datagram at either node. -/

namespace Tenet.Connecting

open Lib

def toA (message : Side × Message) : Bool := decide (message.1 = .a)

def isThree (call : ConnectCall) (message : Side × Message) : Bool :=
  decide (message.1 = .b ∧ message.2 ≠ call.udp.2)

structure Keys where
  a : Key
  b : Key
  prologue : Bytes

/-- Message 2 as the responder writes it with that ephemeral key, and the message 3 that answers. -/
def Keys.second (keys : Keys) (answered : Message) (ephemeral : Key) : Message :=
  .two answered keys.prologue ephemeral keys.b

def Keys.third (keys : Keys) (call : ConnectCall) (ephemeral : Key) : Message :=
  .three (keys.second call.udp.2 ephemeral) keys.a

structure InitiatorCall (call : ConnectCall) (keys : Keys) : Prop where
  initiating : Initiating call.udp.1 call.udp.2 keys.prologue keys.a
  first : ∃ ephemeral, call.udp.2 = .one ephemeral

variable (env : Env) (call : ConnectCall) (keys : Keys)

/-- The caller's side: it waits for its answer, or has taken it, or has since taken a further
datagram for a message 1 that nobody will complete. -/
inductive CallerStage (s : Connecting) : Prop where
  | waiting (arrived : Network.arrived toA s.network = 0)
      (stranger : s.a.Stranger env call.addrB keys.b)
      (pending : s.registered = true →
        s.a.pendingHandshakes.get (.udp, call.addrB) = some call.udp.1)
      (firsts : ∀ flight ∈ s.network, flight.message.1 = .b → flight.message.2 = call.udp.2)
      (seconds : ∀ flight ∈ s.network, flight.message.1 = .a →
        ∃ ephemeral, flight.message.2 = keys.second call.udp.2 ephemeral)
  | joined (arrived : Network.arrived toA s.network = 1) (registered : s.registered = true)
      (connected : (s.a.addrToPeer.get call.addrB).isSome = true)
      (pending : s.a.pendingHandshakes.get (.udp, call.addrB) = none)
  | stuck (arrived : 2 ≤ Network.arrived toA s.network) (registered : s.registered = true)
      (connected : (s.a.addrToPeer.get call.addrB).isSome = true) (hs : HandshakeState)
      (sent : Message) (pending : s.a.pendingHandshakes.get (.udp, call.addrB) = some hs)
      (responding : Responding hs sent)

structure Answering (s : Connecting) : Prop where
  staticKey : s.b.identity.noisePublicKey = keys.b
  prologue : prologuePrefix ++ s.b.config.networkPassword = keys.prologue
  pending : ∀ hs, s.b.pendingHandshakes.get (.udp, call.addrA) = some hs →
    ∃ sent, Responding hs sent
  seconds : ∀ flight ∈ s.network, flight.message.1 = .a →
    ∃ answered ephemeral, flight.message.2 = keys.second answered ephemeral

/-- The other node has answered with that ephemeral key and waits. -/
structure Awaiting (s : Connecting) (ephemeral : Key) : Prop where
  stranger : s.b.Stranger env call.addrA keys.a
  pending : ∃ hs, s.b.pendingHandshakes.get (.udp, call.addrA) = some hs ∧
    Responding hs (keys.second call.udp.2 ephemeral)
  arrivedOne : Network.arrived (isOne call) s.network = 1
  sentA : Network.sent toA s.network = 1

structure Accepted (s : Connecting) (ephemeral : Key) : Prop where
  peer : ∃ p, s.a.peers.get (peerIDOf env keys.b) = some p ∧
    p.session = some (sessionOf true (keys.third call ephemeral) keys.b)
  arrivedA : Network.arrived toA s.network = 1
  sentThree : Network.sent (isThree call) s.network = 1
  thirds : ∀ flight ∈ s.network, flight.message.1 = .b →
    flight.message.2 = call.udp.2 ∨ flight.message.2 = keys.third call ephemeral

inductive Phase (s : Connecting) : Prop where
  | idle (stranger : s.b.Stranger env call.addrA keys.a)
      (pending : s.b.pendingHandshakes.get (.udp, call.addrA) = none)
      (arrivedOne : Network.arrived (isOne call) s.network = 0)
      (sentA : Network.sent toA s.network = 0)
  | answered (ephemeral : Key) (awaiting : Awaiting env call keys s ephemeral)
      (arrivedA : Network.arrived toA s.network = 0)
      (seconds : ∀ flight ∈ s.network, flight.message.1 = .a →
        flight.message.2 = keys.second call.udp.2 ephemeral)
  | accepted (ephemeral : Key) (awaiting : Awaiting env call keys s ephemeral)
      (accepted : Accepted env call keys s ephemeral)
      (arrivedThree : Network.arrived (isThree call) s.network = 0)
  | done (ephemeral : Key) (accepted : Accepted env call keys s ephemeral)
      (arrivedThree : Network.arrived (isThree call) s.network = 1)
      (arrivedOne : Network.arrived (isOne call) s.network = 1)
      (sentA : Network.sent toA s.network = 1)
      (pending : s.b.pendingHandshakes.get (.udp, call.addrA) = none)
      (peer : ∃ p, s.b.peers.get (peerIDOf env keys.a) = some p ∧
        p.session = some (sessionOf false (keys.third call ephemeral) keys.a))

/-- Too much is on its way to the caller, or the other node has forgotten the handshake. -/
def Doomed (s : Connecting) : Prop :=
  2 ≤ Network.sent toA s.network ∨ 2 ≤ Network.arrived toA s.network ∨
    (1 ≤ Network.sent toA s.network ∧ s.b.pendingHandshakes.get (.udp, call.addrA) = none ∧
      s.b.peers.get (peerIDOf env keys.a) = none)

def Repeated (s : Connecting) : Prop :=
  (∃ flight ∈ s.network, 2 ≤ flight.deliveries) ∨ 2 ≤ Network.sent (isOne call) s.network

structure Inv (s : Connecting) : Prop where
  caller : CallerStage env call keys s
  answering : Answering call keys s
  outcome : Phase env call keys s ∨ (Doomed env call keys s ∧ Repeated call s)

variable {env call keys}

theorem initiator_finishes (initiator : InitiatorCall call keys) (ephemeral : Key) :
    call.udp.1.processMessage (keys.second call.udp.2 ephemeral) =
      some ({ call.udp.1 with completed := true }, some (keys.third call ephemeral),
        some (sessionOf true (keys.third call ephemeral) keys.b)) :=
  initiating_finishes initiator.initiating ephemeral keys.b

section

variable (n : Node) (addr : Bytes) (message : Message) (ephemeral : Key) (now : Int)

theorem receive_rejected (env : Env) (hs : HandshakeState)
    (pending : n.pendingHandshakes.get (.udp, addr) = some hs)
    (rejected : hs.processMessage message = none) :
    n.processHandshake env none ⟨.udp, addr⟩ .udp message ephemeral now =
      ({ n with
          pendingHandshakes :=
            if (n.addrToPeer.get addr).isSome then n.pendingHandshakes.set (.udp, addr) hs
            else n.pendingHandshakes.delete (.udp, addr) }, []) := by
  have state := pendingHandshake_of_get n ⟨.udp, addr⟩ .udp ephemeral now hs pending
  rw [processHandshake_failed env n none ⟨.udp, addr⟩ .udp message ephemeral now
    (by rw [state]; exact rejected), state]

theorem receive_responder (env : Env)
    (responders : ∀ hs, n.pendingHandshakes.get (.udp, addr) = some hs → ∃ sent, Responding hs sent) :
    (∀ hs, (n.processHandshake env none ⟨.udp, addr⟩ .udp message ephemeral
        now).1.pendingHandshakes.get (.udp, addr) = some hs → ∃ sent, Responding hs sent) ∧
      ∀ reply ∈ handshakeReplies
          (n.processHandshake env none ⟨.udp, addr⟩ .udp message ephemeral now).2,
        reply = .two message (prologuePrefix ++ n.config.networkPassword) ephemeral
          n.identity.noisePublicKey := by
  cases pending : n.pendingHandshakes.get (.udp, addr) with
  | none =>
      rw [processHandshake_first env n none ⟨.udp, addr⟩ .udp message ephemeral now pending]
      constructor
      · intro hs entry
        rw [GoMap.get_set, if_pos rfl] at entry
        rw [← Option.some.inj entry]
        exact ⟨_, rfl, rfl, rfl⟩
      · intro reply member
        exact List.mem_singleton.mp member
  | some hs =>
      rcases responders hs pending with ⟨sent, responding⟩
      by_cases third : ∃ static, message = .three sent static
      · rcases third with ⟨static, rfl⟩
        rcases processHandshake_finished_entry env n none ⟨.udp, addr⟩ .udp (.three sent static)
          ephemeral now hs _ none _ pending (responding_finishes responding static) with
          ⟨cleared, replies⟩
        rw [cleared, replies]
        constructor
        · intro other entry
          rw [GoMap.get_delete, if_pos rfl] at entry
          cases entry
        · intro reply member
          cases member
      · have rejected := responding_rejects responding message
          (fun static same => third ⟨static, same⟩)
        rw [receive_rejected n addr message ephemeral now env hs pending rejected]
        constructor
        · intro other entry
          split at entry
          · rw [GoMap.get_set, if_pos rfl] at entry
            exact ⟨sent, Option.some.inj entry ▸ responding⟩
          · rw [GoMap.get_delete, if_pos rfl] at entry
            cases entry
        · intro reply member
          cases member

theorem receive_finished (env : Env) (key : Key) (stranger : n.Stranger env addr key)
    (hs finishedState : HandshakeState) (response : Option Message) (session : Session)
    (remote : session.remotePublicKey = key)
    (pending : n.pendingHandshakes.get (.udp, addr) = some hs)
    (finished : hs.processMessage message = some (finishedState, response, some session)) :
    let received := n.processHandshake env none ⟨.udp, addr⟩ .udp message ephemeral now
    received.1.pendingHandshakes.get (.udp, addr) = none ∧
      (∃ p, received.1.peers.get (peerIDOf env key) = some p ∧ p.session = some session) ∧
      (received.1.addrToPeer.get addr).isSome = true ∧
      handshakeReplies received.2 = response.toList := by
  intro received
  rcases processHandshake_finished_entry env n none ⟨.udp, addr⟩ .udp message ephemeral now hs
    finishedState response session pending finished with ⟨cleared, replies⟩
  have state := pendingHandshake_of_get n ⟨.udp, addr⟩ .udp ephemeral now hs pending
  have whole := processHandshake_finished env n none ⟨.udp, addr⟩ .udp message ephemeral now
    finishedState response session (by rw [state]; exact finished)
  rcases sessionEstablished_new env
    { n with pendingHandshakes := n.pendingHandshakes.set (.udp, addr) finishedState } none
    ⟨.udp, addr⟩ .udp session now (by rw [remote]; exact stranger.unknown) stranger.room with
    ⟨p, id, live, _, _, peers, addrToPeer, _⟩
  refine ⟨?_, ⟨p, ?_, live⟩, ?_, replies⟩
  · rw [cleared, GoMap.get_delete, if_pos rfl]
  · have stored : received.1.peers = n.peers.add p := (congrArg (·.1.peers) whole).trans peers
    rw [stored, PeerStore.get_add, if_pos (by rw [id, remote])]
  · have mapped : received.1.addrToPeer = n.addrToPeer.set addr (peerIDOf env session.remotePublicKey) :=
      (congrArg (·.1.addrToPeer) whole).trans addrToPeer
    rw [mapped, GoMap.get_set, if_pos rfl]
    rfl

end

theorem countP_toA (messages : List Message) :
    (messages.map fun message => (Side.a, message)).countP toA = messages.length := by
  rw [List.countP_map, List.countP_eq_length]
  intro message _
  rfl

theorem countP_a_isThree (messages : List Message) :
    (messages.map fun message => (Side.a, message)).countP (isThree call) = 0 := by
  rw [List.countP_map, List.countP_eq_zero]
  intro message _
  simp [isThree]

theorem countP_b_toA (messages : List Message) :
    (messages.map fun message => (Side.b, message)).countP toA = 0 := by
  rw [List.countP_map, List.countP_eq_zero]
  intro message _
  simp [toA]

theorem third_ne_first (initiator : InitiatorCall call keys) (ephemeral : Key) :
    keys.third call ephemeral ≠ call.udp.2 := by
  rcases initiator.first with ⟨drawn, first⟩
  rw [first]
  exact fun same => by cases same

theorem repeated_of_ones {s : Connecting} (twice : 2 ≤ Network.arrived (isOne call) s.network) :
    Repeated call s := by
  by_cases many : 2 ≤ Network.sent (isOne call) s.network
  · exact Or.inr many
  · have fewer : Network.sent (isOne call) s.network < Network.arrived (isOne call) s.network := by
      omega
    exact Or.inl (Network.repeated_of_arrived fewer)

end Tenet.Connecting
