import Tenet.Events
import Tenet.TcpHandshake

/-! One connect runs a UDP and a TCP handshake side by side. Whatever the order in which a node sees
them complete, it ends on the TCP session. -/

namespace Tenet

open Lib Run

structure Endpoint where
  node : Node
  closed : List ConnId

namespace Endpoint

def step (env : Env) (e : Endpoint) (call : HandshakeCall) : Endpoint :=
  let result := e.node.processHandshake env call.conn call.remoteAddr call.transport call.payload
    call.ephemeral call.now
  ⟨result.1, e.closed ++ closedConns result.2⟩

def completes (e : Endpoint) (call : HandshakeCall) : Option Session :=
  e.node.completes call.remoteAddr call.transport call.payload call.ephemeral call.now

def OverUDP (env : Env) (peerID : Bytes) (e : Endpoint) (call : HandshakeCall) : Prop :=
  ∀ session ∈ e.completes call,
    peerIDOf env session.remotePublicKey = peerID ∧ call.transport = .udp

/-- The call completes the handshake of that session over that TCP connection. -/
structure OverTCP (env : Env) (peerID : Bytes) (session : Session) (conn : ConnId) (e : Endpoint)
    (call : HandshakeCall) : Prop where
  completes : e.completes call = some session
  remote : peerIDOf env session.remotePublicKey = peerID
  transport : call.transport = .tcp
  conn : call.conn = some conn

/-- The peer is on TCP with that session, and the connection has not been closed. -/
structure OnTCP (peerID : Bytes) (session : Session) (conn : ConnId) (e : Endpoint) : Prop where
  peer : ∃ p, e.node.peers.get peerID = some p ∧ p.transport = .tcp ∧ p.session = some session ∧
    p.conn = some conn
  opened : conn ∉ e.closed

end Endpoint

section Established

variable (env : Env) (n : Node) (conn : Option ConnId) (remoteAddr : NetAddr) (session : Session)
  (now : Int) (existing : Peer)

theorem sessionEstablished_refresh_udp
    (known : n.peers.get (peerIDOf env session.remotePublicKey) = some existing)
    (onUDP : existing.transport = .udp) :
    ∃ p, p.id = peerIDOf env session.remotePublicKey ∧ p.transport = .udp ∧
      (n.sessionEstablished env conn remoteAddr .udp session now).1.peers = n.peers.add p ∧
      closedConns (n.sessionEstablished env conn remoteAddr .udp session now).2 = [] := by
  have named := n.peers.get_id _ existing known
  have moves : ¬(existing.transport = .tcp ∧ Transport.udp ≠ .tcp) := by
    rw [onUDP]
    decide
  have unclosed : ¬(existing.conn ≠ conn ∧ existing.transport ≠ .udp) := fun both => both.2 onUDP
  rcases sessionEstablished_refresh env n conn remoteAddr .udp session now existing known nofun with
    ⟨linkMode, relayTarget, peers, effects⟩
  simp only [Peer.upgradeTransport, if_neg moves] at peers
  refine ⟨_, ?_, ?_, peers, ?_⟩
  · exact named
  · rfl
  · simp only [effects, Peer.upgradeTransport, if_neg moves, if_neg unclosed, List.nil_append]
    split
    · exact closedConns_closeSession _
    · rfl

theorem sessionEstablished_refresh_tcp
    (known : n.peers.get (peerIDOf env session.remotePublicKey) = some existing)
    (onTCP : existing.transport = .tcp) :
    ∃ p, p.id = peerIDOf env session.remotePublicKey ∧ p.transport = .tcp ∧
      p.session = existing.session ∧ p.conn = existing.conn ∧
      (n.sessionEstablished env conn remoteAddr .udp session now).1.peers = n.peers.add p ∧
      closedConns (n.sessionEstablished env conn remoteAddr .udp session now).2 = [] := by
  have named := n.peers.get_id _ existing known
  have kept : existing.transport = .tcp ∧ Transport.udp ≠ .tcp := ⟨onTCP, nofun⟩
  rcases sessionEstablished_refresh env n conn remoteAddr .udp session now existing known nofun with
    ⟨linkMode, relayTarget, peers, effects⟩
  simp only [Peer.upgradeTransport, if_pos kept] at peers
  refine ⟨_, ?_, ?_, ?_, ?_, peers, ?_⟩
  · exact named
  · exact onTCP
  · rfl
  · rfl
  · simp only [effects, Peer.upgradeTransport, if_pos kept]
    rfl

end Established

namespace Endpoint

variable {env : Env} {peerID : Bytes} {e : Endpoint} {call : HandshakeCall}

theorem step_incomplete (env : Env) (incomplete : e.completes call = none) :
    (e.step env call).node.peers = e.node.peers ∧
      (e.step env call).node.config = e.node.config ∧ (e.step env call).closed = e.closed := by
  simp only [completes, Node.completes] at incomplete
  rcases result : (e.node.pendingHandshake (call.transport, call.remoteAddr.text) call.ephemeral
    call.now).processMessage call.payload with _ | ⟨hs, response, _ | session⟩
  · simp only [step, processHandshake_failed _ _ _ _ _ _ _ _ result]
    exact ⟨trivial, trivial, List.append_nil _⟩
  · simp only [step, processHandshake_waiting _ _ _ _ _ _ _ _ hs response result]
    refine ⟨trivial, trivial, ?_⟩
    have nothing := closedConns_sendRaw call.conn call.remoteAddr call.transport response []
    rw [List.append_nil] at nothing
    rw [nothing]
    exact List.append_nil _
  · rw [result] at incomplete
    cases incomplete

theorem step_complete (env : Env) {session : Session} (complete : e.completes call = some session) :
    ∃ n : Node, n.peers = e.node.peers ∧ n.config = e.node.config ∧
      (e.step env call).node =
        (n.sessionEstablished env call.conn call.remoteAddr call.transport session call.now).1 ∧
      (e.step env call).closed = e.closed ++ closedConns
        (n.sessionEstablished env call.conn call.remoteAddr call.transport session call.now).2 := by
  simp only [completes, Node.completes] at complete
  rcases result : (e.node.pendingHandshake (call.transport, call.remoteAddr.text) call.ephemeral
    call.now).processMessage call.payload with _ | ⟨hs, response, _ | produced⟩
  · rw [result] at complete
    cases complete
  · rw [result] at complete
    cases complete
  · rw [result] at complete
    obtain rfl : produced = session := Option.some.inj complete
    refine ⟨{ e.node with pendingHandshakes :=
      e.node.pendingHandshakes.set (call.transport, call.remoteAddr.text) hs }, rfl, rfl, ?_, ?_⟩
    · simp only [step, processHandshake_finished _ _ _ _ _ _ _ _ hs response produced result]
    · simp only [step, processHandshake_finished _ _ _ _ _ _ _ _ hs response produced result,
        closedConns_sendRaw]

theorem isFull_eq {n m : Node} (peers : n.peers = m.peers) (config : n.config = m.config) :
    n.isFull = m.isFull := by
  simp only [Node.isFull, peers, config]

/-- Until the TCP handshake completes, the node is ready for it and has closed nothing. -/
def Waiting (peerID : Bytes) (e : Endpoint) : Prop := e.node.OffTCP peerID ∧ e.closed = []

theorem waiting_step (e : Endpoint) (call : HandshakeCall) (waiting : Waiting peerID e)
    (overUDP : OverUDP env peerID e call) : Waiting peerID (e.step env call) := by
  obtain ⟨off, unclosed⟩ := waiting
  cases complete : e.completes call with
  | none =>
      obtain ⟨peers, config, closed⟩ := step_incomplete env complete
      refine ⟨?_, by rw [closed, unclosed]⟩
      simp only [Node.OffTCP, peers, isFull_eq peers config]
      exact off
  | some session =>
      obtain ⟨remote, udp⟩ := overUDP session complete
      obtain ⟨n, peers, config, node, closed⟩ := step_complete env complete
      rw [udp] at node closed
      rcases off with ⟨unknown, room⟩ | ⟨p, known, onUDP⟩
      · obtain ⟨fresh, id, _, _, transport, added, _, nothing⟩ :=
          sessionEstablished_new env n call.conn call.remoteAddr .udp session call.now
            (by rw [remote, peers, unknown]) (by rw [isFull_eq peers config, room])
        refine ⟨Or.inr ⟨fresh, ?_, transport⟩, ?_⟩
        · rw [node, added, PeerStore.get_add, id, remote, if_pos rfl]
        · rw [closed, nothing, unclosed, List.append_nil]
      · obtain ⟨fresh, id, transport, added, nothing⟩ :=
          sessionEstablished_refresh_udp env n call.conn call.remoteAddr session call.now p
            (by rw [remote, peers, known]) onUDP
        refine ⟨Or.inr ⟨fresh, ?_, transport⟩, ?_⟩
        · rw [node, added, PeerStore.get_add, id, remote, if_pos rfl]
        · rw [closed, nothing, unclosed, List.append_nil]

variable {session : Session} {conn : ConnId}

theorem onTCP_of_overTCP (waiting : Waiting peerID e)
    (overTCP : OverTCP env peerID session conn e call) :
    OnTCP peerID session conn (e.step env call) := by
  obtain ⟨off, unclosed⟩ := waiting
  obtain ⟨complete, remote, tcp, carried⟩ := overTCP
  obtain ⟨n, peers, config, node, closed⟩ := step_complete env complete
  rw [tcp, carried] at node closed
  rcases off with ⟨unknown, room⟩ | ⟨p, known, onUDP⟩
  · obtain ⟨fresh, id, carries, runs, transport, added, _, nothing⟩ :=
      sessionEstablished_new env n (some conn) call.remoteAddr .tcp session call.now
        (by rw [remote, peers, unknown]) (by rw [isFull_eq peers config, room])
    refine ⟨⟨fresh, ?_, transport, carries, runs⟩, ?_⟩
    · rw [node, added, PeerStore.get_add, id, remote, if_pos rfl]
    · rw [closed, nothing, unclosed]
      exact List.not_mem_nil
  · obtain ⟨fresh, id, carries, runs, transport, added, nothing⟩ :=
      sessionEstablished_switch env n (some conn) call.remoteAddr session call.now p
        (by rw [remote, peers, known]) onUDP
    refine ⟨⟨fresh, ?_, transport, carries, runs⟩, ?_⟩
    · rw [node, added, PeerStore.get_add, id, remote, if_pos rfl]
    · rw [closed, nothing, unclosed]
      exact List.not_mem_nil

theorem onTCP_step (e : Endpoint) (call : HandshakeCall) (onTCP : OnTCP peerID session conn e)
    (overUDP : OverUDP env peerID e call) : OnTCP peerID session conn (e.step env call) := by
  obtain ⟨⟨p, known, transport, carries, runs⟩, opened⟩ := onTCP
  cases complete : e.completes call with
  | none =>
      obtain ⟨peers, _, closed⟩ := step_incomplete env complete
      exact ⟨⟨p, by rw [peers, known], transport, carries, runs⟩, by rwa [closed]⟩
  | some produced =>
      obtain ⟨remote, udp⟩ := overUDP produced complete
      obtain ⟨n, peers, _, node, closed⟩ := step_complete env complete
      rw [udp] at node closed
      obtain ⟨kept, id, still, sameSession, sameConn, added, nothing⟩ :=
        sessionEstablished_refresh_tcp env n call.conn call.remoteAddr produced call.now p
          (by rw [remote, peers, known]) transport
      refine ⟨⟨kept, ?_, still, sameSession.trans carries, sameConn.trans runs⟩, ?_⟩
      · rw [node, added, PeerStore.get_add, id, remote, if_pos rfl]
      · rwa [closed, nothing, List.append_nil]

/-- One node's calls: whatever completes over UDP, the TCP handshake, and UDP again. -/
structure UpgradeRun (env : Env) (peerID : Bytes) (session : Session) (conn : ConnId) (start : Node)
    (before : List HandshakeCall) (tcp : HandshakeCall) (after : List HandshakeCall) : Prop where
  ready : start.OffTCP peerID
  earlier : Along (step env) (OverUDP env peerID) ⟨start, []⟩ before
  completes : OverTCP env peerID session conn (run (step env) ⟨start, []⟩ before) tcp
  later : Along (step env) (OverUDP env peerID)
    ((run (step env) ⟨start, []⟩ before).step env tcp) after

theorem onTCP_throughout {start : Node} {before : List HandshakeCall} {tcp : HandshakeCall}
    {after : List HandshakeCall} (upgrade : UpgradeRun env peerID session conn start before tcp after) :
    Throughout (step env) (OnTCP peerID session conn)
      ((run (step env) ⟨start, []⟩ before).step env tcp) after := by
  have waiting : Waiting peerID (run (step env) ⟨start, []⟩ before) :=
    run_keeps _ before ⟨upgrade.ready, rfl⟩ upgrade.earlier waiting_step
  exact throughout_keeps _ after (onTCP_of_overTCP waiting upgrade.completes) upgrade.later
    onTCP_step

/-- Both nodes are on TCP, with the two ends of one handshake, over connections that are open. -/
def Upgraded (peerID : Side → Bytes) (conn : Side → ConnId) (e : Side → Endpoint) : Prop :=
  ∃ session : Side → Session, EndsOf (session .a) (session .b) ∧
    ∀ side, OnTCP (peerID side) (session side) (conn side) (e side)

end Endpoint

open Endpoint

/-- However the completions of the UDP handshakes and of the one TCP handshake are ordered at each
node, both end on the TCP session, and once there no UDP handshake takes it away. -/
theorem upgrade_confluent (env : Env) (key : Side → Key) (start : Side → Node)
    (before : Side → List HandshakeCall) (tcp : Side → HandshakeCall)
    (after : Side → List HandshakeCall) (session : Side → Session) (conn : Side → ConnId)
    (ends : EndsOf (session .a) (session .b))
    (upgrade : ∀ side, UpgradeRun env (peerIDOf env (key side.other)) (session side) (conn side)
      (start side) (before side) (tcp side) (after side)) :
    Upgraded (fun side => peerIDOf env (key side.other)) conn
        (fun side => run (Endpoint.step env)
          ((run (Endpoint.step env) ⟨start side, []⟩ (before side)).step env (tcp side))
          (after side)) ∧
      ∀ side, Throughout (Endpoint.step env)
        (OnTCP (peerIDOf env (key side.other)) (session side) (conn side))
        ((run (Endpoint.step env) ⟨start side, []⟩ (before side)).step env (tcp side))
        (after side) :=
  ⟨⟨session, ends, fun side => throughout_run _ _ (onTCP_throughout (upgrade side))⟩,
    fun side => onTCP_throughout (upgrade side)⟩

namespace UpgradeExample

def key : Side → Key
  | .a => [7]
  | .b => [8]

def secondMessage (ephemeral drawn : Key) : Message :=
  .two (.one ephemeral) (prologuePrefix ++ [1]) drawn (key .b)

def thirdMessage (ephemeral drawn : Key) : Message := .three (secondMessage ephemeral drawn) (key .a)

def start : Side → Node
  | .a => (startedNode .padded { defaultConfig with networkPassword := [1] }
      (newIdentity .padded (key .a)) true).registerPendingHandshakes [20] [21]
        (newInitiatorHandshake (key .a) [1] [1] 0).1 (newInitiatorHandshake (key .a) [1] [2] 0).1
  | .b => startedNode .padded { defaultConfig with networkPassword := [1] }
      (newIdentity .padded (key .b)) true

def udpCall (payload : Message) : HandshakeCall := ⟨none, ⟨.udp, [20]⟩, .udp, payload, [3], 0⟩

def tcpCall (payload : Message) : HandshakeCall := ⟨some 5, ⟨.tcp, [21]⟩, .tcp, payload, [4], 0⟩

def before : Side → List HandshakeCall
  | .a => [udpCall (secondMessage [1] [3])]
  | .b => [udpCall (.one [1]), tcpCall (.one [2])]

def tcp : Side → HandshakeCall
  | .a => tcpCall (secondMessage [2] [4])
  | .b => tcpCall (thirdMessage [2] [4])

def after : Side → List HandshakeCall
  | .a => []
  | .b => [udpCall (thirdMessage [1] [3])]

def session : Side → Session
  | .a => sessionOf true (thirdMessage [2] [4]) (key .b)
  | .b => sessionOf false (thirdMessage [2] [4]) (key .a)

theorem upgradeRun (side : Side) :
    UpgradeRun .padded (peerIDOf .padded (key side.other)) (session side) 5 (start side)
      (before side) (tcp side) (after side) := by
  cases side with
  | a =>
      refine ⟨Or.inl ⟨by decide, by decide⟩, ⟨?_, trivial⟩,
        ⟨by decide +kernel, by decide, rfl, rfl⟩, trivial⟩
      unfold OverUDP
      decide +kernel
  | b =>
      refine ⟨Or.inl ⟨by decide, by decide⟩, ⟨?_, ?_, trivial⟩,
        ⟨by decide +kernel, by decide, rfl, rfl⟩, ?_, trivial⟩
      all_goals
        unfold OverUDP
        decide +kernel

theorem upgrade_confluent_crossed :
    Upgraded (fun side => peerIDOf .padded (key side.other)) (fun _ => 5)
      (fun side => run (Endpoint.step .padded)
        ((run (Endpoint.step .padded) ⟨start side, []⟩ (before side)).step .padded (tcp side))
        (after side)) :=
  (upgrade_confluent .padded key start before tcp after session (fun _ => 5)
    ⟨_, _, _, rfl, rfl⟩ upgradeRun).1

end UpgradeExample

end Tenet
