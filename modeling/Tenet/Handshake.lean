import Tenet.Node

/-! `node/handshake.go`: handshake messages and what a completed handshake does to the tables. -/

namespace Tenet

open Lib

namespace Node

/-- Connected peers with a UDP address become candidates for relaying, once per address. -/
def registerRelayCandidate (n : Node) (peerID : Bytes) (remoteAddr : NetAddr) : Node :=
  match n.relayManager with
  | none => n
  | some relays =>
      if remoteAddr.kind = .udp ∧ remoteAddr.text ∉ n.relayAddrSet then
        { n with
          relayAddrSet := insert remoteAddr.text n.relayAddrSet
          relayManager := some (relays.set peerID remoteAddr.text) }
      else n

def switchToTCP (n : Node) (existingPeer : Peer) (conn : Option ConnId) (remoteAddr : NetAddr)
    (transport : Transport) (session : Session) (now : Int) : Node × List Effect :=
  let upgraded := existingPeer.upgradeTransport remoteAddr conn transport session now
  let switched : Node :=
    { n with
      peers := n.peers.add upgraded.1
      addrToPeer := n.addrToPeer.set remoteAddr.text existingPeer.id
      pendingHandshakes := n.pendingHandshakes.delete (transport, remoteAddr.text) }
  (switched.registerRelayCandidate existingPeer.id remoteAddr,
    upgraded.2 ++ [.syncChannelsWithPeer existingPeer.id])

def relayLinked (n : Node) (existingPeer : Peer) (addr : Bytes) : Peer :=
  match n.relayPendingTarget.get addr with
  | some target => existingPeer.setLinkMode .relay (some ⟨.udp, target⟩)
  | none => if addr ∈ n.relayInbound then existingPeer.setLinkMode .relay none else existingPeer

/-- The branch of `handleExistingPeer` that refreshes the session. It leaves `addrToPeer` alone. -/
def refreshPeer (n : Node) (existingPeer : Peer) (conn : Option ConnId) (remoteAddr : NetAddr)
    (transport : Transport) (session : Session) (now : Int) : Node × List Effect :=
  let linked := n.relayLinked existingPeer remoteAddr.text
  let upgraded := linked.upgradeTransport remoteAddr conn transport session now
  let refreshed : Node :=
    { n with
      peers := n.peers.add (upgraded.1.updateLastSeen now)
      pendingHandshakes := n.pendingHandshakes.delete (transport, remoteAddr.text)
      relayPendingTarget := n.relayPendingTarget.delete remoteAddr.text
      -- an inbound mark is used up only where no pending target was
      relayInbound := match n.relayPendingTarget.get remoteAddr.text with
        | some _ => n.relayInbound
        | none => n.relayInbound.erase remoteAddr.text }
  (refreshed.registerRelayCandidate existingPeer.id remoteAddr, upgraded.2)

def handleExistingPeer (n : Node) (existingPeer : Peer) (conn : Option ConnId)
    (remoteAddr : NetAddr) (transport : Transport) (session : Session) (now : Int) :
    Node × List Effect :=
  if transport = .tcp ∧ existingPeer.transport ≠ .tcp then
    n.switchToTCP existingPeer conn remoteAddr transport session now
  else n.refreshPeer existingPeer conn remoteAddr transport session now

def isFull (n : Node) : Bool :=
  decide (0 < n.config.maxPeers ∧ n.config.maxPeers ≤ n.peers.count)

def handleNewPeer (n : Node) (peerID : Bytes) (conn : Option ConnId) (remoteAddr : NetAddr)
    (transport : Transport) (session : Session) (now : Int) : Node × List Effect :=
  let target := n.relayPendingTarget.get remoteAddr.text
  let linkMode : LinkMode :=
    if target.isSome ∨ remoteAddr.text ∈ n.relayInbound then .relay else .p2p
  let cleared : Node :=
    { n with
      pendingHandshakes := n.pendingHandshakes.delete (transport, remoteAddr.text)
      relayPendingTarget := n.relayPendingTarget.delete remoteAddr.text
      relayInbound := n.relayInbound.erase remoteAddr.text }
  if n.isFull then (cleared, [])
  else
    let p := newPeer peerID remoteAddr conn transport linkMode
      (target.map (⟨.udp, ·⟩)) session now
    let connected : Node :=
      { cleared with
        peers := n.peers.add p
        addrToPeer := n.addrToPeer.set remoteAddr.text peerID }
    (connected.registerRelayCandidate peerID remoteAddr,
      [.sendDiscoveryRequest peerID, .syncChannelsWithPeer peerID] ++
        if n.onPeerConnected then [.onPeerConnected peerID] else [])

/-- The part of `processHandshake` behind a finished handshake. -/
def sessionEstablished (env : Env) (n : Node) (conn : Option ConnId) (remoteAddr : NetAddr)
    (transport : Transport) (session : Session) (now : Int) : Node × List Effect :=
  let peerID := peerIDOf env session.remotePublicKey
  match n.peers.get peerID with
  | some existingPeer => n.handleExistingPeer existingPeer conn remoteAddr transport session now
  | none => n.handleNewPeer peerID conn remoteAddr transport session now

def pendingHandshake (n : Node) (stateKey : Transport × Bytes) (ephemeral : Key) (now : Int) :
    HandshakeState :=
  (n.pendingHandshakes.get stateKey).getD
    (newResponderHandshake n.identity.noisePublicKey n.config.networkPassword ephemeral now)

/-- `ephemeral` is the key that a new responder state draws. -/
def processHandshake (env : Env) (n : Node) (conn : Option ConnId) (remoteAddr : NetAddr)
    (transport : Transport) (payload : Message) (ephemeral : Key) (now : Int) :
    Node × List Effect :=
  let stateKey := (transport, remoteAddr.text)
  let hs := n.pendingHandshake stateKey ephemeral now
  match hs.processMessage payload with
  | none =>
      -- a failure on a connected address keeps the state: "redundant packet, safe to ignore"
      if (n.addrToPeer.get remoteAddr.text).isSome then
        ({ n with pendingHandshakes := n.pendingHandshakes.set stateKey hs }, [])
      else ({ n with pendingHandshakes := n.pendingHandshakes.delete stateKey }, [])
  | some (hs, response, session) =>
      let n := { n with pendingHandshakes := n.pendingHandshakes.set stateKey hs }
      let replied := response.toList.map fun message =>
        Effect.sendRaw conn remoteAddr transport (.handshake message)
      match session with
      | none => (n, replied)
      | some session =>
          let established := n.sessionEstablished env conn remoteAddr transport session now
          (established.1, replied ++ established.2)

end Node

/-- The arguments of one call of `processHandshake`, with the key it draws and the time. -/
structure HandshakeCall where
  conn : Option ConnId
  remoteAddr : NetAddr
  transport : Transport
  payload : Message
  ephemeral : Key
  now : Int

inductive HandshakeOutcome where
  | failed
  | waiting
  | refused (peerID : Bytes)
  | connected (peerID : Bytes)
  | switched (peerID : Bytes)
  | refreshed (peerID : Bytes)
  deriving DecidableEq, Repr

namespace Node

def sessionOutcome (env : Env) (n : Node) (transport : Transport) (session : Session) :
    HandshakeOutcome :=
  let peerID := peerIDOf env session.remotePublicKey
  match n.peers.get peerID with
  | some existingPeer =>
      if transport = .tcp ∧ existingPeer.transport ≠ .tcp then .switched peerID
      else .refreshed peerID
  | none => if n.isFull then .refused peerID else .connected peerID

def handshakeOutcome (env : Env) (n : Node) (remoteAddr : NetAddr) (transport : Transport)
    (payload : Message) (ephemeral : Key) (now : Int) : HandshakeOutcome :=
  match (n.pendingHandshake (transport, remoteAddr.text) ephemeral now).processMessage payload with
  | none => .failed
  | some (_, _, none) => .waiting
  | some (_, _, some session) => n.sessionOutcome env transport session

end Node

def TablesAfter (n : Node) (remoteAddr : NetAddr) (transport : Transport)
    (outcome : HandshakeOutcome) (peers : PeerStore) (addrToPeer : GoMap Bytes Bytes) : Prop :=
  match outcome with
  | .failed | .waiting | .refused _ => peers = n.peers ∧ addrToPeer = n.addrToPeer
  | .connected peerID => n.peers.get peerID = none ∧
      ∃ p, p.id = peerID ∧ p.addr = remoteAddr ∧ peers = n.peers.add p ∧
        addrToPeer = n.addrToPeer.set remoteAddr.text peerID
  | .switched peerID => ∃ existing p, n.peers.get peerID = some existing ∧
      p.id = peerID ∧ p.addr = remoteAddr ∧ peers = n.peers.add p ∧
        addrToPeer = n.addrToPeer.set remoteAddr.text peerID
  | .refreshed peerID => ∃ existing p, n.peers.get peerID = some existing ∧ p.id = peerID ∧
      p.addr = (if existing.transport = .tcp ∧ transport ≠ .tcp then existing.addr
        else remoteAddr) ∧
      peers = n.peers.add p ∧ addrToPeer = n.addrToPeer

theorem registerRelayCandidate_frame (n : Node) (peerID : Bytes) (remoteAddr : NetAddr) :
    ∃ relayAddrSet relayManager, n.registerRelayCandidate peerID remoteAddr =
      { n with relayAddrSet, relayManager } := by
  unfold Node.registerRelayCandidate
  split
  · exact ⟨n.relayAddrSet, n.relayManager, rfl⟩
  · split
    · exact ⟨_, _, rfl⟩
    · exact ⟨n.relayAddrSet, n.relayManager, rfl⟩

@[simp] theorem registerRelayCandidate_peers (n : Node) (peerID : Bytes)
    (remoteAddr : NetAddr) :
    (n.registerRelayCandidate peerID remoteAddr).peers = n.peers := by
  rcases registerRelayCandidate_frame n peerID remoteAddr with ⟨relayAddrSet, relayManager, same⟩
  rw [same]

@[simp] theorem registerRelayCandidate_addrToPeer (n : Node) (peerID : Bytes)
    (remoteAddr : NetAddr) :
    (n.registerRelayCandidate peerID remoteAddr).addrToPeer = n.addrToPeer := by
  rcases registerRelayCandidate_frame n peerID remoteAddr with ⟨relayAddrSet, relayManager, same⟩
  rw [same]

@[simp] theorem registerRelayCandidate_relayForward (n : Node) (peerID : Bytes)
    (remoteAddr : NetAddr) :
    (n.registerRelayCandidate peerID remoteAddr).relayForward = n.relayForward := by
  rcases registerRelayCandidate_frame n peerID remoteAddr with ⟨relayAddrSet, relayManager, same⟩
  rw [same]

@[simp] theorem registerRelayCandidate_config (n : Node) (peerID : Bytes)
    (remoteAddr : NetAddr) :
    (n.registerRelayCandidate peerID remoteAddr).config = n.config := by
  rcases registerRelayCandidate_frame n peerID remoteAddr with ⟨relayAddrSet, relayManager, same⟩
  rw [same]

/-- A handshake leaves the relay's forwarding table and the configuration alone. -/
structure SameRelaying (after n : Node) : Prop where
  relayForward : after.relayForward = n.relayForward
  config : after.config = n.config

theorem relayLinked_eq (n : Node) (existing : Peer) (addr : Bytes) :
    ∃ linkMode relayTarget, n.relayLinked existing addr = { existing with linkMode, relayTarget } := by
  unfold Node.relayLinked
  split
  · exact ⟨_, _, rfl⟩
  · split
    · exact ⟨_, _, rfl⟩
    · exact ⟨existing.linkMode, existing.relayTarget, rfl⟩

theorem switchToTCP_tables (n : Node) (existing : Peer) (conn : Option ConnId)
    (remoteAddr : NetAddr) (session : Session) (now : Int) (moves : existing.transport ≠ .tcp) :
    ∃ p, p.id = existing.id ∧ p.addr = remoteAddr ∧
      (n.switchToTCP existing conn remoteAddr .tcp session now).1.peers = n.peers.add p ∧
      (n.switchToTCP existing conn remoteAddr .tcp session now).1.addrToPeer =
        n.addrToPeer.set remoteAddr.text existing.id ∧
      SameRelaying (n.switchToTCP existing conn remoteAddr .tcp session now).1 n := by
  have unblocked : ¬ (existing.transport = .tcp ∧ Transport.tcp ≠ .tcp) := fun both => moves both.1
  refine ⟨(existing.upgradeTransport remoteAddr conn .tcp session now).1,
    existing.upgradeTransport_id remoteAddr conn .tcp session now,
    existing.upgradeTransport_addr remoteAddr conn .tcp session now unblocked, ?_, ?_, ?_, ?_⟩
  all_goals simp only [Node.switchToTCP, registerRelayCandidate_peers,
    registerRelayCandidate_addrToPeer, registerRelayCandidate_relayForward,
    registerRelayCandidate_config]

theorem refreshPeer_tables (n : Node) (existing : Peer) (conn : Option ConnId)
    (remoteAddr : NetAddr) (transport : Transport) (session : Session) (now : Int) :
    ∃ p, p.id = existing.id ∧
      p.addr = (if existing.transport = .tcp ∧ transport ≠ .tcp then existing.addr
        else remoteAddr) ∧
      (n.refreshPeer existing conn remoteAddr transport session now).1.peers = n.peers.add p ∧
      (n.refreshPeer existing conn remoteAddr transport session now).1.addrToPeer = n.addrToPeer ∧
      SameRelaying (n.refreshPeer existing conn remoteAddr transport session now).1 n := by
  rcases relayLinked_eq n existing remoteAddr.text with ⟨linkMode, relayTarget, linked⟩
  have sameID := (n.relayLinked existing remoteAddr.text).upgradeTransport_id remoteAddr conn
    transport session now
  have moved : ((n.relayLinked existing remoteAddr.text).upgradeTransport remoteAddr conn transport
      session now).1.addr =
        if existing.transport = .tcp ∧ transport ≠ .tcp then existing.addr else remoteAddr := by
    by_cases blocked : existing.transport = .tcp ∧ transport ≠ .tcp
    · rw [if_pos blocked, Peer.upgradeTransport_kept _ _ _ _ _ _ (by rw [linked]; exact blocked),
        linked]
    · rw [if_neg blocked]
      exact Peer.upgradeTransport_addr _ _ _ _ _ _ (by rw [linked]; exact blocked)
  rw [linked] at sameID
  refine ⟨((n.relayLinked existing remoteAddr.text).upgradeTransport remoteAddr conn transport
    session now).1.updateLastSeen now, ?_, moved, ?_, ?_, ?_, ?_⟩
  · rw [linked]
    exact sameID
  all_goals simp only [Node.refreshPeer, registerRelayCandidate_peers,
    registerRelayCandidate_addrToPeer, registerRelayCandidate_relayForward,
    registerRelayCandidate_config]

theorem handleNewPeer_tables (n : Node) (peerID : Bytes) (conn : Option ConnId)
    (remoteAddr : NetAddr) (transport : Transport) (session : Session) (now : Int)
    (room : n.isFull = false) :
    ∃ p, p.id = peerID ∧ p.addr = remoteAddr ∧
      (n.handleNewPeer peerID conn remoteAddr transport session now).1.peers = n.peers.add p ∧
      (n.handleNewPeer peerID conn remoteAddr transport session now).1.addrToPeer =
        n.addrToPeer.set remoteAddr.text peerID ∧
      SameRelaying (n.handleNewPeer peerID conn remoteAddr transport session now).1 n := by
  simp only [Node.handleNewPeer, room, Bool.false_eq_true, if_false, registerRelayCandidate_peers,
    registerRelayCandidate_addrToPeer]
  refine ⟨_, rfl, rfl, rfl, trivial, ?_, ?_⟩
  · rw [registerRelayCandidate_relayForward]
  · rw [registerRelayCandidate_config]

theorem handleNewPeer_refused (n : Node) (peerID : Bytes) (conn : Option ConnId)
    (remoteAddr : NetAddr) (transport : Transport) (session : Session) (now : Int)
    (full : n.isFull = true) :
    (n.handleNewPeer peerID conn remoteAddr transport session now).1.peers = n.peers ∧
      (n.handleNewPeer peerID conn remoteAddr transport session now).1.addrToPeer = n.addrToPeer ∧
      SameRelaying (n.handleNewPeer peerID conn remoteAddr transport session now).1 n := by
  simp only [Node.handleNewPeer, full, if_true]
  exact ⟨trivial, trivial, rfl, rfl⟩

theorem sessionEstablished_tables (env : Env) (n : Node) (conn : Option ConnId)
    (remoteAddr : NetAddr) (transport : Transport) (session : Session) (now : Int) :
    TablesAfter n remoteAddr transport (n.sessionOutcome env transport session)
        (n.sessionEstablished env conn remoteAddr transport session now).1.peers
        (n.sessionEstablished env conn remoteAddr transport session now).1.addrToPeer ∧
      SameRelaying (n.sessionEstablished env conn remoteAddr transport session now).1 n := by
  cases found : n.peers.get (peerIDOf env session.remotePublicKey) with
  | none =>
      by_cases full : n.isFull = true
      · rcases handleNewPeer_refused n (peerIDOf env session.remotePublicKey) conn remoteAddr
          transport session now full with ⟨peers, table, same⟩
        simp only [Node.sessionEstablished, Node.sessionOutcome, found, full, if_true]
        exact ⟨⟨peers, table⟩, same⟩
      · have room : n.isFull = false := Bool.eq_false_iff.mpr full
        rcases handleNewPeer_tables n (peerIDOf env session.remotePublicKey) conn remoteAddr
          transport session now room with ⟨p, id, addr, peers, table, same⟩
        simp only [Node.sessionEstablished, Node.sessionOutcome, found, room, Bool.false_eq_true,
          if_false]
        exact ⟨⟨found, p, id, addr, peers, table⟩, same⟩
  | some existing =>
      have named := n.peers.get_id _ existing found
      by_cases switches : transport = .tcp ∧ existing.transport ≠ .tcp
      · rcases switches with ⟨rfl, moves⟩
        rcases switchToTCP_tables n existing conn remoteAddr session now moves with
          ⟨p, id, addr, peers, table, same⟩
        rw [named] at id table
        simp only [Node.sessionEstablished, Node.sessionOutcome, found, Node.handleExistingPeer,
          moves, ne_eq, not_false_eq_true, and_self, if_true]
        exact ⟨⟨existing, p, found, id, addr, peers, table⟩, same⟩
      · rcases refreshPeer_tables n existing conn remoteAddr transport session now with
          ⟨p, id, addr, peers, table, same⟩
        rw [named] at id
        simp only [Node.sessionEstablished, Node.sessionOutcome, found, Node.handleExistingPeer,
          if_neg switches]
        exact ⟨⟨existing, p, found, id, addr, peers, table⟩, same⟩

section

variable (env : Env) (n : Node) (conn : Option ConnId) (remoteAddr : NetAddr)
  (transport : Transport) (payload : Message) (ephemeral : Key) (now : Int)

theorem processHandshake_failed
    (failed : (n.pendingHandshake (transport, remoteAddr.text) ephemeral now).processMessage payload =
      none) :
    n.processHandshake env conn remoteAddr transport payload ephemeral now =
      ({ n with
          pendingHandshakes :=
            if (n.addrToPeer.get remoteAddr.text).isSome then
              n.pendingHandshakes.set (transport, remoteAddr.text)
                (n.pendingHandshake (transport, remoteAddr.text) ephemeral now)
            else n.pendingHandshakes.delete (transport, remoteAddr.text) }, []) := by
  simp only [Node.processHandshake, failed]
  split <;> rfl

theorem processHandshake_waiting (hs : HandshakeState) (response : Option Message)
    (waiting : (n.pendingHandshake (transport, remoteAddr.text) ephemeral now).processMessage
      payload = some (hs, response, none)) :
    n.processHandshake env conn remoteAddr transport payload ephemeral now =
      ({ n with pendingHandshakes := n.pendingHandshakes.set (transport, remoteAddr.text) hs },
        response.toList.map fun message =>
          .sendRaw conn remoteAddr transport (.handshake message)) := by
  simp only [Node.processHandshake, waiting]

theorem processHandshake_finished (hs : HandshakeState) (response : Option Message)
    (session : Session)
    (finished : (n.pendingHandshake (transport, remoteAddr.text) ephemeral now).processMessage
      payload = some (hs, response, some session)) :
    let established := ({ n with
        pendingHandshakes := n.pendingHandshakes.set (transport, remoteAddr.text) hs } :
          Node).sessionEstablished env conn remoteAddr transport session now
    n.processHandshake env conn remoteAddr transport payload ephemeral now =
      (established.1, (response.toList.map fun message =>
        .sendRaw conn remoteAddr transport (.handshake message)) ++ established.2) := by
  simp only [Node.processHandshake, finished]

theorem processHandshake_tables :
    TablesAfter n remoteAddr transport
        (n.handshakeOutcome env remoteAddr transport payload ephemeral now)
        (n.processHandshake env conn remoteAddr transport payload ephemeral now).1.peers
        (n.processHandshake env conn remoteAddr transport payload ephemeral now).1.addrToPeer ∧
      SameRelaying (n.processHandshake env conn remoteAddr transport payload ephemeral now).1 n := by
  unfold Node.handshakeOutcome
  rcases result : (n.pendingHandshake (transport, remoteAddr.text) ephemeral now).processMessage
    payload with _ | ⟨hs, response, _ | session⟩
  · rw [processHandshake_failed env n conn remoteAddr transport payload ephemeral now result]
    exact ⟨⟨rfl, rfl⟩, rfl, rfl⟩
  · rw [processHandshake_waiting env n conn remoteAddr transport payload ephemeral now hs response
      result]
    exact ⟨⟨rfl, rfl⟩, rfl, rfl⟩
  · rw [processHandshake_finished env n conn remoteAddr transport payload ephemeral now hs response
      session result]
    rcases sessionEstablished_tables env
      { n with pendingHandshakes := n.pendingHandshakes.set (transport, remoteAddr.text) hs }
      conn remoteAddr transport session now with ⟨tables, relayForward, config⟩
    exact ⟨tables, relayForward, config⟩

end

end Tenet
