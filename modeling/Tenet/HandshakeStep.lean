import Tenet.Handshake

/-! One handshake message at one node, as the protocols over it see it. -/

namespace Tenet

open Lib

/-- The handshake messages among the packets that a handler sends. -/
def handshakeReplies (effects : List Effect) : List Message :=
  effects.filterMap fun
    | .sendRaw _ _ _ (.handshake message) => some message
    | _ => none

def closedConns (effects : List Effect) : List ConnId :=
  effects.filterMap fun
    | .closeConn conn => some conn
    | _ => none

def Node.completes (n : Node) (remoteAddr : NetAddr) (transport : Transport) (payload : Message)
    (ephemeral : Key) (now : Int) : Option Session :=
  ((n.pendingHandshake (transport, remoteAddr.text) ephemeral now).processMessage payload).bind
    (·.2.2)

def EndsOf (initiator responder : Session) : Prop :=
  ∃ transcript initiatorKey responderKey, initiator = sessionOf true transcript responderKey ∧
    responder = sessionOf false transcript initiatorKey

def Responding (hs : HandshakeState) (sent : Message) : Prop :=
  hs.stage = .awaitThree sent ∧ hs.completed = false ∧ hs.isInitiator = false

structure Initiating (hs : HandshakeState) (first : Message) (prologue : Bytes) (staticKey : Key) :
    Prop where
  stage : hs.stage = .awaitTwo first
  prologue : hs.prologue = prologue
  staticKey : hs.staticKey = staticKey
  initiator : hs.isInitiator = true
  running : hs.completed = false

theorem initiating_finishes {hs : HandshakeState} {first : Message} {prologue : Bytes}
    {staticKey : Key} (initiating : Initiating hs first prologue staticKey)
    (ephemeral remote : Key) :
    hs.processMessage (.two first prologue ephemeral remote) =
      some ({ hs with completed := true },
        some (.three (.two first prologue ephemeral remote) staticKey),
        some (sessionOf true (.three (.two first prologue ephemeral remote) staticKey) remote)) := by
  simp only [HandshakeState.processMessage, initiating.running, Bool.false_eq_true, if_false,
    initiating.stage, initiating.prologue, and_self, if_true, initiating.staticKey,
    initiating.initiator]

theorem responding_finishes {hs : HandshakeState} {sent : Message} (responding : Responding hs sent)
    (static : Key) :
    hs.processMessage (.three sent static) =
      some ({ hs with completed := true }, none,
        some (sessionOf false (.three sent static) static)) := by
  rcases responding with ⟨stage, running, responder⟩
  simp only [HandshakeState.processMessage, running, Bool.false_eq_true, if_false, stage, if_true,
    responder]

theorem responding_rejects {hs : HandshakeState} {sent : Message} (responding : Responding hs sent)
    (message : Message) (other : ∀ static, message ≠ .three sent static) :
    hs.processMessage message = none := by
  rcases responding with ⟨stage, running, responder⟩
  cases message with
  | one ephemeral =>
      simp only [HandshakeState.processMessage, running, Bool.false_eq_true, if_false, stage]
  | two answered prologue ephemeral static =>
      simp only [HandshakeState.processMessage, running, Bool.false_eq_true, if_false, stage]
  | three answered static =>
      have different : answered ≠ sent := by
        intro same
        exact other static (by rw [same])
      simp only [HandshakeState.processMessage, running, Bool.false_eq_true, if_false, stage,
        if_neg different]

theorem handshakeReplies_sendRaw (conn : Option ConnId) (addr : NetAddr) (transport : Transport)
    (response : Option Message) (rest : List Effect) :
    handshakeReplies ((response.toList.map fun message =>
        .sendRaw conn addr transport (.handshake message)) ++ rest) =
      response.toList ++ handshakeReplies rest := by
  cases response with
  | none => rfl
  | some message => rfl

theorem closedConns_sendRaw (conn : Option ConnId) (addr : NetAddr) (transport : Transport)
    (response : Option Message) (rest : List Effect) :
    closedConns ((response.toList.map fun message =>
        .sendRaw conn addr transport (.handshake message)) ++ rest) = closedConns rest := by
  cases response with
  | none => rfl
  | some message => rfl

/-- The effects that send no packet by themselves and hand no data over. -/
def Effect.isNotice : Effect → Bool
  | .closeConn _ | .closeSession _ | .onPeerConnected _ | .sendDiscoveryRequest _
  | .syncChannelsWithPeer _ => true
  | _ => false

theorem filterMap_notices {β : Type} {effects : List Effect} {pick : Effect → Option β}
    (notices : ∀ effect ∈ effects, effect.isNotice = true)
    (blind : ∀ effect, effect.isNotice = true → pick effect = none) : effects.filterMap pick = [] := by
  rw [List.filterMap_eq_nil_iff]
  intro effect member
  exact blind effect (notices effect member)

theorem upgradeTransport_notices (p : Peer) (addr : NetAddr) (conn : Option ConnId)
    (transport : Transport) (session : Session) (now : Int) :
    ∀ effect ∈ (p.upgradeTransport addr conn transport session now).2,
      effect.isNotice = true := by
  unfold Peer.upgradeTransport
  split
  · nofun
  · intro effect member
    rcases List.mem_append.mp member with closing | closing
    · split at closing
      · rcases List.mem_map.mp closing with ⟨old, _, rfl⟩
        rfl
      · cases closing
    · split at closing
      · rcases List.mem_map.mp closing with ⟨old, _, rfl⟩
        rfl
      · cases closing

theorem closedConns_append (first second : List Effect) :
    closedConns (first ++ second) = closedConns first ++ closedConns second :=
  List.filterMap_append

theorem closedConns_closeConn (conns : List ConnId) : closedConns (conns.map .closeConn) = conns := by
  induction conns with
  | nil => rfl
  | cons conn rest ih => exact congrArg (List.cons conn) ih

theorem closedConns_closeSession (sessions : List Session) :
    closedConns (sessions.map .closeSession) = [] := by
  induction sessions with
  | nil => rfl
  | cons session rest ih => exact ih

theorem upgradeTransport_closedConns (p : Peer) (addr : NetAddr) (conn : Option ConnId)
    (session : Session) (now : Int) (onTCP : p.transport = .tcp) :
    closedConns (p.upgradeTransport addr conn .tcp session now).2 =
      if p.conn = conn then [] else p.conn.toList := by
  have moves : ¬ (p.transport = .tcp ∧ Transport.tcp ≠ .tcp) := fun both => both.2 rfl
  have closable : p.transport ≠ .udp := by
    rw [onTCP]
    decide
  have sessions (replaced : Prop) [Decidable replaced] :
      closedConns (if replaced then p.session.toList.map .closeSession else []) = [] := by
    split
    · exact closedConns_closeSession _
    · rfl
  rw [Peer.upgradeTransport, if_neg moves, closedConns_append, sessions, List.append_nil]
  by_cases same : p.conn = conn
  · rw [if_pos same, if_neg (fun both => both.1 same)]
    rfl
  · rw [if_neg same, if_pos ⟨same, closable⟩, closedConns_closeConn]

section

variable (env : Env) (n : Node) (conn : Option ConnId) (remoteAddr : NetAddr)
  (transport : Transport) (session : Session) (now : Int)

theorem sessionEstablished_frame :
    ∃ peers addrToPeer relayPendingTarget relayInbound relayAddrSet relayManager,
      (n.sessionEstablished env conn remoteAddr transport session now).1 =
        { n with
          peers, addrToPeer, relayPendingTarget, relayInbound, relayAddrSet, relayManager
          pendingHandshakes := n.pendingHandshakes.delete (transport, remoteAddr.text) } := by
  unfold Node.sessionEstablished
  dsimp only
  split
  · unfold Node.handleExistingPeer
    split
    · obtain ⟨relayAddrSet, relayManager, same⟩ := registerRelayCandidate_frame _ _ remoteAddr
      exact ⟨_, _, _, _, relayAddrSet, relayManager, same⟩
    · obtain ⟨relayAddrSet, relayManager, same⟩ := registerRelayCandidate_frame _ _ remoteAddr
      exact ⟨_, _, _, _, relayAddrSet, relayManager, same⟩
  · unfold Node.handleNewPeer
    dsimp only
    split
    · exact ⟨_, _, _, _, _, _, rfl⟩
    · obtain ⟨relayAddrSet, relayManager, same⟩ := registerRelayCandidate_frame _ _ remoteAddr
      exact ⟨_, _, _, _, relayAddrSet, relayManager, same⟩

theorem sessionEstablished_pendingHandshakes :
    (n.sessionEstablished env conn remoteAddr transport session now).1.pendingHandshakes =
      n.pendingHandshakes.delete (transport, remoteAddr.text) := by
  obtain ⟨_, _, _, _, _, _, same⟩ :=
    sessionEstablished_frame env n conn remoteAddr transport session now
  rw [same]

theorem sessionEstablished_identity :
    (n.sessionEstablished env conn remoteAddr transport session now).1.identity = n.identity := by
  obtain ⟨_, _, _, _, _, _, same⟩ :=
    sessionEstablished_frame env n conn remoteAddr transport session now
  rw [same]

theorem sessionEstablished_notices :
    ∀ effect ∈ (n.sessionEstablished env conn remoteAddr transport session now).2,
      effect.isNotice = true := by
  unfold Node.sessionEstablished
  dsimp only
  split
  · next existing _ =>
      unfold Node.handleExistingPeer
      split
      · intro effect member
        rcases List.mem_append.mp member with closing | syncing
        · exact upgradeTransport_notices existing remoteAddr conn transport session now effect closing
        · rw [List.mem_singleton.mp syncing]
          rfl
      · exact upgradeTransport_notices _ remoteAddr conn transport session now
  · unfold Node.handleNewPeer
    dsimp only
    split
    · nofun
    · cases n.onPeerConnected <;> simp [Effect.isNotice]

theorem sessionEstablished_replies :
    handshakeReplies (n.sessionEstablished env conn remoteAddr transport session now).2 = [] := by
  apply filterMap_notices (sessionEstablished_notices env n conn remoteAddr transport session now)
  intro effect notice
  cases effect with
  | sendRaw conn addr transport packet => cases notice
  | _ => rfl

theorem sessionEstablished_new
    (unknown : n.peers.get (peerIDOf env session.remotePublicKey) = none)
    (room : n.isFull = false) :
    ∃ p, p.id = peerIDOf env session.remotePublicKey ∧ p.session = some session ∧ p.conn = conn ∧
      p.transport = transport ∧
      (n.sessionEstablished env conn remoteAddr transport session now).1.peers = n.peers.add p ∧
      (n.sessionEstablished env conn remoteAddr transport session now).1.addrToPeer =
        n.addrToPeer.set remoteAddr.text (peerIDOf env session.remotePublicKey) ∧
      closedConns (n.sessionEstablished env conn remoteAddr transport session now).2 = [] := by
  simp only [Node.sessionEstablished, unknown, Node.handleNewPeer, room, Bool.false_eq_true, if_false,
    registerRelayCandidate_peers, registerRelayCandidate_addrToPeer]
  refine ⟨_, rfl, rfl, rfl, rfl, rfl, trivial, ?_⟩
  cases n.onPeerConnected <;> rfl

theorem sessionEstablished_switch (existing : Peer)
    (known : n.peers.get (peerIDOf env session.remotePublicKey) = some existing)
    (onUDP : existing.transport = .udp) :
    ∃ p, p.id = peerIDOf env session.remotePublicKey ∧ p.session = some session ∧ p.conn = conn ∧
      p.transport = .tcp ∧
      (n.sessionEstablished env conn remoteAddr .tcp session now).1.peers = n.peers.add p ∧
      closedConns (n.sessionEstablished env conn remoteAddr .tcp session now).2 = [] := by
  have named := n.peers.get_id _ existing known
  have switches : Transport.tcp = .tcp ∧ existing.transport ≠ .tcp := by
    rw [onUDP]
    decide
  have switched : n.sessionEstablished env conn remoteAddr .tcp session now =
      n.switchToTCP existing conn remoteAddr .tcp session now := by
    simp only [Node.sessionEstablished, known]
    exact if_pos switches
  have moves : ¬ (existing.transport = .tcp ∧ Transport.tcp ≠ .tcp) := fun both => both.2 rfl
  have unclosed : ¬ (existing.conn ≠ conn ∧ existing.transport ≠ .udp) := fun both => both.2 onUDP
  have sessions (replaced : Prop) [Decidable replaced] :
      closedConns (if replaced then existing.session.toList.map .closeSession else []) = [] := by
    split
    · exact closedConns_closeSession _
    · rfl
  rw [switched, Node.switchToTCP, registerRelayCandidate_peers]
  refine ⟨_, ?_, ?_, ?_, ?_, rfl, ?_⟩
  · exact (Peer.upgradeTransport_id _ _ _ _ _ _).trans named
  · rw [Peer.upgradeTransport, if_neg moves]
  · rw [Peer.upgradeTransport, if_neg moves]
  · rw [Peer.upgradeTransport, if_neg moves]
  · rw [closedConns_append, Peer.upgradeTransport, if_neg moves, closedConns_append, if_neg unclosed,
      sessions]
    rfl

theorem sessionEstablished_refresh (existing : Peer)
    (known : n.peers.get (peerIDOf env session.remotePublicKey) = some existing)
    (stays : ¬(transport = .tcp ∧ existing.transport ≠ .tcp)) :
    ∃ linkMode relayTarget,
      let upgraded := { existing with linkMode, relayTarget : Peer }.upgradeTransport remoteAddr conn
        transport session now
      (n.sessionEstablished env conn remoteAddr transport session now).1.peers =
          n.peers.add (upgraded.1.updateLastSeen now) ∧
        (n.sessionEstablished env conn remoteAddr transport session now).2 = upgraded.2 := by
  have refreshed : n.sessionEstablished env conn remoteAddr transport session now =
      n.refreshPeer existing conn remoteAddr transport session now := by
    simp only [Node.sessionEstablished, known]
    exact if_neg stays
  rcases relayLinked_eq n existing remoteAddr.text with ⟨linkMode, relayTarget, linked⟩
  refine ⟨linkMode, relayTarget, ?_, ?_⟩
  · simp only [refreshed, Node.refreshPeer, registerRelayCandidate_peers, linked]
  · simp only [refreshed, Node.refreshPeer, linked]

theorem sessionEstablished_known (existing : Peer)
    (known : n.peers.get (peerIDOf env session.remotePublicKey) = some existing) :
    ∃ linkMode relayTarget lastSeen,
      (n.sessionEstablished env conn remoteAddr transport session now).1.peers = n.peers.add
        (({ existing with linkMode, relayTarget : Peer }.upgradeTransport remoteAddr conn transport
          session now).1.updateLastSeen lastSeen) := by
  by_cases switches : transport = .tcp ∧ existing.transport ≠ .tcp
  · refine ⟨existing.linkMode, existing.relayTarget,
      (existing.upgradeTransport remoteAddr conn transport session now).1.lastSeen, ?_⟩
    simp only [Node.sessionEstablished, known, Node.handleExistingPeer, if_pos switches,
      Node.switchToTCP, registerRelayCandidate_peers]
    exact rfl
  · obtain ⟨linkMode, relayTarget, peers, _⟩ :=
      sessionEstablished_refresh env n conn remoteAddr transport session now existing known switches
    exact ⟨linkMode, relayTarget, now, peers⟩

theorem sessionEstablished_again (existing : Peer)
    (known : n.peers.get (peerIDOf env session.remotePublicKey) = some existing)
    (onTCP : existing.transport = .tcp) :
    ∃ p, p.id = peerIDOf env session.remotePublicKey ∧ p.session = some session ∧ p.conn = conn ∧
      p.transport = .tcp ∧
      (n.sessionEstablished env conn remoteAddr .tcp session now).1.peers = n.peers.add p ∧
      closedConns (n.sessionEstablished env conn remoteAddr .tcp session now).2 =
        if existing.conn = conn then [] else existing.conn.toList := by
  have named := n.peers.get_id _ existing known
  have moves : ¬ (existing.transport = .tcp ∧ Transport.tcp ≠ .tcp) := fun both => both.2 rfl
  rcases sessionEstablished_refresh env n conn remoteAddr .tcp session now existing known
    (fun both => both.2 onTCP) with ⟨linkMode, relayTarget, peers, effects⟩
  refine ⟨_, ?_, ?_, ?_, ?_, peers, ?_⟩
  · exact (Peer.upgradeTransport_id _ _ _ _ _ _).trans named
  · simp only [Peer.upgradeTransport, if_neg moves, Peer.updateLastSeen]
  · simp only [Peer.upgradeTransport, if_neg moves, Peer.updateLastSeen]
  · simp only [Peer.upgradeTransport, if_neg moves, Peer.updateLastSeen]
  · rw [effects]
    exact upgradeTransport_closedConns
      { existing with linkMode, relayTarget } remoteAddr conn session now onTCP

end

section

variable (env : Env) (n : Node) (conn : Option ConnId) (remoteAddr : NetAddr)
  (transport : Transport) (payload : Message) (ephemeral : Key) (now : Int)

theorem processHandshake_frame :
    ∃ peers addrToPeer relayPendingTarget relayInbound relayAddrSet relayManager pendingHandshakes,
      (n.processHandshake env conn remoteAddr transport payload ephemeral now).1 =
        { n with
          peers, addrToPeer, relayPendingTarget, relayInbound, relayAddrSet, relayManager
          pendingHandshakes } := by
  rcases result : (n.pendingHandshake (transport, remoteAddr.text) ephemeral now).processMessage
    payload with _ | ⟨hs, response, _ | session⟩
  · rw [processHandshake_failed env n conn remoteAddr transport payload ephemeral now result]
    exact ⟨_, _, _, _, _, _, _, rfl⟩
  · rw [processHandshake_waiting env n conn remoteAddr transport payload ephemeral now hs response
      result]
    exact ⟨_, _, _, _, _, _, _, rfl⟩
  · rw [processHandshake_finished env n conn remoteAddr transport payload ephemeral now hs response
      session result]
    obtain ⟨_, _, _, _, _, _, same⟩ := sessionEstablished_frame env
      { n with pendingHandshakes := n.pendingHandshakes.set (transport, remoteAddr.text) hs } conn
      remoteAddr transport session now
    exact ⟨_, _, _, _, _, _, _, same⟩

theorem processHandshake_identity :
    (n.processHandshake env conn remoteAddr transport payload ephemeral now).1.identity =
      n.identity := by
  obtain ⟨_, _, _, _, _, _, _, same⟩ :=
    processHandshake_frame env n conn remoteAddr transport payload ephemeral now
  rw [same]

theorem processHandshake_other_pending (key : Transport × Bytes)
    (other : key ≠ (transport, remoteAddr.text)) :
    (n.processHandshake env conn remoteAddr transport payload ephemeral
      now).1.pendingHandshakes.get key = n.pendingHandshakes.get key := by
  rcases result : (n.pendingHandshake (transport, remoteAddr.text) ephemeral now).processMessage
    payload with _ | ⟨hs, response, _ | session⟩
  · rw [processHandshake_failed env n conn remoteAddr transport payload ephemeral now result]
    dsimp only
    split
    · rw [GoMap.get_set, if_neg other]
    · rw [GoMap.get_delete, if_neg other]
  · rw [processHandshake_waiting env n conn remoteAddr transport payload ephemeral now hs response
      result, GoMap.get_set, if_neg other]
  · rw [processHandshake_finished env n conn remoteAddr transport payload ephemeral now hs response
      session result]
    dsimp only
    rw [sessionEstablished_pendingHandshakes, GoMap.get_delete, if_neg other, GoMap.get_set,
      if_neg other]

def Node.responding (n : Node) (payload : Message) (ephemeral : Key) (now : Int) : HandshakeState :=
  { newResponderHandshake n.identity.noisePublicKey n.config.networkPassword ephemeral now with
    stage := .awaitThree (.two payload (prologuePrefix ++ n.config.networkPassword) ephemeral
      n.identity.noisePublicKey) }

theorem processHandshake_first
    (idle : n.pendingHandshakes.get (transport, remoteAddr.text) = none) :
    n.processHandshake env conn remoteAddr transport payload ephemeral now =
      ({ n with
          pendingHandshakes := n.pendingHandshakes.set (transport, remoteAddr.text)
            (n.responding payload ephemeral now) },
        [.sendRaw conn remoteAddr transport (.handshake
          (.two payload (prologuePrefix ++ n.config.networkPassword) ephemeral
            n.identity.noisePublicKey))]) := by
  have fresh : n.pendingHandshake (transport, remoteAddr.text) ephemeral now =
      newResponderHandshake n.identity.noisePublicKey n.config.networkPassword ephemeral now := by
    rw [Node.pendingHandshake, idle]
    rfl
  apply processHandshake_waiting env n conn remoteAddr transport payload ephemeral now _
    (some (.two payload (prologuePrefix ++ n.config.networkPassword) ephemeral
      n.identity.noisePublicKey))
  rw [fresh]
  rfl

theorem pendingHandshake_of_get (hs : HandshakeState)
    (pending : n.pendingHandshakes.get (transport, remoteAddr.text) = some hs) :
    n.pendingHandshake (transport, remoteAddr.text) ephemeral now = hs := by
  rw [Node.pendingHandshake, pending]
  rfl

theorem processHandshake_replies :
    handshakeReplies (n.processHandshake env conn remoteAddr transport payload ephemeral now).2 =
      (((n.pendingHandshake (transport, remoteAddr.text) ephemeral now).processMessage payload).bind
        fun result => result.2.1).toList := by
  rcases result : (n.pendingHandshake (transport, remoteAddr.text) ephemeral now).processMessage
    payload with _ | ⟨hs, response, _ | session⟩
  · rw [processHandshake_failed env n conn remoteAddr transport payload ephemeral now result]
    rfl
  · rw [processHandshake_waiting env n conn remoteAddr transport payload ephemeral now hs response
      result]
    cases response <;> rfl
  · rw [processHandshake_finished env n conn remoteAddr transport payload ephemeral now hs response
      session result]
    dsimp only
    rw [handshakeReplies_sendRaw, sessionEstablished_replies, List.append_nil]
    rfl

theorem processHandshake_finished_entry (hs finishedState : HandshakeState)
    (response : Option Message) (session : Session)
    (pending : n.pendingHandshakes.get (transport, remoteAddr.text) = some hs)
    (finished : hs.processMessage payload = some (finishedState, response, some session)) :
    (n.processHandshake env conn remoteAddr transport payload ephemeral now).1.pendingHandshakes =
        (n.pendingHandshakes.set (transport, remoteAddr.text) finishedState).delete
          (transport, remoteAddr.text) ∧
      handshakeReplies (n.processHandshake env conn remoteAddr transport payload ephemeral now).2 =
        response.toList := by
  have taken := pendingHandshake_of_get n remoteAddr transport ephemeral now hs pending
  refine ⟨?_, ?_⟩
  · rw [processHandshake_finished env n conn remoteAddr transport payload ephemeral now
      finishedState response session (by rw [taken, finished])]
    exact sessionEstablished_pendingHandshakes env _ conn remoteAddr transport session now
  · rw [processHandshake_replies, taken, finished]
    rfl

end

end Tenet
