import Tenet.Activity

/-! The KCP registry of `node/kcp_transport.go` in everything that a node does: which sessions are
dialed, removed and closed, and whether a session in the registry can still be written to. -/

namespace Tenet

open Lib

namespace Node

def kcpSession (n : Node) (peerID : Bytes) : Option KCPSession :=
  n.kcpTransport.bind fun t => t.sessions.get peerID

/-- `handleSession` returns, for whatever reason, and its deferred `Close` runs. The registry and
the mux keep their entries. -/
def handleSessionEnds (n : Node) (handler : Nat) : Node :=
  { n with
    kcpTransport := n.kcpTransport.map fun t =>
      { t with
        sessions := t.sessions.mapValues fun session =>
          if session.handler = handler then { session with closed := true } else session } }

end Node

inductive KcpEvent where
  | perform (activity : Activity)
  | removeSession (peerID : Bytes)
  /-- the reader of the session dialed over that handler ends -/
  | handleSessionEnds (handler : Nat)

def Node.kcpStep (env : Env) (aead : Aead) (n : Node) : KcpEvent → Node
  | .perform activity => (n.perform env aead activity).1
  | .removeSession peerID => n.removeSession peerID
  | .handleSessionEnds handler => n.handleSessionEnds handler

section Registry

variable (n : Node) (peerID remoteAddr : Bytes) (dial : Option UInt32)

theorem kcpSession_congr {after : Node} (same : after.kcpTransport = n.kcpTransport) (id : Bytes) :
    after.kcpSession id = n.kcpSession id := by
  rw [Node.kcpSession, Node.kcpSession, same]

theorem upgradePeer_kcpSession (id : Bytes) :
    (n.upgradePeer peerID remoteAddr dial).1.kcpSession id = n.kcpSession id ∨
      id = peerID ∧ n.kcpTransport.isSome = true ∧ ∃ conv, dial = some conv ∧
        (n.upgradePeer peerID remoteAddr dial).1.kcpSession id =
          some ⟨n.mux.registered, conv, remoteAddr, false⟩ := by
  unfold Node.upgradePeer
  split
  · exact Or.inl rfl
  · next t started =>
      cases dial with
      | none => exact Or.inl rfl
      | some conv =>
          simp only [Node.kcpSession, started, Option.bind_some, GoMap.get_set]
          split
          · next same => exact Or.inr ⟨same, rfl, conv, rfl, rfl⟩
          · exact Or.inl rfl

theorem upgradePeer_dialed (dialed : (n.upgradePeer peerID remoteAddr dial).2 = true) :
    ∃ conv, (n.upgradePeer peerID remoteAddr dial).1.kcpSession peerID =
      some ⟨n.mux.registered, conv, remoteAddr, false⟩ := by
  unfold Node.upgradePeer at dialed ⊢
  split at dialed
  · cases dialed
  · cases dial with
    | none => cases dialed
    | some conv =>
        refine ⟨conv, ?_⟩
        simp only [Node.kcpSession, Option.bind_some, GoMap.get_set, if_true]
        rfl

theorem upgradePeer_kcpHandlers :
    ((n.upgradePeer peerID remoteAddr dial).1.mux = n.mux ∧
        ∀ id, (n.upgradePeer peerID remoteAddr dial).1.kcpSession id = n.kcpSession id) ∨
      (n.upgradePeer peerID remoteAddr dial).1.mux.registered = n.mux.registered + 1 ∧
        ∀ addr handler,
          (n.upgradePeer peerID remoteAddr dial).1.mux.kcpHandlers.get addr = some handler →
            addr = remoteAddr ∧ handler = n.mux.registered ∨
              n.mux.kcpHandlers.get addr = some handler := by
  unfold Node.upgradePeer
  split
  · exact Or.inl ⟨rfl, fun _ => rfl⟩
  · refine Or.inr ?_
    cases dial with
    | none =>
        refine ⟨rfl, ?_⟩
        intro addr handler found
        obtain ⟨other, registered⟩ := GoMap.get_delete_eq_some.mp found
        rcases GoMap.get_set_eq_some.mp registered with ⟨same, _⟩ | ⟨_, before⟩
        · exact absurd same other
        · exact Or.inr before
    | some conv =>
        refine ⟨rfl, ?_⟩
        intro addr handler found
        rcases GoMap.get_set_eq_some.mp found with new | ⟨_, before⟩
        · exact Or.inl new
        · exact Or.inr before

theorem removeSession_kcpSession (id : Bytes) :
    (n.removeSession peerID).kcpSession id = if id = peerID then none else n.kcpSession id := by
  unfold Node.removeSession
  split
  · next absent =>
      simp only [Node.kcpSession, absent, Option.bind_none]
      split <;> rfl
  · next t started =>
      split
      · next missing =>
          simp only [Node.kcpSession, started, Option.bind_some]
          split
          · next same => rw [same, missing]
          · rfl
      · next session found => simp only [Node.kcpSession, started, Option.bind_some, GoMap.get_delete]

theorem removeSession_kcpHandlers (addr : Bytes) :
    (n.removeSession peerID).mux.kcpHandlers.get addr =
      if ∃ session, n.kcpSession peerID = some session ∧ addr = session.peerAddr then none
      else n.mux.kcpHandlers.get addr := by
  unfold Node.removeSession
  split
  · next absent => simp [Node.kcpSession, absent]
  · next t started =>
      split
      · next missing => simp [Node.kcpSession, started, missing]
      · next session found =>
          simp [Node.kcpSession, started, found, UDPMux.unregisterKCPHandler]

theorem removeSession_registered : (n.removeSession peerID).mux.registered = n.mux.registered := by
  unfold Node.removeSession
  split
  · rfl
  · split <;> rfl

theorem handleSessionEnds_kcpSession (handler : Nat) (id : Bytes) :
    (n.handleSessionEnds handler).kcpSession id = (n.kcpSession id).map fun session =>
      if session.handler = handler then { session with closed := true } else session := by
  simp only [Node.kcpSession, Node.handleSessionEnds]
  cases n.kcpTransport with
  | none => rfl
  | some t => simp only [Option.map_some, Option.bind_some, GoMap.get_mapValues]

end Registry

/-- What anything but a handshake may have changed about a record. -/
structure Rewritten (p q : Peer) : Prop where
  fields : ∃ session lastSeen remoteChannels reassemblyBuffer rehandshake,
    q = { p with session, lastSeen, remoteChannels, reassemblyBuffer, rehandshake }
  keys : q.keys = p.keys

theorem Rewritten.refl (p : Peer) : Rewritten p p :=
  ⟨⟨p.session, p.lastSeen, p.remoteChannels, p.reassemblyBuffer, p.rehandshake, rfl⟩, rfl⟩

/-- Every record that is stored afterwards is one that was stored before, where it was. -/
def InPlace (before after : PeerStore) : Prop :=
  ∀ id q, after.get id = some q → ∃ p, before.get id = some p ∧ Rewritten p q

namespace InPlace

variable {before after : PeerStore}

theorem refl (store : PeerStore) : InPlace store store :=
  fun _ q stored => ⟨q, stored, Rewritten.refl q⟩

theorem rewritten {id : Bytes} {p q : Peer} (stored : before.get id = some p)
    (changed : Rewritten p q) : InPlace before (before.add q) := by
  intro other r found
  have named := before.get_id id p stored
  have same : q.id = p.id := by
    obtain ⟨⟨_, _, _, _, _, rfl⟩, _⟩ := changed
    rfl
  rw [PeerStore.get_add] at found
  split at found
  · next here =>
      cases found
      refine ⟨p, ?_, changed⟩
      rw [here, same, named, stored]
  · exact refl before other r found

theorem trans {middle : PeerStore} (first : InPlace before middle) (second : InPlace middle after) :
    InPlace before after := by
  intro id r found
  obtain ⟨q, stored, ⟨_, _, _, _, _, rfl⟩, keys⟩ := second id r found
  obtain ⟨p, earlier, ⟨_, _, _, _, _, rfl⟩, followed⟩ := first id q stored
  exact ⟨p, earlier, ⟨_, _, _, _, _, rfl⟩, keys.trans followed⟩

theorem removed {id : Bytes} (same : ∀ other, after.get other =
    if other = id then none else before.get other) : InPlace before after := by
  intro other q found
  rw [same] at found
  split at found
  · cases found
  · exact refl before other q found

end InPlace

/-- How the registry and the mux come out of whatever a node does. -/
inductive RegistryChange (n after : Node) : Prop where
  | none (mux : after.mux = n.mux) (kcpTransport : after.kcpTransport = n.kcpTransport)
  | dialed (peerID : Bytes) (dial : Option UInt32) (p : Peer)
      (stored : n.peers.get peerID = some p)
      (mux : after.mux = (n.upgradePeer peerID p.addr.text dial).1.mux)
      (kcpTransport : after.kcpTransport =
        (n.upgradePeer peerID p.addr.text dial).1.kcpTransport)
  | removed (peerID : Bytes) (gone : after.peers.get peerID = .none)
      (mux : after.mux = (n.removeSession peerID).mux)
      (kcpTransport : after.kcpTransport = (n.removeSession peerID).kcpTransport)

section Changes

variable (env : Env) (aead : Aead) (n : Node)

theorem removeSession_congr {middle : Node} (mux : middle.mux = n.mux)
    (kcpTransport : middle.kcpTransport = n.kcpTransport) (peerID : Bytes) :
    (middle.removeSession peerID).mux = (n.removeSession peerID).mux ∧
      (middle.removeSession peerID).kcpTransport = (n.removeSession peerID).kcpTransport := by
  unfold Node.removeSession
  rw [kcpTransport, mux]
  split
  · exact ⟨mux, kcpTransport⟩
  · split
    · exact ⟨mux, kcpTransport⟩
    · exact ⟨rfl, rfl⟩

theorem removePeerWithReconnect_registry (middle : Node) (mux : middle.mux = n.mux)
    (kcpTransport : middle.kcpTransport = n.kcpTransport) (peerID : Bytes)
    (shouldReconnect : Bool) :
    RegistryChange n (middle.removePeerWithReconnect peerID shouldReconnect).1 := by
  have gone := removePeerWithReconnect_peers middle peerID shouldReconnect peerID
  rw [if_pos rfl] at gone
  cases stored : middle.peers.get peerID with
  | none =>
      rw [Node.removePeerWithReconnect, stored]
      exact .none mux kcpTransport
  | some p =>
      obtain ⟨sameMux, sameTransport⟩ := removeSession_congr n mux kcpTransport peerID
      apply RegistryChange.removed peerID gone
      · rw [← sameMux, Node.removePeerWithReconnect, stored]
      · rw [← sameTransport, Node.removePeerWithReconnect, stored]

theorem removePeerWithReconnect_inPlace (peerID : Bytes) (shouldReconnect : Bool) :
    InPlace n.peers (n.removePeerWithReconnect peerID shouldReconnect).1.peers :=
  InPlace.removed (removePeerWithReconnect_peers n peerID shouldReconnect)

theorem triggerFastRehandshake_registry (cfg : FastRehandshakeConfig) (peerID : Bytes) (now : Int) :
    RegistryChange n (n.triggerFastRehandshake cfg peerID now).1 ∧
      InPlace n.peers (n.triggerFastRehandshake cfg peerID now).1.peers := by
  rcases triggerFastRehandshake_cases cfg n peerID now with
    refused | ⟨stored, rehandshake, found, _, refused | started | removed⟩
  · rw [refused]
    exact ⟨.none rfl rfl, InPlace.refl n.peers⟩
  all_goals
    have written : InPlace n.peers (n.peers.add { stored with rehandshake }) :=
      InPlace.rewritten found ⟨⟨_, _, _, _, rehandshake, rfl⟩, rfl⟩
  · rw [refused]
    exact ⟨.none rfl rfl, written⟩
  · rw [started]
    exact ⟨.none rfl rfl, written⟩
  · rw [removed]
    exact ⟨removePeerWithReconnect_registry n
        { n with peers := n.peers.add { stored with rehandshake } } rfl rfl peerID true,
      written.trans (removePeerWithReconnect_inPlace
        { n with peers := n.peers.add { stored with rehandshake } } peerID true)⟩

theorem fastRehandshake_registry (cfg : FastRehandshakeConfig) (peerID : Bytes)
    (removed : Option Peer) (closing accepted : Bool) (ephemeral : Key) (now : Int) :
    RegistryChange n (n.fastRehandshake cfg peerID removed closing accepted ephemeral now).1 ∧
      InPlace n.peers
        (n.fastRehandshake cfg peerID removed closing accepted ephemeral now).1.peers := by
  unfold Node.fastRehandshake
  cases found : removed.or (n.peers.get peerID) with
  | none => exact ⟨.none rfl rfl, InPlace.refl n.peers⟩
  | some p =>
      obtain ⟨pendingHandshakes, rehandshake, effects, result, givesUp, ran, _⟩ :=
        runFastRehandshake_cases cfg n p closing accepted ephemeral now
      simp only [ran]
      cases removed with
      | some record =>
          cases givesUp with
          | false => exact ⟨.none rfl rfl, InPlace.refl n.peers⟩
          | true =>
              exact ⟨removePeerWithReconnect_registry n { n with pendingHandshakes } rfl rfl peerID
                  true,
                removePeerWithReconnect_inPlace { n with pendingHandshakes } peerID true⟩
      | none =>
          have written : InPlace n.peers (n.peers.add { p with rehandshake }) :=
            InPlace.rewritten found ⟨⟨_, _, _, _, rehandshake, rfl⟩, rfl⟩
          cases givesUp with
          | false => exact ⟨.none rfl rfl, written⟩
          | true =>
              let marked : Node :=
                { n with pendingHandshakes, peers := n.peers.add { p with rehandshake } }
              exact ⟨removePeerWithReconnect_registry n marked rfl rfl peerID true,
                written.trans (removePeerWithReconnect_inPlace marked peerID true)⟩

theorem sendPath_registry (p : Peer) (dial : Option UInt32) :
    (n.sendPath p dial).1 = n ∨
      (n.sendPath p dial).1 = (n.upgradePeer p.id p.addr.text dial).1 := by
  unfold Node.sendPath
  split
  · exact Or.inl rfl
  · split
    · exact Or.inl rfl
    · split
      · split
        · exact Or.inl rfl
        · split
          · exact Or.inl rfl
          · split <;> exact Or.inr rfl
      · exact Or.inl rfl

theorem sendAppFrame_registry (peerID : Bytes) (appFrameType : UInt8) (data : Bytes)
    (dial : Option UInt32) (accepts : Nat → Bool) :
    RegistryChange n (n.sendAppFrame aead peerID appFrameType data dial accepts).1 ∧
      InPlace n.peers (n.sendAppFrame aead peerID appFrameType data dial accepts).1.peers := by
  have unchanged : RegistryChange n n ∧ InPlace n.peers n.peers := ⟨.none rfl rfl, InPlace.refl _⟩
  unfold Node.sendAppFrame
  split
  · exact unchanged
  · split
    · exact unchanged
    · next p stored =>
        split
        · exact unchanged
        · next session live =>
          have named := n.peers.get_id peerID p stored
          have change (after : Node) (mux : after.mux = (n.sendPath p dial).1.mux)
              (kcpTransport : after.kcpTransport = (n.sendPath p dial).1.kcpTransport) :
              RegistryChange n after := by
            rcases sendPath_registry n p dial with same | dialed
            · rw [same] at mux kcpTransport
              exact .none mux kcpTransport
            · rw [dialed, named] at mux kcpTransport
              exact .dialed peerID dial p stored mux kcpTransport
          obtain ⟨_, _, _, frame⟩ := n.sendPath_frame p dial
          have peers : (n.sendPath p dial).1.peers = n.peers := by rw [frame]
          split
          · next chosen =>
              rw [chosen] at peers change
              exact ⟨change _ rfl rfl, peers ▸ InPlace.refl n.peers⟩
          · next after path chosen =>
              rw [chosen] at peers change
              refine ⟨change _ rfl rfl, ?_⟩
              dsimp only at peers ⊢
              rw [peers]
              refine InPlace.rewritten stored ⟨⟨_, _, _, _, _, rfl⟩, ?_⟩
              have keys := (sendFrames_kept aead after path accepts
                (Fragment.split maxPayloadSize (appFrameType :: data)) ⟨session, 0, []⟩).1
              rw [← sendPayload_eq_sendFrames] at keys
              simp only [Peer.keys, live, Option.map_some, keys]

theorem processData_inPlace (remoteAddr payload : Bytes) :
    ∃ peers, (n.processData aead remoteAddr payload).1 = { n with peers } ∧
      InPlace n.peers peers := by
  rcases processData_cases aead n remoteAddr payload with
    same | ⟨peerID, p, stored, ⟨effects, _, failed⟩ | ⟨plaintext, opened, decrypted, dispatched⟩⟩
  · exact ⟨n.peers, by rw [same], InPlace.refl n.peers⟩
  · rw [failed]
    exact ⟨_, rfl, InPlace.rewritten stored ⟨⟨_, _, _, _, _, rfl⟩, rfl⟩⟩
  · have keys := p.decrypt_keys aead decrypted
    obtain ⟨channels, buffer, made⟩ := dispatchFrame_record n peerID opened plaintext
    obtain ⟨session, cipher, _, _, _, rfl⟩ :=
      p.decrypt_eq_some aead opened payload plaintext decrypted
    rw [dispatched, made]
    exact ⟨_, rfl, InPlace.rewritten stored ⟨⟨_, _, _, _, _, rfl⟩, keys⟩⟩

theorem processHandshake_registry (conn : Option ConnId) (remoteAddr : NetAddr)
    (transport : Transport) (payload : Message) (ephemeral : Key) (now : Int) :
    (n.processHandshake env conn remoteAddr transport payload ephemeral now).1.mux = n.mux ∧
      (n.processHandshake env conn remoteAddr transport payload ephemeral now).1.kcpTransport =
        n.kcpTransport := by
  obtain ⟨_, _, _, _, _, _, _, same⟩ :=
    processHandshake_frame env n conn remoteAddr transport payload ephemeral now
  rw [same]
  exact ⟨rfl, rfl⟩

/-- A dial outside a send, which `Activity` allows and the node does not make. -/
def Activity.isUpgrade : Activity → Bool
  | .upgradePeer _ _ _ => true
  | _ => false

/-- Everything but a bare dial changes the registry by a dial to a stored record's address or by the
removal of a peer, if at all. -/
theorem perform_registry (activity : Activity) (notUpgrade : activity.isUpgrade = false) :
    RegistryChange n (n.perform env aead activity).1 := by
  cases activity with
  | onReceive => exact .none rfl rfl
  | joinChannel name =>
      simp only [Node.perform, Node.joinChannel]
      split <;> exact .none rfl rfl
  | leaveChannel name =>
      simp only [Node.perform, Node.leaveChannel]
      split <;> exact .none rfl rfl
  | connect remoteUDPAddr remoteTCPAddr udpEphemeral tcpEphemeral now => exact .none rfl rfl
  | connectViaRelay relayAddr targetAddr ephemeral now => exact .none rfl rfl
  | triggerFastRehandshake cfg peerID now => exact (triggerFastRehandshake_registry n cfg peerID now).1
  | runFastRehandshake cfg peerID removed closing accepted ephemeral now =>
      exact (fastRehandshake_registry n cfg peerID removed closing accepted ephemeral now).1
  | expire stateKey => exact .none rfl rfl
  | handshake conn remoteAddr transport payload ephemeral now =>
      obtain ⟨mux, kcpTransport⟩ :=
        processHandshake_registry env n conn remoteAddr transport payload ephemeral now
      exact .none mux kcpTransport
  | relayPacket origin payload now =>
      obtain ⟨relayForward, relayInbound, same⟩ := handleRelayPacket_eq env n origin payload now
      rw [Node.perform, same]
      exact .none rfl rfl
  | heartbeat conn remoteAddr transport now timestamp =>
      rcases processHeartbeat_eq n conn remoteAddr transport now timestamp with
        same | ⟨id, p, _, seen⟩
      · rw [Node.perform, same]
        exact .none rfl rfl
      · rw [Node.perform, seen]
        exact .none rfl rfl
  | heartbeatAck remoteAddr now =>
      simp only [Node.perform, Node.processHeartbeatAck]
      split <;> exact .none rfl rfl
  | upgradePeer peerID remoteAddr dial => cases notUpgrade
  | removePeer peerID shouldReconnect =>
      exact removePeerWithReconnect_registry n n rfl rfl peerID shouldReconnect
  | cleanupStaleMappings now => exact .none rfl rfl
  | sendAppFrame peerID appFrameType data dial accepts =>
      exact (sendAppFrame_registry aead n peerID appFrameType data dial accepts).1
  | data remoteAddr payload =>
      obtain ⟨peers, same, _⟩ := processData_inPlace aead n remoteAddr payload
      rw [Node.perform, same]
      exact .none rfl rfl

def Activity.isHandshake : Activity → Bool
  | .handshake _ _ _ _ _ _ => true
  | _ => false

theorem perform_inPlace (activity : Activity) (notHandshake : activity.isHandshake = false) :
    InPlace n.peers (n.perform env aead activity).1.peers := by
  have unchanged : InPlace n.peers n.peers := InPlace.refl n.peers
  cases activity with
  | onReceive => exact unchanged
  | joinChannel name =>
      simp only [Node.perform, Node.joinChannel]
      split <;> exact unchanged
  | leaveChannel name =>
      simp only [Node.perform, Node.leaveChannel]
      split <;> exact unchanged
  | connect remoteUDPAddr remoteTCPAddr udpEphemeral tcpEphemeral now => exact unchanged
  | connectViaRelay relayAddr targetAddr ephemeral now => exact unchanged
  | triggerFastRehandshake cfg peerID now => exact (triggerFastRehandshake_registry n cfg peerID now).2
  | runFastRehandshake cfg peerID removed closing accepted ephemeral now =>
      exact (fastRehandshake_registry n cfg peerID removed closing accepted ephemeral now).2
  | expire stateKey => exact unchanged
  | handshake conn remoteAddr transport payload ephemeral now => cases notHandshake
  | relayPacket origin payload now =>
      obtain ⟨relayForward, relayInbound, same⟩ := handleRelayPacket_eq env n origin payload now
      rw [Node.perform, same]
      exact unchanged
  | heartbeat conn remoteAddr transport now timestamp =>
      rcases processHeartbeat_eq n conn remoteAddr transport now timestamp with
        same | ⟨id, p, stored, seen⟩
      · rw [Node.perform, same]
        exact unchanged
      · rw [Node.perform, seen]
        exact InPlace.rewritten stored ⟨⟨_, _, _, _, _, rfl⟩, rfl⟩
  | heartbeatAck remoteAddr now =>
      simp only [Node.perform, Node.processHeartbeatAck]
      split
      · exact unchanged
      · next p found =>
          obtain ⟨id, _, stored⟩ := Option.bind_eq_some_iff.mp found
          exact InPlace.rewritten stored ⟨⟨_, _, _, _, _, rfl⟩, rfl⟩
  | upgradePeer peerID remoteAddr dial =>
      rw [Node.perform, Node.upgradePeer_peers]
      exact unchanged
  | removePeer peerID shouldReconnect =>
      exact removePeerWithReconnect_inPlace n peerID shouldReconnect
  | cleanupStaleMappings now => exact unchanged
  | sendAppFrame peerID appFrameType data dial accepts =>
      exact (sendAppFrame_registry aead n peerID appFrameType data dial accepts).2
  | data remoteAddr payload =>
      obtain ⟨peers, same, inPlace⟩ := processData_inPlace aead n remoteAddr payload
      rw [Node.perform, same]
      exact inPlace

theorem RegistryChange.kcpSession {after : Node} (change : RegistryChange n after) (id : Bytes)
    (session : KCPSession) (found : after.kcpSession id = some session) :
    n.kcpSession id = some session ∨
      session.closed = false ∧ session.handler = n.mux.registered ∧
        ∃ p, n.peers.get id = some p ∧ session.peerAddr = p.addr.text := by
  cases change with
  | none mux kcpTransport =>
      rw [kcpSession_congr n kcpTransport] at found
      exact Or.inl found
  | dialed peerID dial p stored mux kcpTransport =>
      rw [kcpSession_congr _ kcpTransport] at found
      rcases upgradePeer_kcpSession n peerID p.addr.text dial id with same | ⟨rfl, _, conv, _, dialed⟩
      · rw [same] at found
        exact Or.inl found
      · rw [dialed] at found
        cases found
        exact Or.inr ⟨rfl, rfl, p, stored, rfl⟩
  | removed peerID gone mux kcpTransport =>
      rw [kcpSession_congr _ kcpTransport, removeSession_kcpSession] at found
      split at found
      · cases found
      · exact Or.inl found

end Changes

/-- Sessions in the registry are open, and so whoever sends to a peer on UDP gets an open one. -/
structure RegistryLive (n : Node) : Prop where
  stored : ∀ id session, n.kcpSession id = some session → session.closed = false
  sends : ∀ id p, n.peers.get id = some p → p.transport = .udp → p.addr.kind = .udp →
    n.kcpTransport.isSome = true → ∀ conv packet, ∃ after session,
      n.sendPath p (some conv) = (after, .ok (.kcp id)) ∧ after.kcpSession id = some session ∧
        after.writePacket (.kcp id) true packet =
          .ok (.write (.kcp session.handler) (kcpFrame packet))

section Live

variable (env : Env) (aead : Aead) (n : Node)

theorem hasSession_iff (id : Bytes) : n.hasSession id = (n.kcpSession id).isSome := rfl

theorem writePacket_open (id packet : Bytes) (session : KCPSession)
    (found : n.kcpSession id = some session) (live : session.closed = false) :
    n.writePacket (.kcp id) true packet =
      .ok (.write (.kcp session.handler) (kcpFrame packet)) := by
  simp only [Node.kcpSession] at found
  simp only [Node.writePacket, found, live, and_self, if_true]

theorem registryLive_iff :
    RegistryLive n ↔ ∀ id session, n.kcpSession id = some session → session.closed = false := by
  constructor
  · exact fun live => live.stored
  intro stored
  refine ⟨stored, ?_⟩
  intro id p present onUDP byUDP started conv packet
  have named := n.peers.get_id id p present
  have listening : n.kcpTransport.isNone = false := by
    rw [← Option.not_isSome, started]
    rfl
  cases found : n.kcpSession id with
  | some session =>
      refine ⟨n, session, ?_, found, writePacket_open n id packet session found (stored id session found)⟩
      have has : n.hasSession id = true := by rw [hasSession_iff, found, Option.isSome_some]
      simp only [Node.sendPath, onUDP, has, if_true, named]
  | none =>
      have dialed : (n.upgradePeer id p.addr.text (some conv)).2 = true := by
        obtain ⟨t, transport⟩ := Option.isSome_iff_exists.mp started
        simp only [Node.upgradePeer, transport]
      obtain ⟨fresh, stores⟩ := upgradePeer_dialed n id p.addr.text (some conv) dialed
      refine ⟨_, _, ?_, stores, writePacket_open _ id packet _ stores rfl⟩
      have hasNot : n.hasSession id = false := by rw [hasSession_iff, found, Option.isSome_none]
      simp only [Node.sendPath, onUDP, hasNot, byUDP, listening, named, dialed, Bool.false_eq_true,
        if_false, if_true, ne_eq, not_true_eq_false]

/-- The reader of a session ends only after the session has left the registry. -/
def ReaderOutlives (n : Node) : KcpEvent → Prop
  | .handleSessionEnds handler =>
      ∀ id session, n.kcpSession id = some session → session.handler ≠ handler
  | .perform _ | .removeSession _ => True

theorem registryLive_perform (activity : Activity) (live : RegistryLive n) :
    RegistryLive (n.perform env aead activity).1 := by
  rw [registryLive_iff]
  intro id session found
  cases upgrade : activity.isUpgrade with
  | false =>
      rcases (perform_registry env aead n activity upgrade).kcpSession n id session found with
        before | ⟨fresh, _⟩
      · exact live.stored id session before
      · exact fresh
  | true =>
      cases activity with
      | upgradePeer peerID remoteAddr dial =>
          rcases upgradePeer_kcpSession n peerID remoteAddr dial id with same | ⟨_, _, conv, _, dialed⟩
          · exact live.stored id session (same ▸ found)
          · have fresh := dialed.symm.trans found
            cases fresh
            rfl
      | _ => cases upgrade

theorem registryLive_step (event : KcpEvent) (live : RegistryLive n) :
    RegistryLive (n.kcpStep env aead event) ↔ ReaderOutlives n event := by
  cases event with
  | perform activity =>
      exact iff_of_true (registryLive_perform env aead n activity live) trivial
  | removeSession peerID =>
      refine iff_of_true ?_ trivial
      rw [registryLive_iff]
      intro id session found
      rw [Node.kcpStep, removeSession_kcpSession] at found
      split at found
      · cases found
      · exact live.stored id session found
  | handleSessionEnds handler =>
      rw [registryLive_iff]
      constructor
      · intro after id session found same
        have closes := after id { session with closed := true } (by
          rw [Node.kcpStep, handleSessionEnds_kcpSession, found, Option.map_some, if_pos same])
        cases closes
      · intro outlives id session found
        rw [Node.kcpStep, handleSessionEnds_kcpSession] at found
        obtain ⟨before, stored, made⟩ := Option.map_eq_some_iff.mp found
        rw [if_neg (outlives id before stored)] at made
        rw [← made]
        exact live.stored id before stored

def DeadTo (n : Node) (id : Bytes) : Prop :=
  ∃ p session cipher dead, n.peers.get id = some p ∧ p.transport ≠ .tcp ∧
    p.session = some session ∧ session.sendCipher = some cipher ∧ n.kcpSession id = some dead ∧
      dead.closed = true

theorem sendFrames_refused (path : SendPath) (accepts : Nat → Bool) (err : SendError)
    (refused : ∀ accepted packet, n.writePacket path accepted packet = .error err)
    (frames : List (Fragment.Frame UInt8)) (some_frames : frames ≠ []) (s : Sending)
    (cipher : CipherState) (keyed : s.session.sendCipher = some cipher) :
    ∃ sent, sendFrames aead n path accepts frames s = (sent, some err) ∧
      sent.effects = s.effects ∧
      sent.session.sendCipher = some { cipher with n := cipher.n + 1 } := by
  cases frames with
  | nil => exact absurd rfl some_frames
  | cons frame frames =>
      simp only [sendFrames, sendFrame, Session.encrypt, keyed, Option.map_some, refused]
      exact ⟨_, rfl, rfl, rfl⟩

theorem sendAppFrame_dead (id : Bytes) (dead : DeadTo n id) (foreign : id ≠ n.id)
    (appFrameType : UInt8) (data : Bytes) (dial : Option UInt32) (accepts : Nat → Bool) :
    let sent := n.sendAppFrame aead id appFrameType data dial accepts
    sent.2 = ([], some .writeFailed) ∧ DeadTo sent.1 id ∧ id ≠ sent.1.id := by
  obtain ⟨p, session, cipher, kcp, stored, offTCP, live, keyed, found, closed⟩ := dead
  have named := n.peers.get_id id p stored
  have path : n.sendPath p dial = (n, .ok (.kcp id)) := by
    have has : n.hasSession id = true := by rw [hasSession_iff, found, Option.isSome_some]
    unfold Node.sendPath
    split
    · next onTCP _ => exact absurd onTCP offTCP
    · rw [named, if_pos has]
  have refused (accepted : Bool) (packet : Bytes) :
      n.writePacket (.kcp id) accepted packet = .error .writeFailed := by
    simp only [Node.kcpSession] at found
    simp only [Node.writePacket, found, closed, Bool.true_eq_false, false_and, if_false]
  have frames : Fragment.split maxPayloadSize (appFrameType :: data) ≠ [] := by
    unfold Fragment.split
    split <;> simp
  obtain ⟨sent, ran, silent, moved⟩ := sendFrames_refused aead n (.kcp id) accepts .writeFailed refused
    _ frames ⟨session, 0, []⟩ cipher keyed
  simp only [Node.sendAppFrame, if_neg foreign, stored, live, path, sendPayload_eq_sendFrames, ran,
    silent]
  refine ⟨trivial, ⟨{ p with session := some sent.session }, sent.session, _, kcp, ?_, offTCP, rfl,
    moved, found, closed⟩, foreign⟩
  rw [PeerStore.get_add, if_pos named.symm]

end Live

/-- In a run from the start the registry holds open sessions only, exactly if no reader ends while
its session is in the registry. -/
theorem registryLive_run (env : Env) (aead : Aead) (cfg : Config) (identity : Identity)
    (kcpStarted : Bool) (events : List KcpEvent) :
    Run.Throughout (Node.kcpStep env aead) RegistryLive (startedNode env cfg identity kcpStarted)
        events ↔
      Run.Along (Node.kcpStep env aead) ReaderOutlives (startedNode env cfg identity kcpStarted)
        events := by
  apply Run.throughout_iff_along
  · rw [registryLive_iff]
    intro id session found
    cases kcpStarted <;> cases found
  · intro n event live
    exact registryLive_step env aead n event live

namespace DeadSession

def events : List KcpEvent :=
  let answer : Message := .two (.one [1]) (prologuePrefix ++ [1]) [3] [9]
  [.perform (.handshake none ⟨.udp, [20]⟩ .udp (.one [1]) [3] 0),
    .perform (.handshake none ⟨.udp, [20]⟩ .udp (.three answer [5]) [3] 0),
    .perform (.sendAppFrame (peerIDOf .padded [5]) appFrameTypeUserWithChannel [1] (some 7)
      fun _ => true),
    .handleSessionEnds 0]

def start : Node :=
  startedNode .padded { defaultConfig with networkPassword := [1] } (newIdentity .padded [9]) true

def node : Node := Run.run (Node.kcpStep .padded IdealAead.tagged.toAead) start events

def send (n : Node) (dial : Option UInt32) : Node :=
  (n.sendAppFrame IdealAead.tagged.toAead (peerIDOf .padded [5]) appFrameTypeUserWithChannel [1] dial
    fun _ => true).1

/-- The peer is still connected over UDP, and however often it is sent something, that fails. -/
theorem dead_session_never_replaced :
    ¬ Run.Throughout (Node.kcpStep .padded IdealAead.tagged.toAead) RegistryLive start events ∧
      ∀ (dials : List (Option UInt32)) (dial : Option UInt32),
        ((Run.run send node dials).sendAppFrame IdealAead.tagged.toAead (peerIDOf .padded [5])
          appFrameTypeUserWithChannel [1] dial fun _ => true).2 = ([], some .writeFailed) := by
  have closed : (node.kcpSession (peerIDOf .padded [5])).map (·.closed) = some true := by
    decide +kernel
  have onUDP : (node.peers.get (peerIDOf .padded [5])).map (·.transport) = some .udp := by
    decide +kernel
  have keyed : (((node.peers.get (peerIDOf .padded [5])).bind (·.session)).bind
      (·.sendCipher)).isSome = true := by decide +kernel
  have foreign : peerIDOf .padded [5] ≠ node.id := by decide +kernel
  obtain ⟨kcp, found, dead⟩ := Option.map_eq_some_iff.mp closed
  obtain ⟨p, stored, transport⟩ := Option.map_eq_some_iff.mp onUDP
  constructor
  · intro live
    have stays := (Run.throughout_run start events live).stored _ kcp found
    rw [dead] at stays
    cases stays
  · intro dials dial
    have deadTo : DeadTo node (peerIDOf .padded [5]) := by
      rw [stored, Option.bind_some] at keyed
      obtain ⟨cipher, sends⟩ := Option.isSome_iff_exists.mp keyed
      obtain ⟨session, live, sends⟩ := Option.bind_eq_some_iff.mp sends
      exact ⟨p, session, cipher, kcp, stored, by rw [transport]; decide, live, sends, found, dead⟩
    have still : DeadTo (Run.run send node dials) (peerIDOf .padded [5]) ∧
        peerIDOf .padded [5] ≠ (Run.run send node dials).id :=
      Run.run_invariant (Q := fun n => DeadTo n (peerIDOf .padded [5]) ∧ peerIDOf .padded [5] ≠ n.id)
        node dials ⟨deadTo, foreign⟩ (fun n dial both =>
          (sendAppFrame_dead IdealAead.tagged.toAead n _ both.1 both.2 _ _ dial _).2)
    exact (sendAppFrame_dead IdealAead.tagged.toAead _ _ still.1 still.2 _ _ dial _).1

end DeadSession

end Tenet
