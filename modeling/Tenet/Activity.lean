import Tenet.Channels
import Tenet.Events
import Tenet.HandshakeStep
import Tenet.Rehandshake

/-! Everything that a node does, sending and receiving data included, and what each of it can do to
the records of peers. -/

namespace Tenet

open Lib

inductive Activity where
  | onReceive
  | joinChannel (name : Bytes)
  | leaveChannel (name : Bytes)
  | connect (remoteUDPAddr remoteTCPAddr : Bytes) (udpEphemeral tcpEphemeral : Key) (now : Int)
  | connectViaRelay (relayAddr targetAddr : Bytes) (ephemeral : Key) (now : Int)
  | triggerFastRehandshake (cfg : FastRehandshakeConfig) (peerID : Bytes) (now : Int)
  /-- the goroutine of an attempt; `removed` is its record where that is no longer the stored one -/
  | runFastRehandshake (cfg : FastRehandshakeConfig) (peerID : Bytes) (removed : Option Peer)
      (closing accepted : Bool) (ephemeral : Key) (now : Int)
  /-- the delayed delete of `sendFastRehandshake` -/
  | expire (stateKey : Transport × Bytes)
  | handshake (conn : Option ConnId) (remoteAddr : NetAddr) (transport : Transport)
      (payload : Message) (ephemeral : Key) (now : Int)
  | relayPacket (origin payload : Bytes) (now : Int)
  | heartbeat (conn : Option ConnId) (remoteAddr : NetAddr) (transport : Transport) (now : Int)
      (timestamp : Nat)
  | heartbeatAck (remoteAddr : Bytes) (now : Int)
  | upgradePeer (peerID remoteAddr : Bytes) (dial : Option UInt32)
  | removePeer (peerID : Bytes) (shouldReconnect : Bool)
  | cleanupStaleMappings (now : Int)
  | sendAppFrame (peerID : Bytes) (appFrameType : UInt8) (data : Bytes) (dial : Option UInt32)
      (accepts : Nat → Bool)
  | data (remoteAddr payload : Bytes)

namespace Node

/-- The goroutine of `triggerFastRehandshake`, its write to the record, and what it does when it
gives up. -/
def fastRehandshake (cfg : FastRehandshakeConfig) (n : Node) (peerID : Bytes)
    (removed : Option Peer) (closing accepted : Bool) (ephemeral : Key) (now : Int) :
    Node × List Effect :=
  match removed.or (n.peers.get peerID) with
  | none => (n, [])
  | some p =>
      let (after, p, effects, _, givesUp) :=
        n.runFastRehandshake cfg p closing accepted ephemeral now
      let after : Node :=
        if removed.isSome then after else { after with peers := after.peers.add p }
      if givesUp then
        ((after.removePeerWithReconnect peerID true).1,
          effects ++ (after.removePeerWithReconnect peerID true).2)
      else (after, effects)

def perform (env : Env) (aead : Aead) (n : Node) : Activity → Node × List Effect
  | .onReceive => ({ n with onReceive := true }, [])
  | .joinChannel name => ((n.joinChannel env name).1, [])
  | .leaveChannel name => ((n.leaveChannel env name).1, [])
  | .connect remoteUDPAddr remoteTCPAddr udpEphemeral tcpEphemeral now =>
      (n.registerPendingHandshakes remoteUDPAddr remoteTCPAddr (n.initiate udpEphemeral now)
        (n.initiate tcpEphemeral now), [])
  | .connectViaRelay relayAddr targetAddr ephemeral now =>
      (n.registerRelayHandshake relayAddr targetAddr (n.initiate ephemeral now), [])
  | .triggerFastRehandshake cfg peerID now =>
      ((n.triggerFastRehandshake cfg peerID now).1, (n.triggerFastRehandshake cfg peerID now).2.1)
  | .runFastRehandshake cfg peerID removed closing accepted ephemeral now =>
      n.fastRehandshake cfg peerID removed closing accepted ephemeral now
  | .expire stateKey => ({ n with pendingHandshakes := n.pendingHandshakes.delete stateKey }, [])
  | .handshake conn remoteAddr transport payload ephemeral now =>
      n.processHandshake env conn remoteAddr transport payload ephemeral now
  | .relayPacket origin payload now => n.handleRelayPacket env origin payload now
  | .heartbeat conn remoteAddr transport now timestamp =>
      n.processHeartbeat conn remoteAddr transport now timestamp
  | .heartbeatAck remoteAddr now => (n.processHeartbeatAck remoteAddr now, [])
  | .upgradePeer peerID remoteAddr dial => ((n.upgradePeer peerID remoteAddr dial).1, [])
  | .removePeer peerID shouldReconnect => n.removePeerWithReconnect peerID shouldReconnect
  | .cleanupStaleMappings now => (n.cleanupStaleMappings now, [])
  | .sendAppFrame peerID appFrameType data dial accepts =>
      ((n.sendAppFrame aead peerID appFrameType data dial accepts).1,
        (n.sendAppFrame aead peerID appFrameType data dial accepts).2.1)
  | .data remoteAddr payload => n.processData aead remoteAddr payload

end Node

def deliveries (effects : List Effect) : List (Bytes × Bytes) :=
  effects.filterMap fun
    | .onReceive peerID data => some (peerID, data)
    | _ => none

@[simp] theorem deliveries_append (front back : List Effect) :
    deliveries (front ++ back) = deliveries front ++ deliveries back :=
  List.filterMap_append

def Session.keys (session : Session) : Option CipherKey × Option CipherKey × Option Key :=
  (session.sendCipher.map (·.key), session.recvCipher.map (·.key), session.remoteStaticKey)

def Peer.keys (p : Peer) : Option (Option CipherKey × Option CipherKey × Option Key) :=
  p.session.map Session.keys

/-- The record of the same peer, keyed the same and with the same partial message. -/
structure Follows (p q : Peer) : Prop where
  id : q.id = p.id
  keys : q.keys = p.keys
  buffer : q.reassemblyBuffer = p.reassemblyBuffer

def Kept (before after : PeerStore) : Prop :=
  ∀ id q, after.get id = some q → ∃ p, before.get id = some p ∧ Follows p q

namespace Kept

variable {before after : PeerStore}

theorem refl (store : PeerStore) : Kept store store :=
  fun _ q stored => ⟨q, stored, rfl, rfl, rfl⟩

theorem add {p q : Peer} (stored : before.get q.id = some p) (follows : Follows p q) :
    Kept before (before.add q) := by
  intro id r found
  rw [PeerStore.get_add] at found
  split at found
  · next same =>
      cases found
      exact ⟨p, by rw [same, stored], follows⟩
  · exact refl before id r found

theorem rewritten {id : Bytes} {p q : Peer} (stored : before.get id = some p)
    (follows : Follows p q) : Kept before (before.add q) := by
  have named := before.get_id id p stored
  apply add _ follows
  rw [follows.id, named, stored]

theorem removed {id : Bytes} (same : ∀ other, after.get other =
    if other = id then none else before.get other) : Kept before after := by
  intro other q found
  rw [same] at found
  split at found
  · cases found
  · exact refl before other q found

theorem trans {middle : PeerStore} (first : Kept before middle) (second : Kept middle after) :
    Kept before after := by
  intro id r found
  obtain ⟨q, stored, follows⟩ := second id r found
  obtain ⟨p, earlier, followed⟩ := first id q stored
  exact ⟨p, earlier, follows.id.trans followed.id, follows.keys.trans followed.keys,
    follows.buffer.trans followed.buffer⟩

end Kept

section Rehandshakes

variable (cfg : FastRehandshakeConfig) (n : Node) (peerID : Bytes) (now : Int)

theorem removePeerWithReconnect_deliveries (shouldReconnect : Bool) :
    deliveries (n.removePeerWithReconnect peerID shouldReconnect).2 = [] := by
  unfold Node.removePeerWithReconnect
  split
  · rfl
  · next p _ =>
      have closing : deliveries p.close.2 = [] := by
        unfold Peer.close
        cases p.session <;> cases p.conn <;> cases p.transport <;> rfl
      simp only [deliveries_append, closing, List.nil_append, List.append_eq_nil_iff]
      constructor <;> split <;> rfl

theorem removePeerWithReconnect_kept (shouldReconnect : Bool) :
    Kept n.peers (n.removePeerWithReconnect peerID shouldReconnect).1.peers :=
  Kept.removed (removePeerWithReconnect_peers n peerID shouldReconnect)

theorem triggerFastRehandshake_kept :
    Kept n.peers (n.triggerFastRehandshake cfg peerID now).1.peers ∧
      deliveries (n.triggerFastRehandshake cfg peerID now).2.1 = [] := by
  rcases triggerFastRehandshake_cases cfg n peerID now with
    refused | ⟨stored, rehandshake, found, _, refused | started | removed⟩
  · rw [refused]
    exact ⟨Kept.refl n.peers, rfl⟩
  · rw [refused]
    exact ⟨Kept.rewritten found ⟨rfl, rfl, rfl⟩, rfl⟩
  · rw [started]
    exact ⟨Kept.rewritten found ⟨rfl, rfl, rfl⟩, rfl⟩
  · have written : Kept n.peers (n.peers.add { stored with rehandshake }) :=
      Kept.rewritten found ⟨rfl, rfl, rfl⟩
    rw [removed]
    exact ⟨written.trans (removePeerWithReconnect_kept
      { n with peers := n.peers.add { stored with rehandshake } } peerID true),
      removePeerWithReconnect_deliveries _ peerID true⟩

theorem fastRehandshake_kept (removed : Option Peer) (closing accepted : Bool) (ephemeral : Key) :
    Kept n.peers (n.fastRehandshake cfg peerID removed closing accepted ephemeral now).1.peers ∧
      deliveries (n.fastRehandshake cfg peerID removed closing accepted ephemeral now).2 = [] := by
  unfold Node.fastRehandshake
  cases found : removed.or (n.peers.get peerID) with
  | none => exact ⟨Kept.refl n.peers, rfl⟩
  | some p =>
      obtain ⟨pendingHandshakes, rehandshake, effects, result, givesUp, ran, _, sent, _⟩ :=
        runFastRehandshake_cases cfg n p closing accepted ephemeral now
      have silent : deliveries effects = [] := by
        rw [deliveries, List.filterMap_eq_nil_iff]
        intro effect member
        obtain ⟨message, rfl⟩ := sent effect member
        rfl
      have kept : Kept n.peers (if removed.isSome then ({ n with pendingHandshakes } : Node)
          else { n with
            pendingHandshakes, peers := n.peers.add { p with rehandshake } }).peers := by
        cases removed with
        | some record => exact Kept.refl n.peers
        | none => exact Kept.rewritten found ⟨rfl, rfl, rfl⟩
      simp only [ran]
      cases givesUp with
      | false => exact ⟨kept, silent⟩
      | true =>
          refine ⟨kept.trans (removePeerWithReconnect_kept _ peerID true), ?_⟩
          simp only [if_true, deliveries_append, silent, removePeerWithReconnect_deliveries,
            List.append_nil]

end Rehandshakes

section Sending

variable (aead : Aead) (n : Node)

theorem writePacket_deliveries (path : SendPath) (accepted : Bool) (packet : Bytes) (effect : Effect)
    (written : n.writePacket path accepted packet = .ok effect) : deliveries [effect] = [] := by
  unfold Node.writePacket at written
  split at written
  · split at written
    · cases written
      rfl
    · cases written
  · split at written
    · cases written
    · split at written
      · cases written
        rfl
      · cases written

theorem sendFrames_kept (path : SendPath) (accepts : Nat → Bool)
    (frames : List (Fragment.Frame UInt8)) (s : Sending) :
    (sendFrames aead n path accepts frames s).1.session.keys = s.session.keys ∧
      deliveries (sendFrames aead n path accepts frames s).1.effects = deliveries s.effects := by
  induction frames generalizing s with
  | nil => exact ⟨rfl, rfl⟩
  | cons frame frames ih =>
      have keys : (sendFrame aead n path accepts s (frameType frame.kind)
          frame.body).1.session.keys = s.session.keys := by
        rw [sendFrame_session]
        simp only [Session.keys, Option.map_map]
        rfl
      have silent : deliveries (sendFrame aead n path accepts s (frameType frame.kind)
          frame.body).1.effects = deliveries s.effects := by
        unfold sendFrame
        split
        · rfl
        · split
          · rfl
          · next written =>
              rw [deliveries_append, writePacket_deliveries n path _ _ _ written, List.append_nil]
      rcases sent : sendFrame aead n path accepts s (frameType frame.kind) frame.body with
        ⟨next, _ | err⟩
      · rw [sent] at keys silent
        simp only [sendFrames, sent]
        exact ⟨(ih next).1.trans keys, (ih next).2.trans silent⟩
      · rw [sent] at keys silent
        simp only [sendFrames, sent]
        exact ⟨keys, silent⟩

theorem sendAppFrame_kept (peerID : Bytes) (appFrameType : UInt8) (data : Bytes)
    (dial : Option UInt32) (accepts : Nat → Bool) :
    Kept n.peers (n.sendAppFrame aead peerID appFrameType data dial accepts).1.peers ∧
      deliveries (n.sendAppFrame aead peerID appFrameType data dial accepts).2.1 = [] := by
  unfold Node.sendAppFrame
  split
  · exact ⟨Kept.refl n.peers, rfl⟩
  · cases found : n.peers.get peerID with
    | none => exact ⟨Kept.refl n.peers, rfl⟩
    | some p =>
        cases live : p.session with
        | none =>
            simp only [live]
            exact ⟨Kept.refl n.peers, rfl⟩
        | some session =>
            obtain ⟨_, _, _, frame⟩ := n.sendPath_frame p dial
            have peers : (n.sendPath p dial).1.peers = n.peers := by rw [frame]
            rcases chosen : n.sendPath p dial with ⟨after, err | path⟩
            · rw [chosen] at peers
              simp only [live, chosen]
              rw [peers]
              exact ⟨Kept.refl n.peers, rfl⟩
            · rw [chosen] at peers
              obtain ⟨keys, silent⟩ := sendFrames_kept aead after path accepts
                (Fragment.split maxPayloadSize (appFrameType :: data)) ⟨session, 0, []⟩
              simp only [live, chosen, sendPayload_eq_sendFrames]
              refine ⟨?_, silent⟩
              rw [peers]
              apply Kept.rewritten found
              refine ⟨rfl, ?_, rfl⟩
              simp only [Peer.keys, live, Option.map_some, keys]

end Sending

theorem handleRelayPacket_deliveries (env : Env) (n : Node) (origin payload : Bytes) (now : Int) :
    deliveries (n.handleRelayPacket env origin payload now).2 = [] := by
  unfold Node.handleRelayPacket
  split
  · rfl
  · next packet targetAddr _ =>
      split
      · simp only [Node.relayForwardTo]
        cases n.buildRelayPacket env relayModeTarget targetAddr packet.inner now <;> rfl
      · split
        · unfold Node.relayDeliver
          split <;> rfl
        · rfl

section Handshakes

variable (env : Env) (n : Node) (conn : Option ConnId) (remoteAddr : NetAddr)
  (transport : Transport) (session : Session) (now : Int)

/-- The record that the handshake belongs to keeps its keys or takes the new session; its partial
message stays either way. Every other record is kept. -/
def Rekeyed (env : Env) (session : Session) (before after : PeerStore) : Prop :=
  ∀ id q, after.get id = some q → (∃ p, before.get id = some p ∧ Follows p q) ∨
    id = peerIDOf env session.remotePublicKey ∧ q.session = some session ∧
      (q.reassemblyBuffer = none ∨
        ∃ p, before.get id = some p ∧ q.reassemblyBuffer = p.reassemblyBuffer)

theorem rekeyed_add {before : PeerStore} {q : Peer}
    (named : q.id = peerIDOf env session.remotePublicKey)
    (written : (∃ p, before.get q.id = some p ∧ Follows p q) ∨ q.session = some session ∧
      (q.reassemblyBuffer = none ∨
        ∃ p, before.get q.id = some p ∧ q.reassemblyBuffer = p.reassemblyBuffer)) :
    Rekeyed env session before (before.add q) := by
  intro id stored found
  rw [PeerStore.get_add] at found
  split at found
  · next same =>
      cases found
      rw [same]
      exact written.imp_right fun rekeyed => ⟨named, rekeyed⟩
  · exact Or.inl (Kept.refl before id stored found)

theorem rekeyed_upgrade {before : PeerStore} {existing linked : Peer}
    (known : before.get (peerIDOf env session.remotePublicKey) = some existing)
    (same : Follows existing linked) (lastSeen : Int) :
    Rekeyed env session before (before.add
      ((linked.upgradeTransport remoteAddr conn transport session now).1.updateLastSeen
        lastSeen)) := by
  have named : linked.id = peerIDOf env session.remotePublicKey :=
    same.id.trans (before.get_id _ existing known)
  have id := linked.upgradeTransport_id remoteAddr conn transport session now
  have buffer := linked.upgradeTransport_reassemblyBuffer remoteAddr conn transport session now
  have stored : before.get
      ((linked.upgradeTransport remoteAddr conn transport session now).1.updateLastSeen lastSeen).id =
        some existing := by
    rw [← known, ← named, ← id]
    rfl
  refine rekeyed_add env session ?_ ?_
  · exact id.trans named
  rcases linked.upgradeTransport_session remoteAddr conn transport session now with kept | replaced
  · refine Or.inl ⟨existing, stored, id.trans same.id, ?_, buffer.trans same.buffer⟩
    rw [← same.keys, Peer.keys, Peer.keys, ← kept]
    rfl
  · exact Or.inr ⟨replaced, Or.inr ⟨existing, stored, buffer.trans same.buffer⟩⟩

theorem sessionEstablished_rekeyed :
    Rekeyed env session n.peers
      (n.sessionEstablished env conn remoteAddr transport session now).1.peers := by
  cases known : n.peers.get (peerIDOf env session.remotePublicKey) with
  | none =>
      simp only [Node.sessionEstablished, known, Node.handleNewPeer]
      split
      · exact fun id q found => Or.inl (Kept.refl n.peers id q found)
      · rw [registerRelayCandidate_peers]
        exact rekeyed_add env session rfl (Or.inr ⟨rfl, Or.inl rfl⟩)
  | some existing =>
      obtain ⟨linkMode, relayTarget, lastSeen, peers⟩ :=
        sessionEstablished_known env n conn remoteAddr transport session now existing known
      have same : Follows existing { existing with linkMode, relayTarget } := ⟨rfl, rfl, rfl⟩
      rw [peers]
      exact rekeyed_upgrade env conn remoteAddr transport session now known same lastSeen

theorem sessionEstablished_deliveries :
    deliveries (n.sessionEstablished env conn remoteAddr transport session now).2 = [] := by
  apply filterMap_notices (sessionEstablished_notices env n conn remoteAddr transport session now)
  intro effect notice
  cases effect with
  | onReceive peerID data => cases notice
  | _ => rfl

theorem processHandshake_cases (payload : Message) (ephemeral : Key) :
    let after := n.processHandshake env conn remoteAddr transport payload ephemeral now
    deliveries after.2 = [] ∧ (after.1.peers = n.peers ∨
      ∃ hs response session,
        (n.pendingHandshake (transport, remoteAddr.text) ephemeral now).processMessage payload =
          some (hs, response, some session) ∧ Rekeyed env session n.peers after.1.peers) := by
  dsimp only
  have replies (response : Option Message) :
      deliveries (response.toList.map fun message =>
        .sendRaw conn remoteAddr transport (.handshake message)) = [] := by
    cases response <;> rfl
  rcases result : (n.pendingHandshake (transport, remoteAddr.text) ephemeral now).processMessage
    payload with _ | ⟨hs, response, _ | session⟩
  · rw [processHandshake_failed env n conn remoteAddr transport payload ephemeral now result]
    exact ⟨rfl, Or.inl rfl⟩
  · rw [processHandshake_waiting env n conn remoteAddr transport payload ephemeral now hs response
      result]
    exact ⟨replies response, Or.inl rfl⟩
  · rw [processHandshake_finished env n conn remoteAddr transport payload ephemeral now hs response
      session result]
    refine ⟨?_, Or.inr ⟨hs, response, session, rfl, ?_⟩⟩
    · rw [deliveries_append, replies, sessionEstablished_deliveries, List.append_nil]
    · exact sessionEstablished_rekeyed env
        { n with pendingHandshakes := n.pendingHandshakes.set (transport, remoteAddr.text) hs } conn
        remoteAddr transport session now

end Handshakes

section Activities

variable (env : Env) (aead : Aead) (n : Node)

theorem Peer.decrypt_keys {p opened : Peer} {payload plaintext : Bytes}
    (decrypted : p.decrypt aead payload = some (plaintext, opened)) : opened.keys = p.keys := by
  obtain ⟨session, cipher, live, keyed, _, rfl⟩ :=
    p.decrypt_eq_some aead opened payload plaintext decrypted
  simp only [Peer.keys, Session.keys, live, keyed, Option.map_some]

/-- A fragment was opened under the receiving cipher of the peer, and dispatched. -/
structure Opened (aead : Aead) (n after : Node) (effects : List Effect) (peerID : Bytes) (p : Peer)
    (session : Session) (cipher : CipherState) (payload : Bytes) (frame : Fragment.Frame UInt8) :
    Prop where
  stored : n.peers.get peerID = some p
  live : p.session = some session
  keyed : session.recvCipher = some cipher
  opens : aead.decrypt cipher.key cipher.n payload = some (frameType frame.kind :: frame.body)
  record : ∃ q, after.peers = n.peers.add q ∧ q.id = p.id ∧ q.keys = p.keys ∧
    q.reassemblyBuffer = (Fragment.step maxReassemblySize p.reassemblyBuffer frame).1
  calls : effects = (Fragment.step maxReassemblySize p.reassemblyBuffer frame).2.toList.flatMap
    (n.callbacks peerID)

theorem processData_opened (remoteAddr payload : Bytes) :
    let after := n.processData aead remoteAddr payload
    Kept n.peers after.1.peers ∧ deliveries after.2 = [] ∨
      ∃ peerID p session cipher frame,
        Opened aead n after.1 after.2 peerID p session cipher payload frame := by
  dsimp only
  rcases processData_cases aead n remoteAddr payload with
    same | ⟨peerID, p, stored, ⟨effects, silent, failed⟩ | ⟨plaintext, opened, decrypted, dispatched⟩⟩
  · rw [same]
    exact Or.inl ⟨Kept.refl n.peers, rfl⟩
  · rw [failed]
    refine Or.inl ⟨Kept.rewritten stored ⟨rfl, rfl, rfl⟩, ?_⟩
    rw [deliveries, List.filterMap_eq_nil_iff]
    intro effect member
    cases effect with
    | onReceive id data => exact absurd member (silent id data)
    | _ => rfl
  · obtain ⟨session, cipher, live, keyed, opens, moved⟩ :=
      p.decrypt_eq_some aead opened payload plaintext decrypted
    have keys := p.decrypt_keys aead decrypted
    have named : opened.id = p.id := by rw [moved]
    have buffer : opened.reassemblyBuffer = p.reassemblyBuffer := by rw [moved]
    rw [dispatched]
    rcases dispatchFrame_dropped n peerID opened plaintext with ⟨frame, rfl⟩ | dropped
    · obtain ⟨channels, made⟩ := dispatchFrame_eq n peerID opened frame
      rw [made, buffer]
      exact Or.inr ⟨peerID, p, session, cipher, frame, stored, live, keyed, opens,
        ⟨_, rfl, named, keys, rfl⟩, rfl⟩
    · rw [dropped]
      exact Or.inl ⟨Kept.rewritten stored ⟨named, keys, buffer⟩, rfl⟩

/-- Whatever the node does, it keeps its records and calls nobody back, or the message that it gets
finishes a handshake, or it opens a fragment. -/
theorem perform_sources (activity : Activity) :
    let after := n.perform env aead activity
    (Kept n.peers after.1.peers ∧ deliveries after.2 = []) ∨
      (∃ conn remoteAddr transport payload ephemeral now hs response session,
        activity = .handshake conn remoteAddr transport payload ephemeral now ∧
        (n.pendingHandshake (transport, remoteAddr.text) ephemeral now).processMessage payload =
          some (hs, response, some session) ∧
        Rekeyed env session n.peers after.1.peers ∧ deliveries after.2 = []) ∨
      ∃ peerID p session cipher payload frame,
        Opened aead n after.1 after.2 peerID p session cipher payload frame := by
  have unchanged : Kept n.peers n.peers := Kept.refl n.peers
  cases activity with
  | onReceive => exact Or.inl ⟨unchanged, rfl⟩
  | joinChannel name =>
      refine Or.inl ⟨?_, rfl⟩
      simp only [Node.perform, Node.joinChannel]
      split <;> exact unchanged
  | leaveChannel name =>
      refine Or.inl ⟨?_, rfl⟩
      simp only [Node.perform, Node.leaveChannel]
      split <;> exact unchanged
  | connect remoteUDPAddr remoteTCPAddr udpEphemeral tcpEphemeral now =>
      exact Or.inl ⟨unchanged, rfl⟩
  | connectViaRelay relayAddr targetAddr ephemeral now => exact Or.inl ⟨unchanged, rfl⟩
  | triggerFastRehandshake cfg peerID now =>
      exact Or.inl (triggerFastRehandshake_kept cfg n peerID now)
  | runFastRehandshake cfg peerID removed closing accepted ephemeral now =>
      exact Or.inl (fastRehandshake_kept cfg n peerID now removed closing accepted ephemeral)
  | expire stateKey => exact Or.inl ⟨unchanged, rfl⟩
  | handshake conn remoteAddr transport payload ephemeral now =>
      obtain ⟨silent, peers | ⟨hs, response, session, finished, rekeyed⟩⟩ :=
        processHandshake_cases env n conn remoteAddr transport now payload ephemeral
      · exact Or.inl ⟨peers ▸ unchanged, silent⟩
      · exact Or.inr (Or.inl ⟨conn, remoteAddr, transport, payload, ephemeral, now, hs, response,
          session, rfl, finished, rekeyed, silent⟩)
  | relayPacket origin payload now =>
      refine Or.inl ⟨?_, ?_⟩
      · rw [Node.perform, (handleRelayPacket_tables env n origin payload now).1]
        exact unchanged
      · exact handleRelayPacket_deliveries env n origin payload now
  | heartbeat conn remoteAddr transport now timestamp =>
      refine Or.inl ⟨?_, ?_⟩
      · rcases processHeartbeat_eq n conn remoteAddr transport now timestamp with
          same | ⟨id, p, stored, seen⟩
        · rw [Node.perform, same]
          exact unchanged
        · rw [Node.perform, seen]
          exact Kept.rewritten stored ⟨rfl, rfl, rfl⟩
      · simp only [Node.perform, Node.processHeartbeat]
        split <;> rfl
  | heartbeatAck remoteAddr now =>
      refine Or.inl ⟨?_, rfl⟩
      simp only [Node.perform, Node.processHeartbeatAck]
      split
      · exact unchanged
      · next p found =>
          obtain ⟨id, _, stored⟩ := Option.bind_eq_some_iff.mp found
          exact Kept.rewritten stored ⟨rfl, rfl, rfl⟩
  | upgradePeer peerID remoteAddr dial =>
      refine Or.inl ⟨?_, rfl⟩
      rw [Node.perform, Node.upgradePeer_peers]
      exact unchanged
  | removePeer peerID shouldReconnect =>
      exact Or.inl ⟨removePeerWithReconnect_kept n peerID shouldReconnect,
        removePeerWithReconnect_deliveries n peerID shouldReconnect⟩
  | cleanupStaleMappings now => exact Or.inl ⟨unchanged, rfl⟩
  | sendAppFrame peerID appFrameType data dial accepts =>
      exact Or.inl (sendAppFrame_kept aead n peerID appFrameType data dial accepts)
  | data remoteAddr payload =>
      refine (processData_opened aead n remoteAddr payload).imp_right ?_
      intro ⟨peerID, p, session, cipher, frame, opened⟩
      exact Or.inr ⟨peerID, p, session, cipher, payload, frame, opened⟩

theorem perform_cases (activity : Activity) :
    let after := n.perform env aead activity
    (Kept n.peers after.1.peers ∧ deliveries after.2 = []) ∨
      (∃ stateKey ephemeral now payload hs response session,
        (n.pendingHandshake stateKey ephemeral now).processMessage payload =
          some (hs, response, some session) ∧
        Rekeyed env session n.peers after.1.peers ∧ deliveries after.2 = []) ∨
      ∃ peerID p session cipher payload frame,
        Opened aead n after.1 after.2 peerID p session cipher payload frame := by
  rcases perform_sources env aead n activity with
    kept | ⟨_, _, _, payload, ephemeral, now, hs, response, session, _, finished⟩ | opened
  · exact Or.inl kept
  · exact Or.inr (Or.inl ⟨_, ephemeral, now, payload, hs, response, session, finished⟩)
  · exact Or.inr (Or.inr opened)

/-- Where a pending handshake comes from: it was there, the node started it, or a message made it
out of the one that was there. -/
def PendingFrom (n : Node) (stateKey : Transport × Bytes) (hs : HandshakeState) : Prop :=
  n.pendingHandshakes.get stateKey = some hs ∨ (∃ ephemeral now, hs = n.initiate ephemeral now) ∨
    ∃ ephemeral now, hs = n.pendingHandshake stateKey ephemeral now ∨
      ∃ payload response session,
        (n.pendingHandshake stateKey ephemeral now).processMessage payload =
          some (hs, response, session)

theorem processHandshake_pending (conn : Option ConnId) (remoteAddr : NetAddr)
    (transport : Transport) (payload : Message) (ephemeral : Key) (now : Int)
    (stateKey : Transport × Bytes) (hs : HandshakeState)
    (pending : (n.processHandshake env conn remoteAddr transport payload ephemeral
      now).1.pendingHandshakes.get stateKey = some hs) : PendingFrom n stateKey hs := by
  by_cases here : stateKey = (transport, remoteAddr.text)
  · subst here
    rcases result : (n.pendingHandshake (transport, remoteAddr.text) ephemeral now).processMessage
      payload with _ | ⟨after, response, _ | session⟩
    · rw [processHandshake_failed env n conn remoteAddr transport payload ephemeral now result]
        at pending
      dsimp only at pending
      split at pending
      · rw [GoMap.get_set, if_pos rfl] at pending
        exact Or.inr (Or.inr ⟨ephemeral, now, Or.inl (Option.some.inj pending).symm⟩)
      · rw [GoMap.get_delete, if_pos rfl] at pending
        cases pending
    · rw [processHandshake_waiting env n conn remoteAddr transport payload ephemeral now after
        response result, GoMap.get_set, if_pos rfl] at pending
      cases pending
      exact Or.inr (Or.inr ⟨ephemeral, now, Or.inr ⟨payload, response, none, result⟩⟩)
    · rw [processHandshake_finished env n conn remoteAddr transport payload ephemeral now after
        response session result] at pending
      dsimp only at pending
      rw [sessionEstablished_pendingHandshakes, GoMap.get_delete, if_pos rfl] at pending
      cases pending
  · rw [processHandshake_other_pending env n conn remoteAddr transport payload ephemeral now
      stateKey here] at pending
    exact Or.inl pending

theorem removePeerWithReconnect_pending (peerID : Bytes) (shouldReconnect : Bool) :
    (n.removePeerWithReconnect peerID shouldReconnect).1.identity = n.identity ∧
      (n.removePeerWithReconnect peerID shouldReconnect).1.pendingHandshakes =
        n.pendingHandshakes := by
  obtain ⟨_, _, _, _, same⟩ := removePeerWithReconnect_frame n peerID shouldReconnect
  rw [same]
  exact ⟨rfl, rfl⟩

theorem sendAppFrame_frame (peerID : Bytes) (appFrameType : UInt8) (data : Bytes)
    (dial : Option UInt32) (accepts : Nat → Bool) :
    (n.sendAppFrame aead peerID appFrameType data dial accepts).1.identity = n.identity ∧
      (n.sendAppFrame aead peerID appFrameType data dial accepts).1.pendingHandshakes =
        n.pendingHandshakes := by
  have chosen (p : Peer) : (n.sendPath p dial).1.identity = n.identity ∧
      (n.sendPath p dial).1.pendingHandshakes = n.pendingHandshakes := by
    obtain ⟨mux, kcpTransport, addrToPeer, frame⟩ := n.sendPath_frame p dial
    rw [frame]
    exact ⟨rfl, rfl⟩
  unfold Node.sendAppFrame
  split
  · exact ⟨rfl, rfl⟩
  · split
    · exact ⟨rfl, rfl⟩
    · next p _ =>
        split
        · exact ⟨rfl, rfl⟩
        · have same := chosen p
          split
          · next path => rwa [path] at same
          · next path =>
              rw [path] at same
              exact same

theorem fastRehandshake_pending (cfg : FastRehandshakeConfig) (peerID : Bytes)
    (removed : Option Peer) (closing accepted : Bool) (ephemeral : Key) (now : Int) :
    (n.fastRehandshake cfg peerID removed closing accepted ephemeral now).1.identity =
        n.identity ∧
      ∀ stateKey hs, (n.fastRehandshake cfg peerID removed closing accepted ephemeral
        now).1.pendingHandshakes.get stateKey = some hs → PendingFrom n stateKey hs := by
  unfold Node.fastRehandshake
  split
  · exact ⟨rfl, fun _ _ found => Or.inl found⟩
  · next p _ =>
      obtain ⟨pendingHandshakes, rehandshake, effects, result, givesUp, ran, pending, _⟩ :=
        runFastRehandshake_cases cfg n p closing accepted ephemeral now
      have made (stateKey : Transport × Bytes) (hs : HandshakeState)
          (found : pendingHandshakes.get stateKey = some hs) : PendingFrom n stateKey hs :=
        (pending stateKey hs found).imp_right fun started => Or.inl ⟨ephemeral, now, started⟩
      simp only [ran]
      cases givesUp with
      | false => cases removed <;> exact ⟨rfl, made⟩
      | true =>
          simp only [if_true, (removePeerWithReconnect_pending _ peerID true).1,
            (removePeerWithReconnect_pending _ peerID true).2]
          cases removed <;> exact ⟨rfl, made⟩

theorem triggerFastRehandshake_frame (cfg : FastRehandshakeConfig) (peerID : Bytes) (now : Int) :
    (n.triggerFastRehandshake cfg peerID now).1.identity = n.identity ∧
      (n.triggerFastRehandshake cfg peerID now).1.pendingHandshakes = n.pendingHandshakes := by
  rcases triggerFastRehandshake_cases cfg n peerID now with
    refused | ⟨stored, rehandshake, _, _, refused | started | removed⟩
  · rw [refused]
    exact ⟨rfl, rfl⟩
  · rw [refused]
    exact ⟨rfl, rfl⟩
  · rw [started]
    exact ⟨rfl, rfl⟩
  · rw [removed]
    exact removePeerWithReconnect_pending _ peerID true

theorem perform_pending (activity : Activity) :
    (n.perform env aead activity).1.identity = n.identity ∧
      ∀ stateKey hs, (n.perform env aead activity).1.pendingHandshakes.get stateKey = some hs →
        PendingFrom n stateKey hs := by
  have unchanged {after : Node} (same : after.identity = n.identity ∧
      after.pendingHandshakes = n.pendingHandshakes) : after.identity = n.identity ∧
      ∀ stateKey hs, after.pendingHandshakes.get stateKey = some hs →
        PendingFrom n stateKey hs := by
    refine ⟨same.1, ?_⟩
    intro stateKey hs found
    rw [same.2] at found
    exact Or.inl found
  cases activity with
  | onReceive => exact unchanged ⟨rfl, rfl⟩
  | joinChannel name =>
      apply unchanged
      simp only [Node.perform, Node.joinChannel]
      split <;> exact ⟨rfl, rfl⟩
  | leaveChannel name =>
      apply unchanged
      simp only [Node.perform, Node.leaveChannel]
      split <;> exact ⟨rfl, rfl⟩
  | connect remoteUDPAddr remoteTCPAddr udpEphemeral tcpEphemeral now =>
      refine ⟨rfl, ?_⟩
      intro stateKey hs found
      rcases GoMap.get_set_eq_some.mp found with ⟨_, tcpState⟩ | ⟨_, earlier⟩
      · exact Or.inr (Or.inl ⟨tcpEphemeral, now, tcpState⟩)
      · rcases GoMap.get_set_eq_some.mp earlier with ⟨_, udpState⟩ | ⟨_, before⟩
        · exact Or.inr (Or.inl ⟨udpEphemeral, now, udpState⟩)
        · exact Or.inl before
  | connectViaRelay relayAddr targetAddr ephemeral now =>
      refine ⟨rfl, ?_⟩
      intro stateKey hs found
      rcases GoMap.get_set_eq_some.mp found with ⟨_, relayState⟩ | ⟨_, before⟩
      · exact Or.inr (Or.inl ⟨ephemeral, now, relayState⟩)
      · exact Or.inl before
  | triggerFastRehandshake cfg peerID now =>
      exact unchanged (triggerFastRehandshake_frame n cfg peerID now)
  | runFastRehandshake cfg peerID removed closing accepted ephemeral now =>
      exact fastRehandshake_pending n cfg peerID removed closing accepted ephemeral now
  | expire stateKey =>
      refine ⟨rfl, ?_⟩
      intro other hs found
      exact Or.inl (GoMap.get_delete_eq_some.mp found).2
  | handshake conn remoteAddr transport payload ephemeral now =>
      exact ⟨processHandshake_identity env n conn remoteAddr transport payload ephemeral now,
        processHandshake_pending env n conn remoteAddr transport payload ephemeral now⟩
  | relayPacket origin payload now => exact unchanged (handleRelayPacket_frame env n origin payload now)
  | heartbeat conn remoteAddr transport now timestamp =>
      apply unchanged
      rcases processHeartbeat_eq n conn remoteAddr transport now timestamp with
        same | ⟨id, p, _, seen⟩
      · rw [Node.perform, same]
        exact ⟨rfl, rfl⟩
      · rw [Node.perform, seen]
        exact ⟨rfl, rfl⟩
  | heartbeatAck remoteAddr now =>
      apply unchanged
      simp only [Node.perform, Node.processHeartbeatAck]
      split <;> exact ⟨rfl, rfl⟩
  | upgradePeer peerID remoteAddr dial =>
      apply unchanged
      obtain ⟨mux, kcpTransport, addrToPeer, dialed⟩ := n.upgradePeer_frame peerID remoteAddr dial
      rw [Node.perform, dialed]
      exact ⟨rfl, rfl⟩
  | removePeer peerID shouldReconnect =>
      exact unchanged (removePeerWithReconnect_pending n peerID shouldReconnect)
  | cleanupStaleMappings now =>
      refine ⟨rfl, ?_⟩
      intro stateKey hs found
      simp only [Node.perform, Node.cleanupStaleMappings, GoMap.get_retain] at found
      exact Or.inl (Option.eq_some_of_filter_eq_some found)
  | sendAppFrame peerID appFrameType data dial accepts =>
      exact unchanged (sendAppFrame_frame aead n peerID appFrameType data dial accepts)
  | data remoteAddr payload =>
      apply unchanged
      rcases processData_cases aead n remoteAddr payload with
        same | ⟨peerID, p, _, ⟨effects, _, failed⟩ | ⟨plaintext, opened, _, dispatched⟩⟩
      · rw [Node.perform, same]
        exact ⟨rfl, rfl⟩
      · rw [Node.perform, failed]
        exact ⟨rfl, rfl⟩
      · rw [Node.perform, dispatched]
        exact ⟨rfl, rfl⟩

end Activities

end Tenet
