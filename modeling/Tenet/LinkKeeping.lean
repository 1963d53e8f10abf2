import Tenet.KcpRegistry

/-! What an activity leaves of the link to a peer: the record, where it is reached and when it was last
seen, and the entry of its address. -/

namespace Tenet

open Lib

/-- A record on the same link, last seen at the same time. -/
def Peer.Stays (p q : Peer) : Prop :=
  ∃ session remoteChannels reassemblyBuffer rehandshake,
    q = { p with session, remoteChannels, reassemblyBuffer, rehandshake }

def HandshakeOutcome.peer : HandshakeOutcome → Option Bytes
  | .connected peerID | .switched peerID | .refreshed peerID => some peerID
  | .failed | .waiting | .refused _ => none

theorem sessionOutcome_peer {env : Env} {n : Node} {transport : Transport} {session : Session}
    {id : Bytes} (known : (n.sessionOutcome env transport session).peer = some id) :
    peerIDOf env session.remotePublicKey = id := by
  simp only [Node.sessionOutcome] at known
  split at known
  · split at known <;> exact Option.some.inj known
  · split at known
    · cases known
    · exact Option.some.inj known

namespace Activity

/-- A sign of life of the peer. -/
def hears (env : Env) (n : Node) (id : Bytes) : Activity → Prop
  | .heartbeat _ remoteAddr _ _ _ => n.addrToPeer.get remoteAddr.text = some id
  | .heartbeatAck remoteAddr _ => n.addrToPeer.get remoteAddr = some id
  | .handshake _ remoteAddr transport payload ephemeral now =>
      (n.handshakeOutcome env remoteAddr transport payload ephemeral now).peer = some id
  | _ => False

/-- The peer is removed: by the application, or by a re-handshake that finds no address or gives up. -/
def drops (n : Node) (id : Bytes) : Activity → Prop
  | .removePeer peerID _ => peerID = id
  | .triggerFastRehandshake cfg peerID now =>
      peerID = id ∧ (n.triggerFastRehandshake cfg peerID now).2.2 = .unaddressed
  | .runFastRehandshake cfg peerID removed closing accepted ephemeral now =>
      peerID = id ∧ ∃ p, removed.or (n.peers.get peerID) = some p ∧
        (n.runFastRehandshake cfg p closing accepted ephemeral now).2.2.2.2 = true
  | _ => False

/-- Another peer may take over the address, by a handshake from there or by a KCP session dialed to
there. -/
def takes (env : Env) (n : Node) (id addr : Bytes) : Activity → Prop
  | .handshake _ remoteAddr transport payload ephemeral now => remoteAddr.text = addr ∧ ∃ other,
      (n.handshakeOutcome env remoteAddr transport payload ephemeral now).peer = some other ∧
        other ≠ id
  | .upgradePeer peerID remoteAddr _ => remoteAddr = addr ∧ peerID ≠ id
  | .sendAppFrame peerID _ _ _ _ =>
      peerID ≠ id ∧ ∃ p, n.peers.get peerID = some p ∧ p.addr.text = addr
  | _ => False

end Activity

/-- What becomes of the link of the peer `id` at `addr`, where the peer is not heard of. -/
structure Leaves (id addr : Bytes) (drops takes : Prop) (n after : Node) : Prop where
  record : ∀ q, after.peers.get id = some q → ∃ p, n.peers.get id = some p ∧ p.Stays q
  stored : ¬ drops → (n.peers.get id).isSome = true → (after.peers.get id).isSome = true
  mapped : ¬ drops → ¬ takes → (n.peers.get id).isSome = true →
    n.addrToPeer.get addr = some id → after.addrToPeer.get addr = some id

theorem Peer.Stays.refl (p : Peer) : p.Stays p :=
  ⟨p.session, p.remoteChannels, p.reassemblyBuffer, p.rehandshake, rfl⟩

namespace Leaves

variable {id addr : Bytes} {drops takes : Prop} {n after : Node}

theorem of_peers (peers : after.peers = n.peers)
    (mapped : ¬ takes → (n.peers.get id).isSome = true → n.addrToPeer.get addr = some id →
      after.addrToPeer.get addr = some id) : Leaves id addr drops takes n after where
  record q stored := ⟨q, peers ▸ stored, .refl q⟩
  stored _ stored := peers.symm ▸ stored
  mapped _ := mapped

theorem same (peers : after.peers = n.peers) (addrToPeer : after.addrToPeer = n.addrToPeer) :
    Leaves id addr drops takes n after :=
  of_peers peers fun _ _ entry => addrToPeer.symm ▸ entry

theorem elsewhere (same : after.peers.get id = n.peers.get id)
    (mapped : ¬ takes → n.addrToPeer.get addr = some id → after.addrToPeer.get addr = some id) :
    Leaves id addr drops takes n after where
  record q stored := ⟨q, same ▸ stored, .refl q⟩
  stored _ stored := same.symm ▸ stored
  mapped _ untaken _ := mapped untaken

theorem rewritten {peerID : Bytes} {p q : Peer} (found : n.peers.get peerID = some p)
    (stays : p.Stays q) (peers : after.peers = n.peers.add q)
    (mapped : ¬ takes → n.addrToPeer.get addr = some id → after.addrToPeer.get addr = some id) :
    Leaves id addr drops takes n after where
  record r stored := by
    rw [peers, PeerStore.get_add] at stored
    split at stored
    · next here =>
        cases stored
        have named : q.id = peerID := by
          obtain ⟨session, remoteChannels, reassemblyBuffer, rehandshake, rfl⟩ := stays
          exact n.peers.get_id peerID p found
        exact ⟨p, by rw [here, named, found], stays⟩
    · exact ⟨r, stored, .refl r⟩
  stored _ stored := by
    rw [peers, PeerStore.get_add]
    split
    · rfl
    · exact stored
  mapped _ untaken _ := mapped untaken

/-- A removal behind a step, which loses the link if it is the peer's own. -/
theorem removed {middle : Node} {peerID : Bytes} {shouldReconnect : Bool}
    (first : Leaves id addr drops takes n middle) (own : peerID = id → drops) :
    Leaves id addr drops takes n (middle.removePeerWithReconnect peerID shouldReconnect).1 where
  record q stored := by
    rw [removePeerWithReconnect_peers] at stored
    split at stored
    · cases stored
    · exact first.record q stored
  stored kept stored := by
    rw [removePeerWithReconnect_peers, if_neg fun same => kept (own same.symm)]
    exact first.stored kept stored
  mapped kept untaken stored entry := by
    have still := first.mapped kept untaken stored entry
    rw [removePeerWithReconnect_addrToPeer, if_neg, still]
    rintro ⟨-, same⟩
    rw [still] at same
    exact kept (own (Option.some.inj same).symm)

end Leaves

section Leaving

variable (n : Node) (id addr : Bytes)

theorem leaves_trigger (cfg : FastRehandshakeConfig) (peerID : Bytes) (now : Int) :
    Leaves id addr (Activity.drops n id (.triggerFastRehandshake cfg peerID now)) False n
      (n.triggerFastRehandshake cfg peerID now).1 := by
  rcases triggerFastRehandshake_cases cfg n peerID now with
    refused | ⟨stored, rehandshake, found, _, refused | started | removed⟩
  · rw [refused]
    exact .same rfl rfl
  · rw [refused]
    exact .rewritten found ⟨_, _, _, rehandshake, rfl⟩ rfl fun _ entry => entry
  · rw [started]
    exact .rewritten found ⟨_, _, _, rehandshake, rfl⟩ rfl fun _ entry => entry
  · have written : Leaves id addr (Activity.drops n id (.triggerFastRehandshake cfg peerID now)) False n
        { n with peers := n.peers.add { stored with rehandshake } } :=
      .rewritten found ⟨_, _, _, rehandshake, rfl⟩ rfl fun _ entry => entry
    have verdict : (n.triggerFastRehandshake cfg peerID now).2.2 = .unaddressed := by rw [removed]
    rw [removed]
    exact written.removed fun same => ⟨same, verdict⟩

theorem leaves_fastRehandshake (cfg : FastRehandshakeConfig) (peerID : Bytes) (removed : Option Peer)
    (closing accepted : Bool) (ephemeral : Key) (now : Int) :
    Leaves id addr (Activity.drops n id
        (.runFastRehandshake cfg peerID removed closing accepted ephemeral now)) False n
      (n.fastRehandshake cfg peerID removed closing accepted ephemeral now).1 := by
  unfold Node.fastRehandshake Activity.drops
  cases found : removed.or (n.peers.get peerID) with
  | none => exact .same rfl rfl
  | some p =>
      obtain ⟨pendingHandshakes, rehandshake, effects, result, givesUp, ran, _⟩ :=
        runFastRehandshake_cases cfg n p closing accepted ephemeral now
      have marked (drops : Prop) : Leaves id addr drops False n
          (if removed.isSome then ({ n with pendingHandshakes } : Node)
            else { n with
              pendingHandshakes, peers := n.peers.add { p with rehandshake } }) := by
        cases removed with
        | some record => exact .same rfl rfl
        | none => exact .rewritten found ⟨_, _, _, rehandshake, rfl⟩ rfl fun _ entry => entry
      simp only [ran]
      cases givesUp with
      | false => exact marked _
      | true => exact (marked _).removed fun same => ⟨same, p, found, by rw [ran]⟩

theorem upgradePeer_mapped (peerID remoteAddr : Bytes) (dial : Option UInt32)
    (untaken : ¬ (remoteAddr = addr ∧ peerID ≠ id)) (entry : n.addrToPeer.get addr = some id) :
    (n.upgradePeer peerID remoteAddr dial).1.addrToPeer.get addr = some id := by
  rw [n.upgradePeer_addrToPeer]
  split
  · rw [GoMap.get_set]
    split
    · next here =>
        by_contra other
        exact untaken ⟨here.symm, fun same => other (congrArg some same)⟩
    · exact entry
  · exact entry

theorem leaves_sendAppFrame (aead : Aead) (peerID : Bytes) (appFrameType : UInt8) (data : Bytes)
    (dial : Option UInt32) (accepts : Nat → Bool) :
    Leaves id addr False
      (peerID ≠ id ∧ ∃ p, n.peers.get peerID = some p ∧ p.addr.text = addr) n
      (n.sendAppFrame aead peerID appFrameType data dial accepts).1 := by
  unfold Node.sendAppFrame
  split
  · exact .same rfl rfl
  · split
    · exact .same rfl rfl
    · next p found =>
        split
        · exact .same rfl rfl
        · next session live =>
            obtain ⟨_, _, _, frame⟩ := n.sendPath_frame p dial
            have peers : (n.sendPath p dial).1.peers = n.peers := by rw [frame]
            have mapped (untaken : ¬ (peerID ≠ id ∧ ∃ p, n.peers.get peerID = some p ∧
                p.addr.text = addr)) (entry : n.addrToPeer.get addr = some id) :
                (n.sendPath p dial).1.addrToPeer.get addr = some id := by
              rcases sendPath_registry n p dial with same | dialed
              · rw [same]
                exact entry
              · rw [dialed, n.peers.get_id peerID p found]
                exact upgradePeer_mapped n id addr peerID _ dial
                  (fun ⟨here, other⟩ => untaken ⟨other, p, found, here⟩) entry
            split
            · next after err path =>
                rw [path] at peers mapped
                exact .of_peers peers fun untaken _ => mapped untaken
            · next after route path =>
                rw [path] at peers mapped
                refine .rewritten found ?_ (congrArg (PeerStore.add · _) peers) mapped
                exact ⟨_, _, _, _, rfl⟩

theorem leaves_processData (aead : Aead) (remoteAddr payload : Bytes) :
    Leaves id addr False False n (n.processData aead remoteAddr payload).1 := by
  rcases processData_cases aead n remoteAddr payload with
    same | ⟨peerID, p, found, ⟨effects, _, failed⟩ | ⟨plaintext, opened, decrypted, dispatched⟩⟩
  · rw [same]
    exact .same rfl rfl
  · rw [failed]
    exact .rewritten found ⟨_, _, _, _, rfl⟩ rfl fun _ entry => entry
  · obtain ⟨channels, buffer, made⟩ := dispatchFrame_record n peerID opened plaintext
    obtain ⟨session, cipher, _, _, _, rfl⟩ :=
      p.decrypt_eq_some aead opened payload plaintext decrypted
    rw [dispatched, made]
    exact .rewritten found ⟨_, _, _, _, rfl⟩ rfl fun _ entry => entry

theorem leaves_seen (remoteAddr : Bytes) (now : Int) (other : n.addrToPeer.get remoteAddr ≠ some id) :
    Leaves id addr False False n (n.processHeartbeatAck remoteAddr now) := by
  unfold Node.processHeartbeatAck
  split
  · exact .same rfl rfl
  · next p found =>
      obtain ⟨peerID, entry, stored⟩ := Option.bind_eq_some_iff.mp found
      refine .elsewhere ?_ fun _ entry => entry
      rw [PeerStore.get_add, if_neg]
      rintro rfl
      exact other (entry.trans (congrArg some (n.peers.get_id peerID p stored).symm))

theorem leaves_handshake (env : Env) (conn : Option ConnId) (remoteAddr : NetAddr)
    (transport : Transport) (payload : Message) (ephemeral : Key) (now : Int)
    (unheard : (n.handshakeOutcome env remoteAddr transport payload ephemeral now).peer ≠ some id) :
    Leaves id addr False
      (Activity.takes env n id addr (.handshake conn remoteAddr transport payload ephemeral now)) n
      (n.processHandshake env conn remoteAddr transport payload ephemeral now).1 := by
  have tables := (processHandshake_tables env n conn remoteAddr transport payload ephemeral now).1
  simp only [Activity.takes]
  generalize n.handshakeOutcome env remoteAddr transport payload ephemeral now = outcome at *
  generalize (n.processHandshake env conn remoteAddr transport payload ephemeral now).1 = after at *
  have other {p : Peer} (named : outcome.peer = some p.id) (peers : after.peers = n.peers.add p) :
      after.peers.get id = n.peers.get id := by
    rw [peers, PeerStore.get_add, if_neg]
    rintro rfl
    exact unheard named
  have written {peerID : Bytes} (named : outcome.peer = some peerID)
      (addrToPeer : after.addrToPeer = n.addrToPeer.set remoteAddr.text peerID)
      (untaken : ¬ (remoteAddr.text = addr ∧ ∃ other, outcome.peer = some other ∧ other ≠ id))
      (entry : n.addrToPeer.get addr = some id) : after.addrToPeer.get addr = some id := by
    rw [addrToPeer, GoMap.get_set, if_neg, entry]
    intro here
    refine untaken ⟨here.symm, peerID, named, ?_⟩
    rintro rfl
    exact unheard named
  cases outcome with
  | failed | waiting | refused => exact .same tables.1 tables.2
  | connected peerID =>
      obtain ⟨_, p, rfl, _, peers, addrToPeer⟩ := tables
      exact .elsewhere (other rfl peers) (written rfl addrToPeer)
  | switched peerID =>
      obtain ⟨_, p, _, rfl, _, peers, addrToPeer⟩ := tables
      exact .elsewhere (other rfl peers) (written rfl addrToPeer)
  | refreshed peerID =>
      obtain ⟨_, p, _, rfl, _, peers, addrToPeer⟩ := tables
      exact .elsewhere (other rfl peers) fun _ entry => addrToPeer.symm ▸ entry

/-- Whatever a node does without hearing from a peer, the record of the peer stays on its link and was
last seen when it was; and as long as the peer is not removed and no other takes its address, it is
still stored and found there. -/
theorem perform_leaves (env : Env) (aead : Aead) (activity : Activity)
    (unheard : ¬ activity.hears env n id) :
    Leaves id addr (activity.drops n id) (activity.takes env n id addr) n
      (n.perform env aead activity).1 := by
  cases activity with
  | onReceive | connect | connectViaRelay | expire => exact .same rfl rfl
  | joinChannel name =>
      simp only [Node.perform, Node.joinChannel]
      split <;> exact .same rfl rfl
  | leaveChannel name =>
      simp only [Node.perform, Node.leaveChannel]
      split <;> exact .same rfl rfl
  | triggerFastRehandshake cfg peerID now => exact leaves_trigger n id addr cfg peerID now
  | runFastRehandshake cfg peerID removed closing accepted ephemeral now =>
      exact leaves_fastRehandshake n id addr cfg peerID removed closing accepted ephemeral now
  | handshake conn remoteAddr transport payload ephemeral now =>
      exact leaves_handshake n id addr env conn remoteAddr transport payload ephemeral now unheard
  | relayPacket origin payload now =>
      obtain ⟨relayForward, relayInbound, same⟩ := handleRelayPacket_eq env n origin payload now
      rw [Node.perform, same]
      exact .same rfl rfl
  | heartbeat conn remoteAddr transport now timestamp =>
      have same : (n.processHeartbeat conn remoteAddr transport now timestamp).1 =
          n.processHeartbeatAck remoteAddr.text now := by
        unfold Node.processHeartbeat Node.processHeartbeatAck
        split <;> rfl
      rw [Node.perform, same]
      exact leaves_seen n id addr remoteAddr.text now unheard
  | heartbeatAck remoteAddr now => exact leaves_seen n id addr remoteAddr now unheard
  | upgradePeer peerID remoteAddr dial =>
      exact .of_peers (n.upgradePeer_peers peerID remoteAddr dial) fun untaken _ =>
        upgradePeer_mapped n id addr peerID remoteAddr dial untaken
  | removePeer peerID shouldReconnect =>
      have start : Leaves id addr (peerID = id) False n n := .same rfl rfl
      exact start.removed fun same => same
  | cleanupStaleMappings now =>
      refine .of_peers rfl fun _ stored entry => ?_
      rw [Node.perform, cleanupStaleMappings_addrToPeer, entry, Option.filter_some, if_pos stored]
  | sendAppFrame peerID appFrameType data dial accepts =>
      exact leaves_sendAppFrame n id addr aead peerID appFrameType data dial accepts
  | data remoteAddr payload => exact leaves_processData n id addr aead remoteAddr payload

end Leaving

end Tenet
