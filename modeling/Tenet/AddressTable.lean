import Tenet.Events

/-! The address table against the peers' own addresses. -/

namespace Tenet

open Lib

/-- Every peer is found under its current address. -/
def AddressTable (n : Node) : Prop :=
  ∀ id p, n.peers.get id = some p → n.addrToPeer.get p.addr.text = some id

def SoleAt (n : Node) (peerID addr : Bytes) : Prop :=
  ∀ id p, n.peers.get id = some p → p.addr.text = addr → id = peerID

/-- What a handshake with this outcome must find. A peer that is new or moves to TCP takes over
the entry of its address, so no other peer may be there; a refresh does not write the entry, so it
must be there already. -/
def TableAllows (n : Node) (remoteAddr : NetAddr) (transport : Transport) :
    HandshakeOutcome → Prop
  | .failed | .waiting | .refused _ => True
  | .connected peerID | .switched peerID => SoleAt n peerID remoteAddr.text
  | .refreshed peerID => ∀ existing, n.peers.get peerID = some existing →
      ¬ (existing.transport = .tcp ∧ transport ≠ .tcp) →
        n.addrToPeer.get remoteAddr.text = some peerID

def KeepsTable (env : Env) (n : Node) : Event → Prop
  | .handshake _ remoteAddr transport payload ephemeral now =>
      TableAllows n remoteAddr transport
        (n.handshakeOutcome env remoteAddr transport payload ephemeral now)
  | .upgradePeer peerID remoteAddr dial =>
      (n.upgradePeer peerID remoteAddr dial).2 = true → SoleAt n peerID remoteAddr
  | _ => True

section

variable {n after : Node} (table : AddressTable n)

include table

theorem addressTable_congr (peers : after.peers = n.peers)
    (addrToPeer : after.addrToPeer = n.addrToPeer) : AddressTable after := by
  intro id p present
  rw [peers] at present
  rw [addrToPeer]
  exact table id p present

theorem addressTable_taken (p : Peer) (peers : after.peers = n.peers.add p)
    (addrToPeer : after.addrToPeer = n.addrToPeer.set p.addr.text p.id) :
    AddressTable after ↔ SoleAt n p.id p.addr.text := by
  constructor
  · intro kept id other present sameAddr
    by_contra different
    have still : after.peers.get id = some other := by
      rw [peers, PeerStore.get_add, if_neg different]
      exact present
    have entry := kept id other still
    rw [addrToPeer, GoMap.get_set, if_pos sameAddr] at entry
    exact different (Option.some.inj entry).symm
  · intro sole id other present
    rw [peers, PeerStore.get_add] at present
    rw [addrToPeer, GoMap.get_set]
    by_cases same : id = p.id
    · rw [if_pos same] at present
      rw [← Option.some.inj present, if_pos rfl, same]
    · rw [if_neg same] at present
      have elsewhere : other.addr.text ≠ p.addr.text :=
        fun sameAddr => same (sole id other present sameAddr)
      rw [if_neg elsewhere]
      exact table id other present

theorem addressTable_replaced (p : Peer) (peers : after.peers = n.peers.add p)
    (addrToPeer : after.addrToPeer = n.addrToPeer) :
    AddressTable after ↔ n.addrToPeer.get p.addr.text = some p.id := by
  constructor
  · intro kept
    have stored : after.peers.get p.id = some p := by
      rw [peers, PeerStore.get_add, if_pos rfl]
    rw [← addrToPeer]
    exact kept p.id p stored
  · intro entry id other present
    rw [peers, PeerStore.get_add] at present
    rw [addrToPeer]
    by_cases same : id = p.id
    · rw [if_pos same] at present
      rw [← Option.some.inj present, same]
      exact entry
    · rw [if_neg same] at present
      exact table id other present

theorem addressTable_handshake (remoteAddr : NetAddr) (transport : Transport)
    (outcome : HandshakeOutcome)
    (tables : TablesAfter n remoteAddr transport outcome after.peers after.addrToPeer) :
    AddressTable after ↔ TableAllows n remoteAddr transport outcome := by
  cases outcome with
  | failed => exact iff_of_true (addressTable_congr table tables.1 tables.2) trivial
  | waiting => exact iff_of_true (addressTable_congr table tables.1 tables.2) trivial
  | refused peerID => exact iff_of_true (addressTable_congr table tables.1 tables.2) trivial
  | connected peerID =>
      rcases tables with ⟨_, p, rfl, rfl, peers, addrToPeer⟩
      exact addressTable_taken table p peers addrToPeer
  | switched peerID =>
      rcases tables with ⟨_, p, _, rfl, rfl, peers, addrToPeer⟩
      exact addressTable_taken table p peers addrToPeer
  | refreshed peerID =>
      rcases tables with ⟨existing, p, present, rfl, moved, peers, addrToPeer⟩
      rw [addressTable_replaced table p peers addrToPeer, moved]
      constructor
      · intro entry other found switched
        rw [present] at found
        cases found
        rw [if_neg switched] at entry
        exact entry
      · intro allowed
        by_cases blocked : existing.transport = .tcp ∧ transport ≠ .tcp
        · rw [if_pos blocked]
          exact table p.id existing present
        · rw [if_neg blocked]
          exact allowed existing present blocked

theorem addressTable_upgradePeer (peerID remoteAddr : Bytes) (dial : Option UInt32) :
    AddressTable (n.upgradePeer peerID remoteAddr dial).1 ↔
      ((n.upgradePeer peerID remoteAddr dial).2 = true → SoleAt n peerID remoteAddr) := by
  have peers := n.upgradePeer_peers peerID remoteAddr dial
  have addrToPeer := n.upgradePeer_addrToPeer peerID remoteAddr dial
  by_cases dialed : (n.upgradePeer peerID remoteAddr dial).2 = true
  · rw [if_pos dialed] at addrToPeer
    constructor
    · intro kept _ id p present sameAddr
      have entry := kept id p (by rw [peers]; exact present)
      rw [addrToPeer, GoMap.get_set, if_pos sameAddr] at entry
      exact (Option.some.inj entry).symm
    · intro sole id p present
      rw [peers] at present
      rw [addrToPeer, GoMap.get_set]
      by_cases sameAddr : p.addr.text = remoteAddr
      · rw [if_pos sameAddr, sole dialed id p present sameAddr]
      · rw [if_neg sameAddr]
        exact table id p present
  · rw [if_neg dialed] at addrToPeer
    exact iff_of_true (addressTable_congr table peers addrToPeer) (fun success => absurd success dialed)

theorem addressTable_removePeer (peerID : Bytes) (shouldReconnect : Bool) :
    AddressTable (n.removePeerWithReconnect peerID shouldReconnect).1 := by
  intro id p present
  rw [removePeerWithReconnect_peers] at present
  rw [removePeerWithReconnect_addrToPeer]
  split at present
  · cases present
  · next different =>
      have entry := table id p present
      rw [if_neg (fun both => different (Option.some.inj (entry.symm.trans both.2)))]
      exact entry

theorem addressTable_cleanup (now : Int) : AddressTable (n.cleanupStaleMappings now) := by
  intro id p present
  have stored : n.peers.get id = some p := present
  rw [cleanupStaleMappings_addrToPeer, table id p stored, Option.filter_some, stored]
  rfl

theorem addressTable_heartbeat (conn : Option ConnId) (remoteAddr : NetAddr)
    (transport : Transport) (now : Int) (timestamp : Nat) :
    AddressTable (n.processHeartbeat conn remoteAddr transport now timestamp).1 := by
  rcases processHeartbeat_eq n conn remoteAddr transport now timestamp with
    same | ⟨id, p, present, seen⟩
  · rw [same]
    exact table
  · rw [seen]
    refine (addressTable_replaced table (p.updateLastSeen now) ?_ ?_).mpr ?_
    · rfl
    · rfl
    change n.addrToPeer.get p.addr.text = some p.id
    rw [n.peers.get_id id p present]
    exact table id p present

end

/-- From an intact table, a step leaves it intact exactly where `KeepsTable` says so. -/
theorem addressTable_step (env : Env) (n : Node) (event : Event) (table : AddressTable n) :
    AddressTable (n.step env event) ↔ KeepsTable env n event := by
  cases event with
  | connect remoteUDPAddr remoteTCPAddr udpState tcpState => exact iff_of_true table trivial
  | connectViaRelay relayAddr targetAddr hs => exact iff_of_true table trivial
  | handshake conn remoteAddr transport payload ephemeral now =>
      exact addressTable_handshake table remoteAddr transport _
        (processHandshake_tables env n conn remoteAddr transport payload ephemeral now).1
  | relayPacket origin payload now =>
      rcases handleRelayPacket_tables env n origin payload now with ⟨peers, addrToPeer, _, _⟩
      exact iff_of_true (addressTable_congr table peers addrToPeer) trivial
  | heartbeat conn remoteAddr transport now timestamp =>
      exact iff_of_true (addressTable_heartbeat table conn remoteAddr transport now timestamp) trivial
  | upgradePeer peerID remoteAddr dial => exact addressTable_upgradePeer table peerID remoteAddr dial
  | removePeer peerID shouldReconnect =>
      exact iff_of_true (addressTable_removePeer table peerID shouldReconnect) trivial
  | cleanupStaleMappings now => exact iff_of_true (addressTable_cleanup table now) trivial

/-- In a run from the start, every peer is always found under its current address exactly if each
handshake and each KCP dial of the run met `KeepsTable`. -/
theorem addressTable_run (env : Env) (cfg : Config) (identity : Identity) (kcpStarted : Bool)
    (events : List Event) :
    Run.Throughout (Node.step env) AddressTable (startedNode env cfg identity kcpStarted) events ↔
      Run.Along (Node.step env) (KeepsTable env) (startedNode env cfg identity kcpStarted) events := by
  apply Run.throughout_iff_along
  · intro id p present
    rw [startedNode_peers] at present
    cases present
  · intro n event table
    exact addressTable_step env n event table

def movedPeerEvents : List Event :=
  let answer (sent drawn : Key) : Message := .two (.one sent) (prologuePrefix ++ [1]) drawn [9]
  [.handshake none ⟨.udp, [0x0A]⟩ .udp (.one [1]) [7] 0,
    .handshake none ⟨.udp, [0x0A]⟩ .udp (.three (answer [1] [7]) [5]) [7] 0,
    .handshake none ⟨.udp, [0x0B]⟩ .udp (.one [2]) [8] 0,
    .handshake none ⟨.udp, [0x0B]⟩ .udp (.three (answer [2] [8]) [5]) [8] 0]

def movedPeerNode : Node :=
  Run.run (Node.step .padded)
    (startedNode .padded { defaultConfig with networkPassword := [1] } (newIdentity .padded [9]) true)
    movedPeerEvents

/-- The record has the new address and the table has only the old one: what the peer sends from
its current address is attributed to nobody. -/
theorem moved_peer_not_found :
    (movedPeerNode.peers.get (peerIDOf .padded [5])).map (fun p => p.addr.text) = some [0x0B] ∧
      movedPeerNode.addrToPeer.get [0x0B] = none ∧ (movedPeerNode.peerAt [0x0B]).isNone ∧
      ¬ AddressTable movedPeerNode := by
  have moved : (movedPeerNode.peers.get (peerIDOf .padded [5])).map (fun p => p.addr.text) =
      some [0x0B] := by decide +kernel
  have unmapped : movedPeerNode.addrToPeer.get [0x0B] = none := by decide +kernel
  refine ⟨moved, unmapped, ?_, ?_⟩
  · rw [Node.peerAt, unmapped]
    rfl
  · intro table
    rcases Option.map_eq_some_iff.mp moved with ⟨p, present, addr⟩
    have entry := table _ p present
    rw [addr, unmapped] at entry
    cases entry

end Tenet
