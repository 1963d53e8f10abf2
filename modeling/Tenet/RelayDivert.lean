import Tenet.Events

/-! Relaying against direct peering: whose datagrams a relay hands to its own handlers. -/

namespace Tenet

open Lib

/-- A non-relay datagram from an address of a connected peer is handled on this node. -/
def Undiverted (env : Env) (n : Node) : Prop :=
  ∀ addr id p, n.addrToPeer.get addr = some id → n.peers.get id = some p →
    ∀ packetType body now, packetType ≠ packetTypeRelay →
      n.handleRead env addr (tentPacket packetType body) now =
        (n, [.handlePacket ⟨.udp, addr⟩ .udp packetType body])

def NoForward (n : Node) (addr : Bytes) : Prop :=
  n.config.enableRelay = true → n.relayForward.get addr = none

def PeersNotForwarded (n : Node) : Prop :=
  ∀ addr id, n.addrToPeer.get addr = some id → (n.peers.get id).isSome = true → NoForward n addr

theorem handleRead_tent (env : Env) (n : Node) (addr : Bytes) (packetType : UInt8) (body : Bytes)
    (now : Int) (direct : packetType ≠ packetTypeRelay) :
    n.handleRead env addr (tentPacket packetType body) now =
      match (if n.config.enableRelay then n.relayForward.get addr else none) with
      | some originAddr => (n, [.writeToUDP originAddr (tentPacket packetType body)])
      | none => (n, [.handlePacket ⟨.udp, addr⟩ .udp packetType body]) := by
  have long : ¬ (tentPacket packetType body).length < 4 := by
    rw [tentPacket_length]
    omega
  have magic : ¬ (tentPacket packetType body).take 4 = probeMagic := by
    simp [tentPacket, magicBytes, probeMagic]
  rw [Node.handleRead, if_neg long, if_neg magic, if_pos (isTent_tentPacket packetType body)]
  exact if_neg direct

/-- What the reader does with a peer's datagrams depends on the forwarding table alone. -/
theorem undiverted_iff (env : Env) (n : Node) : Undiverted env n ↔ PeersNotForwarded n := by
  have notRelay : packetTypeData ≠ packetTypeRelay := by decide
  constructor
  · intro undiverted addr id mapped present relaying
    rcases Option.isSome_iff_exists.mp present with ⟨p, found⟩
    have read := undiverted addr id p mapped found packetTypeData [] 0 notRelay
    rw [handleRead_tent env n addr packetTypeData [] 0 notRelay, if_pos relaying] at read
    cases forwarded : n.relayForward.get addr with
    | none => rfl
    | some origin =>
        rw [forwarded] at read
        cases (Prod.mk.inj read).2
  · intro clear addr id p mapped found packetType body now direct
    have none_here := clear addr id mapped (by rw [found]; rfl)
    rw [handleRead_tent env n addr packetType body now direct]
    by_cases relaying : n.config.enableRelay = true
    · rw [if_pos relaying, none_here relaying]
    · rw [if_neg relaying]

/-- What a handshake with this outcome must find: no address that it connects is forwarded. -/
def DivertAllows (n : Node) (remoteAddr : NetAddr) : HandshakeOutcome → Prop
  | .connected peerID => NoForward n remoteAddr.text ∧
      ∀ addr, n.addrToPeer.get addr = some peerID → NoForward n addr
  | .switched _ => NoForward n remoteAddr.text
  | _ => True

def KeepsDirect (env : Env) (n : Node) : Event → Prop
  | .handshake _ remoteAddr transport payload ephemeral now =>
      DivertAllows n remoteAddr
        (n.handshakeOutcome env remoteAddr transport payload ephemeral now)
  | .relayPacket _ payload now => ∀ target, n.forwardTarget env payload now = some target →
      ∀ id, n.addrToPeer.get target = some id → n.peers.get id = none
  | .upgradePeer peerID remoteAddr dial => (n.upgradePeer peerID remoteAddr dial).2 = true →
      (n.peers.get peerID).isSome = true → NoForward n remoteAddr
  | _ => True

theorem noForward_congr {n after : Node} (same : SameRelaying after n) (addr : Bytes) :
    NoForward after addr ↔ NoForward n addr := by
  rw [NoForward, NoForward, same.relayForward, same.config]

section

variable {n after : Node} (clear : PeersNotForwarded n)

include clear

theorem peersNotForwarded_mono
    (mapped : ∀ addr id, after.addrToPeer.get addr = some id → n.addrToPeer.get addr = some id)
    (present : ∀ id, (after.peers.get id).isSome = true → (n.peers.get id).isSome = true)
    (forwarding : ∀ addr, NoForward n addr → NoForward after addr) : PeersNotForwarded after := by
  intro addr id entry connected
  exact forwarding addr (clear addr id (mapped addr id entry) (present id connected))

theorem peersNotForwarded_unchanged
    (peers : ∀ id, (after.peers.get id).isSome = (n.peers.get id).isSome)
    (addrToPeer : after.addrToPeer = n.addrToPeer) (same : SameRelaying after n) :
    PeersNotForwarded after := by
  apply peersNotForwarded_mono clear
  · intro addr id entry
    rwa [addrToPeer] at entry
  · intro id connected
    rwa [peers] at connected
  · exact fun addr => (noForward_congr same addr).mpr

theorem peersNotForwarded_mapped (place peerID : Bytes)
    (peers : ∀ id, (after.peers.get id).isSome = (n.peers.get id).isSome)
    (addrToPeer : after.addrToPeer = n.addrToPeer.set place peerID) (same : SameRelaying after n) :
    PeersNotForwarded after ↔ ((n.peers.get peerID).isSome = true → NoForward n place) := by
  constructor
  · intro kept connected
    apply (noForward_congr same _).mp
    apply kept place peerID
    · rw [addrToPeer, GoMap.get_set, if_pos rfl]
    · rw [peers]
      exact connected
  · intro allowed addr id entry connected
    apply (noForward_congr same addr).mpr
    rw [peers] at connected
    rw [addrToPeer] at entry
    rcases GoMap.get_set_eq_some.mp entry with ⟨rfl, rfl⟩ | ⟨_, before⟩
    · exact allowed connected
    · exact clear addr id before connected

theorem peersNotForwarded_connected (place : Bytes) (p : Peer) (peers : after.peers = n.peers.add p)
    (addrToPeer : after.addrToPeer = n.addrToPeer.set place p.id) (same : SameRelaying after n) :
    PeersNotForwarded after ↔
      NoForward n place ∧ ∀ addr, n.addrToPeer.get addr = some p.id → NoForward n addr := by
  have stored : (after.peers.get p.id).isSome = true := by
    rw [peers, PeerStore.get_add, if_pos rfl]
    rfl
  constructor
  · intro kept
    constructor
    · apply (noForward_congr same _).mp
      apply kept _ p.id _ stored
      rw [addrToPeer, GoMap.get_set, if_pos rfl]
    · intro addr entry
      apply (noForward_congr same _).mp
      apply kept addr p.id _ stored
      rw [addrToPeer, GoMap.get_set]
      split
      · rfl
      · exact entry
  · rintro ⟨here, elsewhere⟩ addr id entry connected
    apply (noForward_congr same addr).mpr
    rw [addrToPeer] at entry
    rw [peers, PeerStore.get_add] at connected
    rcases GoMap.get_set_eq_some.mp entry with ⟨rfl, _⟩ | ⟨_, before⟩
    · exact here
    · by_cases new : id = p.id
      · exact elsewhere addr (new ▸ before)
      · rw [if_neg new] at connected
        exact clear addr id before connected

theorem peersNotForwarded_handshake (remoteAddr : NetAddr) (transport : Transport)
    (outcome : HandshakeOutcome)
    (tables : TablesAfter n remoteAddr transport outcome after.peers after.addrToPeer)
    (same : SameRelaying after n) : PeersNotForwarded after ↔ DivertAllows n remoteAddr outcome := by
  have unchanged : after.peers = n.peers ∧ after.addrToPeer = n.addrToPeer →
      PeersNotForwarded after := by
    rintro ⟨peers, addrToPeer⟩
    exact peersNotForwarded_unchanged clear (fun id => by rw [peers]) addrToPeer same
  cases outcome with
  | failed => exact iff_of_true (unchanged tables) trivial
  | waiting => exact iff_of_true (unchanged tables) trivial
  | refused peerID => exact iff_of_true (unchanged tables) trivial
  | connected peerID =>
      rcases tables with ⟨absent, p, rfl, rfl, peers, addrToPeer⟩
      exact peersNotForwarded_connected clear _ p peers addrToPeer same
  | switched peerID =>
      rcases tables with ⟨existing, p, found, rfl, rfl, peers, addrToPeer⟩
      have present : (n.peers.get p.id).isSome = true := by
        rw [found]
        rfl
      rw [peersNotForwarded_mapped clear _ p.id
        (fun id => by rw [peers, PeerStore.isSome_get_add present]) addrToPeer same]
      exact forall_prop_of_true present
  | refreshed peerID =>
      rcases tables with ⟨existing, p, found, rfl, _, peers, addrToPeer⟩
      have present : (n.peers.get p.id).isSome = true := by
        rw [found]
        rfl
      refine iff_of_true ?_ trivial
      exact peersNotForwarded_unchanged clear
        (fun id => by rw [peers, PeerStore.isSome_get_add present]) addrToPeer same

theorem peersNotForwarded_relayPacket (env : Env) (origin payload : Bytes) (now : Int) :
    PeersNotForwarded (n.handleRelayPacket env origin payload now).1 ↔
      ∀ target, n.forwardTarget env payload now = some target →
        ∀ id, n.addrToPeer.get target = some id → n.peers.get id = none := by
  rcases handleRelayPacket_tables env n origin payload now with
    ⟨peers, addrToPeer, config, relayForward⟩
  cases forwarded : n.forwardTarget env payload now with
  | none =>
      rw [forwarded] at relayForward
      refine iff_of_true ?_ (by simp)
      intro addr id entry connected
      rw [addrToPeer] at entry
      rw [peers] at connected
      rw [NoForward, relayForward, config]
      exact clear addr id entry connected
  | some target =>
      rw [forwarded] at relayForward
      have relaying : n.config.enableRelay = true := by
        unfold Node.forwardTarget Node.admitRelayPacket at forwarded
        by_contra off
        rw [if_neg off] at forwarded
        cases forwarded
      constructor
      · intro kept place same id entry
        cases same
        by_contra connected
        have open_here := kept target id (by rw [addrToPeer]; exact entry)
          (by rw [peers]; exact Option.isSome_iff_ne_none.mpr connected) (by rw [config]; exact relaying)
        rw [relayForward, GoMap.get_set, if_pos rfl] at open_here
        cases open_here
      · intro unconnected addr id entry connected _
        rw [addrToPeer] at entry
        rw [peers] at connected
        rw [relayForward, GoMap.get_set]
        split
        · next atTarget =>
            rw [unconnected target rfl id (atTarget ▸ entry)] at connected
            cases connected
        · exact clear addr id entry connected relaying

theorem peersNotForwarded_upgradePeer (peerID remoteAddr : Bytes) (dial : Option UInt32) :
    PeersNotForwarded (n.upgradePeer peerID remoteAddr dial).1 ↔
      ((n.upgradePeer peerID remoteAddr dial).2 = true → (n.peers.get peerID).isSome = true →
        NoForward n remoteAddr) := by
  have peers := n.upgradePeer_peers peerID remoteAddr dial
  have addrToPeer := n.upgradePeer_addrToPeer peerID remoteAddr dial
  have same : SameRelaying (n.upgradePeer peerID remoteAddr dial).1 n := by
    rcases n.upgradePeer_frame peerID remoteAddr dial with ⟨mux, kcpTransport, table, frame⟩
    rw [frame]
    exact ⟨rfl, rfl⟩
  by_cases dialed : (n.upgradePeer peerID remoteAddr dial).2 = true
  · rw [if_pos dialed] at addrToPeer
    rw [peersNotForwarded_mapped clear remoteAddr peerID (fun id => by rw [peers]) addrToPeer same]
    exact ⟨fun allowed _ => allowed, fun allowed => allowed dialed⟩
  · rw [if_neg dialed] at addrToPeer
    refine iff_of_true ?_ (fun success => absurd success dialed)
    exact peersNotForwarded_unchanged clear (fun id => by rw [peers]) addrToPeer same

theorem peersNotForwarded_removePeer (peerID : Bytes) (shouldReconnect : Bool) :
    PeersNotForwarded (n.removePeerWithReconnect peerID shouldReconnect).1 := by
  apply peersNotForwarded_mono clear
  · intro addr id entry
    rw [removePeerWithReconnect_addrToPeer] at entry
    split at entry
    · cases entry
    · exact entry
  · intro id connected
    rw [removePeerWithReconnect_peers] at connected
    split at connected
    · cases connected
    · exact connected
  · exact fun addr =>
      (noForward_congr (removePeerWithReconnect_relaying n peerID shouldReconnect) addr).mpr

theorem peersNotForwarded_cleanup (now : Int) : PeersNotForwarded (n.cleanupStaleMappings now) := by
  apply peersNotForwarded_mono clear
  · intro addr id entry
    rw [cleanupStaleMappings_addrToPeer] at entry
    exact (Option.filter_eq_some_iff.mp entry).1
  · exact fun id connected => connected
  · intro addr none_here relaying
    rw [cleanupStaleMappings_relayForward, none_here relaying]
    rfl

theorem peersNotForwarded_heartbeat (conn : Option ConnId) (remoteAddr : NetAddr)
    (transport : Transport) (now : Int) (timestamp : Nat) :
    PeersNotForwarded (n.processHeartbeat conn remoteAddr transport now timestamp).1 := by
  rcases processHeartbeat_eq n conn remoteAddr transport now timestamp with
    same | ⟨id, p, found, seen⟩
  · rw [same]
    exact clear
  · rw [seen]
    have named : p.id = id := n.peers.get_id id p found
    have present : (n.peers.get (p.updateLastSeen now).id).isSome = true := by
      change (n.peers.get p.id).isSome = true
      rw [named, found]
      rfl
    exact peersNotForwarded_unchanged clear (fun other => PeerStore.isSome_get_add present other) rfl
      ⟨rfl, rfl⟩

end

theorem peersNotForwarded_step (env : Env) (n : Node) (event : Event) (clear : PeersNotForwarded n) :
    PeersNotForwarded (n.step env event) ↔ KeepsDirect env n event := by
  cases event with
  | connect remoteUDPAddr remoteTCPAddr udpState tcpState => exact iff_of_true clear trivial
  | connectViaRelay relayAddr targetAddr hs => exact iff_of_true clear trivial
  | handshake conn remoteAddr transport payload ephemeral now =>
      rcases processHandshake_tables env n conn remoteAddr transport payload ephemeral now with
        ⟨tables, same⟩
      exact peersNotForwarded_handshake clear remoteAddr transport _ tables same
  | relayPacket origin payload now => exact peersNotForwarded_relayPacket clear env origin payload now
  | heartbeat conn remoteAddr transport now timestamp =>
      exact iff_of_true
        (peersNotForwarded_heartbeat clear conn remoteAddr transport now timestamp) trivial
  | upgradePeer peerID remoteAddr dial =>
      exact peersNotForwarded_upgradePeer clear peerID remoteAddr dial
  | removePeer peerID shouldReconnect =>
      exact iff_of_true (peersNotForwarded_removePeer clear peerID shouldReconnect) trivial
  | cleanupStaleMappings now => exact iff_of_true (peersNotForwarded_cleanup clear now) trivial

/-- In a run from the start, the datagrams of connected peers are always handled on this node
exactly if no accepted request names an address of a connected peer, and no peer connects at an
address that is being forwarded. -/
theorem undiverted_run (env : Env) (cfg : Config) (identity : Identity) (kcpStarted : Bool)
    (events : List Event) :
    Run.Throughout (Node.step env) (Undiverted env) (startedNode env cfg identity kcpStarted) events ↔
      Run.Along (Node.step env) (KeepsDirect env) (startedNode env cfg identity kcpStarted) events := by
  apply Run.throughout_iff_along
  · intro addr id p _ present
    rw [startedNode_peers] at present
    cases present
  · intro n event undiverted
    rw [undiverted_iff] at undiverted ⊢
    exact peersNotForwarded_step env n event undiverted

/-- A started node, a peer that connects from `[0x41]`, and a request of `[0x42]`, with a token that
the node accepts, to forward a datagram to `[0x41]`. -/
def divertedNode : Node :=
  let fresh := startedNode .padded { defaultConfig with networkPassword := [1] }
    (newIdentity .padded [9]) true
  Run.run (Node.step .padded) fresh
    [.handshake none ⟨.udp, [0x41]⟩ .udp (.one [1]) [7] 0,
      .handshake none ⟨.udp, [0x41]⟩ .udp
        (.three (.two (.one [1]) (prologuePrefix ++ [1]) [7] [9]) [5]) [7] 0,
      .relayPacket [0x42]
        (relayModeForward :: 1 :: 0x41 :: 73 :: (fresh.relayToken .padded 0) ++ [0x49]) 0]

/-- The peer is connected at `[0x41]`, and its heartbeat is written to `[0x42]`. -/
theorem peer_heartbeat_diverted :
    divertedNode.addrToPeer.get [0x41] = some (peerIDOf .padded [5]) ∧
      (divertedNode.peers.get (peerIDOf .padded [5])).isSome = true ∧
      (divertedNode.handleRead .padded [0x41] (tentPacket packetTypeHeartbeat [3]) 0).2 =
        [.writeToUDP [0x42] (tentPacket packetTypeHeartbeat [3])] ∧
      ¬ Undiverted .padded divertedNode := by
  have mapped : divertedNode.addrToPeer.get [0x41] = some (peerIDOf .padded [5]) := by
    decide +kernel
  have connected : (divertedNode.peers.get (peerIDOf .padded [5])).isSome = true := by
    decide +kernel
  have written : (divertedNode.handleRead .padded [0x41] (tentPacket packetTypeHeartbeat [3]) 0).2 =
      [.writeToUDP [0x42] (tentPacket packetTypeHeartbeat [3])] := by decide +kernel
  refine ⟨mapped, connected, written, ?_⟩
  intro undiverted
  rcases Option.isSome_iff_exists.mp connected with ⟨p, found⟩
  have handled := undiverted [0x41] _ p mapped found packetTypeHeartbeat [3] 0 (by decide)
  rw [handled] at written
  cases written

end Tenet
