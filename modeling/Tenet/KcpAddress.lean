import Tenet.KcpRegistry

/-! Where business data goes when a peer off TCP changes its address: `UpgradeTransport` rewrites the
record, and the KCP registry keeps the session that was dialed to the old address. -/

namespace Tenet

open Lib

/-- The KCP session of a peer off TCP goes to its current address, and so does what it is sent. -/
structure AddressFollowed (n : Node) : Prop where
  sessions : ∀ id p session, n.peers.get id = some p → p.transport ≠ .tcp →
    n.kcpSession id = some session → session.peerAddr = p.addr.text
  sends : ∀ id p dial after, n.peers.get id = some p → p.transport ≠ .tcp →
    n.sendPath p dial = (after, .ok (.kcp id)) →
      ∃ session, after.kcpSession id = some session ∧ session.peerAddr = p.addr.text

/-- The handshake with that session puts a record off TCP to the address it came from: there is a
peer off TCP, or a place for a new one. -/
def Node.rehomes (env : Env) (n : Node) (transport : Transport) (established : Session) : Bool :=
  decide (transport ≠ .tcp) &&
    match n.peers.get (peerIDOf env established.remotePublicKey) with
    | some existing => decide (existing.transport ≠ .tcp)
    | none => !n.isFull

/-- A handshake off TCP with an identity that has a KCP session comes from the address of that
session. (A bare dial, which the node never makes, goes to the address of the record.) -/
def ComesFromSession (env : Env) (n : Node) : KcpEvent → Prop
  | .perform (.handshake _ remoteAddr transport payload ephemeral now) =>
      ∀ established kcp, n.completes remoteAddr transport payload ephemeral now = some established →
        n.rehomes env transport established = true →
        n.kcpSession (peerIDOf env established.remotePublicKey) = some kcp →
          kcp.peerAddr = remoteAddr.text
  | .perform (.upgradePeer peerID remoteAddr dial) =>
      ∀ p, n.peers.get peerID = some p → p.transport ≠ .tcp → n.kcpTransport.isSome = true →
        dial.isSome = true → remoteAddr = p.addr.text
  | _ => True

section Followed

variable (env : Env) (aead : Aead) (n : Node)

theorem addressFollowed_iff :
    AddressFollowed n ↔ ∀ id p session, n.peers.get id = some p → p.transport ≠ .tcp →
      n.kcpSession id = some session → session.peerAddr = p.addr.text := by
  constructor
  · exact fun followed => followed.sessions
  intro sessions
  refine ⟨sessions, ?_⟩
  intro id p dial after stored offTCP path
  obtain rfl := n.peers.get_id id p stored
  unfold Node.sendPath at path
  split at path
  · cases path
  · split at path
    · next has =>
        cases path
        rw [hasSession_iff] at has
        obtain ⟨session, found⟩ := Option.isSome_iff_exists.mp has
        exact ⟨session, found, sessions p.id p session stored offTCP found⟩
    · split at path
      · split at path
        · cases path
        · split at path
          · cases path
          · split at path
            · next dialed =>
                cases path
                obtain ⟨conv, stores⟩ := upgradePeer_dialed n p.id p.addr.text dial dialed
                exact ⟨_, stores, rfl⟩
            · cases path
      · cases path

theorem addressFollowed_change {after : Node} (change : RegistryChange n after)
    (inPlace : InPlace n.peers after.peers) (followed : AddressFollowed n) :
    AddressFollowed after := by
  rw [addressFollowed_iff]
  intro id q session stored offTCP found
  obtain ⟨p, before, ⟨_, _, _, _, _, rfl⟩, _⟩ := inPlace id q stored
  rcases change.kcpSession n id session found with earlier | ⟨_, _, record, present, dialed⟩
  · exact followed.sessions id p session before offTCP earlier
  · rw [before] at present
    cases present
    exact dialed

theorem upgradeTransport_place (p : Peer) (addr : NetAddr) (conn : Option ConnId)
    (transport : Transport) (session : Session) (now lastSeen : Int) :
    let upgraded := (p.upgradeTransport addr conn transport session now).1.updateLastSeen lastSeen
    if p.transport = .tcp ∧ transport ≠ .tcp then
      upgraded.transport = p.transport ∧ upgraded.addr = p.addr
    else upgraded.transport = transport ∧ upgraded.addr = addr := by
  dsimp only
  unfold Peer.upgradeTransport
  split <;> exact ⟨rfl, rfl⟩

/-- Where the records are after a handshake: the one that it rehomes is at the address it came from,
every other one stays where it was or is on TCP. -/
structure Placed (env : Env) (n : Node) (remoteAddr : NetAddr) (transport : Transport)
    (established : Session) (after : PeerStore) : Prop where
  records : ∀ id q, after.get id = some q →
    (id = peerIDOf env established.remotePublicKey ∧ n.rehomes env transport established = true ∧
        q.addr = remoteAddr) ∨
      q.transport = .tcp ∨
      ∃ p, n.peers.get id = some p ∧ q.transport = p.transport ∧ q.addr = p.addr
  rehomed : n.rehomes env transport established = true →
    ∃ q, after.get (peerIDOf env established.remotePublicKey) = some q ∧ q.transport ≠ .tcp ∧
      q.addr = remoteAddr

section

variable (conn : Option ConnId) (remoteAddr : NetAddr) (transport : Transport)
  (established : Session) (now : Int)

theorem placed_same (stays : n.rehomes env transport established = false) :
    Placed env n remoteAddr transport established n.peers where
  records id q stored := Or.inr (Or.inr ⟨q, stored, rfl, rfl⟩)
  rehomed moves := by
    rw [stays] at moves
    cases moves

theorem placed_here (q : Peer) (named : q.id = peerIDOf env established.remotePublicKey)
    (moves : transport ≠ .tcp → n.rehomes env transport established = true)
    (transported : q.transport = transport) (here : q.addr = remoteAddr) :
    Placed env n remoteAddr transport established (n.peers.add q) := by
  constructor
  · intro id r stored
    rw [PeerStore.get_add] at stored
    split at stored
    · next same =>
        cases stored
        by_cases onTCP : transport = .tcp
        · exact Or.inr (Or.inl (transported.trans onTCP))
        · exact Or.inl ⟨same.trans named, moves onTCP, here⟩
    · exact Or.inr (Or.inr ⟨r, stored, rfl, rfl⟩)
  · intro rehomes
    refine ⟨q, ?_, ?_, here⟩
    · rw [PeerStore.get_add, if_pos named.symm]
    · intro onTCP
      rw [transported] at onTCP
      simp [Node.rehomes, onTCP] at rehomes

theorem placed_kept (p q : Peer) (known : n.peers.get (peerIDOf env established.remotePublicKey) = some p)
    (named : q.id = p.id) (stays : n.rehomes env transport established = false)
    (sameTransport : q.transport = p.transport) (sameAddr : q.addr = p.addr) :
    Placed env n remoteAddr transport established (n.peers.add q) := by
  have stored := n.peers.get_id _ p known
  constructor
  · intro id r found
    rw [PeerStore.get_add] at found
    split at found
    · next same =>
        cases found
        refine Or.inr (Or.inr ⟨p, ?_, sameTransport, sameAddr⟩)
        rw [same, named, stored, known]
    · exact Or.inr (Or.inr ⟨r, found, rfl, rfl⟩)
  · intro moves
    rw [stays] at moves
    cases moves

theorem sessionEstablished_placed :
    Placed env n remoteAddr transport established
      (n.sessionEstablished env conn remoteAddr transport established now).1.peers := by
  cases known : n.peers.get (peerIDOf env established.remotePublicKey) with
  | none =>
      simp only [Node.sessionEstablished, known, Node.handleNewPeer]
      split
      · next full =>
          apply placed_same
          simp [Node.rehomes, known, full]
      · next room =>
          rw [registerRelayCandidate_peers]
          apply placed_here env n remoteAddr transport established
          · rfl
          · intro offTCP
            simp [Node.rehomes, known, offTCP, room]
          · rfl
          · rfl
  | some existing =>
      obtain ⟨linkMode, relayTarget, lastSeen, peers⟩ :=
        sessionEstablished_known env n conn remoteAddr transport established now existing known
      have place := upgradeTransport_place { existing with linkMode, relayTarget } remoteAddr conn
        transport established now lastSeen
      have named := ({ existing with linkMode, relayTarget } : Peer).upgradeTransport_id remoteAddr
        conn transport established now
      have stored := n.peers.get_id _ existing known
      rw [peers]
      dsimp only at place
      split at place
      · next kept =>
          apply placed_kept env n remoteAddr transport established existing _ known
          · exact named
          · simp [Node.rehomes, known, kept.1]
          · exact place.1
          · exact place.2
      · next moved =>
          apply placed_here env n remoteAddr transport established
          · exact named.trans stored
          · intro offTCP
            have existingOff : existing.transport ≠ .tcp := fun onTCP => moved ⟨onTCP, offTCP⟩
            simp [Node.rehomes, known, offTCP, existingOff]
          · exact place.1
          · exact place.2

end

theorem addressFollowed_handshake (conn : Option ConnId) (remoteAddr : NetAddr)
    (transport : Transport) (payload : Message) (ephemeral : Key) (now : Int)
    (followed : AddressFollowed n) :
    AddressFollowed (n.processHandshake env conn remoteAddr transport payload ephemeral now).1 ↔
      ComesFromSession env n
        (.perform (.handshake conn remoteAddr transport payload ephemeral now)) := by
  obtain ⟨_, kcpTransport⟩ :=
    processHandshake_registry env n conn remoteAddr transport payload ephemeral now
  have sessions := kcpSession_congr n kcpTransport
  rw [addressFollowed_iff]
  simp only [sessions, ComesFromSession, Node.completes]
  rcases result : (n.pendingHandshake (transport, remoteAddr.text) ephemeral now).processMessage
    payload with _ | ⟨hs, response, _ | established⟩
  · rw [processHandshake_failed env n conn remoteAddr transport payload ephemeral now result]
    exact iff_of_true followed.sessions (by simp)
  · rw [processHandshake_waiting env n conn remoteAddr transport payload ephemeral now hs response
      result]
    exact iff_of_true followed.sessions (by simp)
  · rw [processHandshake_finished env n conn remoteAddr transport payload ephemeral now hs response
      established result]
    have placed := sessionEstablished_placed env
      { n with pendingHandshakes := n.pendingHandshakes.set (transport, remoteAddr.text) hs } conn
      remoteAddr transport established now
    constructor
    · intro after session kcp completes rehomes found
      cases completes
      obtain ⟨q, stored, offTCP, here⟩ := placed.rehomed rehomes
      rw [← here]
      exact after _ q kcp stored offTCP found
    · intro comes id q kcp stored offTCP found
      rcases placed.records id q stored with ⟨rfl, rehomes, here⟩ | onTCP | ⟨p, before, same, addr⟩
      · rw [here]
        exact comes established kcp rfl rehomes found
      · exact absurd onTCP offTCP
      · rw [addr]
        rw [same] at offTCP
        exact followed.sessions id p kcp before offTCP found

theorem addressFollowed_upgradePeer (peerID remoteAddr : Bytes) (dial : Option UInt32)
    (followed : AddressFollowed n) :
    AddressFollowed (n.upgradePeer peerID remoteAddr dial).1 ↔
      ComesFromSession env n (.perform (.upgradePeer peerID remoteAddr dial)) := by
  rw [addressFollowed_iff]
  simp only [Node.upgradePeer_peers, ComesFromSession]
  constructor
  · intro after p stored offTCP started dials
    have dialed : (n.upgradePeer peerID remoteAddr dial).2 = true := by
      obtain ⟨t, transport⟩ := Option.isSome_iff_exists.mp started
      obtain ⟨conv, rfl⟩ := Option.isSome_iff_exists.mp dials
      simp only [Node.upgradePeer, transport]
    obtain ⟨conv, stores⟩ := upgradePeer_dialed n peerID remoteAddr dial dialed
    exact after peerID p _ stored offTCP stores
  · intro here id p session stored offTCP found
    rcases upgradePeer_kcpSession n peerID remoteAddr dial id with
      same | ⟨rfl, started, conv, dials, dialed⟩
    · exact followed.sessions id p session stored offTCP (same ▸ found)
    · have fresh := dialed.symm.trans found
      cases fresh
      exact here p stored offTCP started (by rw [dials]; rfl)

theorem addressFollowed_step (event : KcpEvent) (followed : AddressFollowed n) :
    AddressFollowed (n.kcpStep env aead event) ↔ ComesFromSession env n event := by
  have performed (activity : Activity) (notUpgrade : activity.isUpgrade = false)
      (notHandshake : activity.isHandshake = false) :
      AddressFollowed (n.perform env aead activity).1 :=
    addressFollowed_change n (perform_registry env aead n activity notUpgrade)
      (perform_inPlace env aead n activity notHandshake) followed
  cases event with
  | perform activity =>
      cases activity with
      | handshake conn remoteAddr transport payload ephemeral now =>
          exact addressFollowed_handshake env n conn remoteAddr transport payload ephemeral now followed
      | upgradePeer peerID remoteAddr dial =>
          exact addressFollowed_upgradePeer env n peerID remoteAddr dial followed
      | _ => exact iff_of_true (performed _ rfl rfl) trivial
  | removeSession peerID =>
      refine iff_of_true ?_ trivial
      obtain ⟨mux, kcpTransport, same⟩ := n.removeSession_frame peerID
      have sessions := removeSession_kcpSession n peerID
      rw [addressFollowed_iff]
      intro id p session stored offTCP found
      rw [Node.kcpStep, sessions] at found
      rw [Node.kcpStep, same] at stored
      split at found
      · cases found
      · exact followed.sessions id p session stored offTCP found
  | handleSessionEnds handler =>
      refine iff_of_true ?_ trivial
      rw [addressFollowed_iff]
      intro id p session stored offTCP found
      rw [Node.kcpStep, handleSessionEnds_kcpSession] at found
      obtain ⟨before, earlier, made⟩ := Option.map_eq_some_iff.mp found
      have address := followed.sessions id p before stored offTCP earlier
      split at made
      · rw [← made]
        exact address
      · rw [← made]
        exact address

end Followed

/-- In a run from the start, data always follows the address of the record exactly if every handshake
off TCP with an identity that has a KCP session comes from the address of that session. -/
theorem addressFollowed_run (env : Env) (aead : Aead) (cfg : Config) (identity : Identity)
    (kcpStarted : Bool) (events : List KcpEvent) :
    Run.Throughout (Node.kcpStep env aead) AddressFollowed (startedNode env cfg identity kcpStarted)
        events ↔
      Run.Along (Node.kcpStep env aead) (ComesFromSession env)
        (startedNode env cfg identity kcpStarted) events := by
  apply Run.throughout_iff_along
  · rw [addressFollowed_iff]
    intro id p session stored
    rw [startedNode_peers] at stored
    cases stored
  · intro n event followed
    exact addressFollowed_step env aead n event followed

namespace MovedPeer

def start : Node :=
  startedNode .padded { defaultConfig with networkPassword := [1] } (newIdentity .padded [9]) true

def send : Activity :=
  .sendAppFrame (peerIDOf .padded [5]) appFrameTypeUserWithChannel [1] (some 7) fun _ => true

def events : List KcpEvent :=
  let answer (sent drawn : Key) : Message := .two (.one sent) (prologuePrefix ++ [1]) drawn [9]
  [.perform (.handshake none ⟨.udp, [20]⟩ .udp (.one [1]) [3] 0),
    .perform (.handshake none ⟨.udp, [20]⟩ .udp (.three (answer [1] [3]) [5]) [3] 0),
    .perform send,
    .perform (.handshake none ⟨.udp, [30]⟩ .udp (.one [2]) [4] 0),
    .perform (.handshake none ⟨.udp, [30]⟩ .udp (.three (answer [2] [4]) [5]) [4] 0)]

def node : Node := Run.run (Node.kcpStep .padded IdealAead.tagged.toAead) start events

/-- The record is at the second address; the next send writes to the session at the first. -/
theorem moved_peer_sent_elsewhere :
    (node.peers.get (peerIDOf .padded [5])).map (fun p => (p.transport, p.addr.text)) =
        some (.udp, [30]) ∧
      node.kcpSession (peerIDOf .padded [5]) = some ⟨0, 7, [20], false⟩ ∧
      ((node.perform .padded IdealAead.tagged.toAead send).2.map fun
        | .write stream _ => some stream
        | _ => none) = [some (.kcp 0)] ∧
      ¬ Run.Throughout (Node.kcpStep .padded IdealAead.tagged.toAead) AddressFollowed start
        events := by
  have moved : (node.peers.get (peerIDOf .padded [5])).map (fun p => (p.transport, p.addr.text)) =
      some (.udp, [30]) := by decide +kernel
  have found : node.kcpSession (peerIDOf .padded [5]) = some ⟨0, 7, [20], false⟩ := by
    decide +kernel
  refine ⟨moved, found, by decide +kernel, ?_⟩
  intro followed
  obtain ⟨p, stored, place⟩ := Option.map_eq_some_iff.mp moved
  obtain ⟨onUDP, addr⟩ := Prod.mk.inj place
  have offTCP : p.transport ≠ .tcp := by
    rw [onUDP]
    decide
  have address := (Run.throughout_run start events followed).sessions _ p _ stored offTCP found
  rw [addr] at address
  cases address

end MovedPeer

end Tenet
