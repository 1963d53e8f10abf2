import Tenet.HandshakeStep
import Tenet.Lib.RefMap

/-! `processHandshake` as its readers run it side by side.

A call holds a lock only while it touches a table or an object, and others may run between two such
sections. `pendingHandshakes` and the peer store are maps of pointers: a call keeps the pointers it
has read. A call that nobody disturbs does what `Node.processHandshake` does. -/

namespace Tenet

open Lib

/-- Where a call stands, with what it has read so far. -/
inductive CallPhase where
  | lookup
  | process (state : Nat)
  /-- `ProcessMessage` failed on that state -/
  | failed (state : Nat)
  | dropState
  | reply (response : Option Message) (session : Option Session)
  | lookupPeer (session : Session)
  | clearPending (session : Session)
  | checkCapacity (session : Session) (linkMode : LinkMode) (relayTarget : Option NetAddr)
      (onConnected : Bool)
  | addPeer (p : Peer) (onConnected : Bool)
  | recordAddr (peerID : Bytes) (after : List Effect)
  | compare (session : Session) (record : Nat)
  | switchRecord (session : Session) (record : Nat)
  | switchTables (session : Session)
  | linkRecord (session : Session) (record : Nat)
  | refreshRecord (session : Session) (record : Nat)
  | touchRecord (session : Session) (record : Nat)
  | candidate (peerID : Bytes) (after : List Effect)
  | addRelay (peerID : Bytes) (after : List Effect)

/-- What the calls share: the two maps of pointers, and a node for the other tables. -/
structure Shared where
  node : Node
  pending : RefMap (Transport × Bytes) HandshakeState
  peers : RefMap Bytes Peer

def HandshakeCall.stateKey (call : HandshakeCall) : Transport × Bytes :=
  (call.transport, call.remoteAddr.text)

def Session.peerID (env : Env) (session : Session) : Bytes := peerIDOf env session.remotePublicKey

namespace Shared

variable (env : Env) (s : Shared) (call : HandshakeCall)

def isFull : Bool :=
  decide (0 < s.node.config.maxPeers ∧ s.node.config.maxPeers ≤ s.peers.count)

def upgradeRecord (session : Session) (record : Nat) : Shared × List Effect :=
  ({ s with
      peers := s.peers.modify record fun p =>
        (p.upgradeTransport call.remoteAddr call.conn call.transport session call.now).1 },
    (s.peers.deref record).toList.flatMap fun p =>
      (p.upgradeTransport call.remoteAddr call.conn call.transport session call.now).2)

/-- One section of a call: the tables after it, where the call stands then, unless it has returned,
and what it did besides. -/
def step : CallPhase → Shared × Option CallPhase × List Effect
  | .lookup =>
      match s.pending.find call.stateKey with
      | some state => (s, some (.process state), [])
      | none =>
          ({ s with
              pending := s.pending.put call.stateKey
                (newResponderHandshake s.node.identity.noisePublicKey s.node.config.networkPassword
                  call.ephemeral call.now) },
            some (.process s.pending.objects.length), [])
  | .process state =>
      match (s.pending.deref state).bind (·.processMessage call.payload) with
      | none => (s, some (.failed state), [])
      | some (hs, response, session) =>
          ({ s with pending := s.pending.modify state fun _ => hs },
            some (.reply response session), [])
  | .failed _ =>
      (s, if (s.node.addrToPeer.get call.remoteAddr.text).isSome then none else some .dropState, [])
  | .dropState => ({ s with pending := s.pending.delete call.stateKey }, none, [])
  | .reply response session =>
      (s, session.map .lookupPeer, response.toList.map fun message =>
        .sendRaw call.conn call.remoteAddr call.transport (.handshake message))
  | .lookupPeer session =>
      match s.peers.find (session.peerID env) with
      | some record => (s, some (.compare session record), [])
      | none => (s, some (.clearPending session), [])
  | .clearPending session =>
      let target := s.node.relayPendingTarget.get call.remoteAddr.text
      let linkMode : LinkMode :=
        if target.isSome ∨ call.remoteAddr.text ∈ s.node.relayInbound then .relay else .p2p
      ({ s with
          pending := s.pending.delete call.stateKey
          node := { s.node with
            relayPendingTarget := s.node.relayPendingTarget.delete call.remoteAddr.text
            relayInbound := s.node.relayInbound.erase call.remoteAddr.text } },
        some (.checkCapacity session linkMode (target.map (⟨.udp, ·⟩)) s.node.onPeerConnected), [])
  | .checkCapacity session linkMode relayTarget onConnected =>
      if s.isFull then (s, none, [])
      else
        (s, some (.addPeer (newPeer (session.peerID env) call.remoteAddr call.conn call.transport
          linkMode relayTarget session call.now) onConnected), [])
  | .addPeer p onConnected =>
      ({ s with peers := s.peers.put p.id p },
        some (.recordAddr p.id ([.sendDiscoveryRequest p.id, .syncChannelsWithPeer p.id] ++
          if onConnected then [.onPeerConnected p.id] else [])), [])
  | .recordAddr peerID after =>
      ({ s with
          node := { s.node with addrToPeer := s.node.addrToPeer.set call.remoteAddr.text peerID } },
        some (.candidate peerID after), [])
  | .compare session record =>
      let switches : Bool := decide (call.transport = .tcp) &&
        (s.peers.deref record).any fun p => decide (p.transport ≠ .tcp)
      (s, some (if switches then .switchRecord session record else .linkRecord session record), [])
  | .switchRecord session record =>
      ((s.upgradeRecord call session record).1, some (.switchTables session),
        (s.upgradeRecord call session record).2)
  | .switchTables session =>
      ({ s with
          pending := s.pending.delete call.stateKey
          node := { s.node with
            addrToPeer := s.node.addrToPeer.set call.remoteAddr.text (session.peerID env) } },
        some (.candidate (session.peerID env)
          [.syncChannelsWithPeer (session.peerID env)]), [])
  | .linkRecord session record =>
      ({ s with
          pending := s.pending.delete call.stateKey
          peers := s.peers.modify record fun p => s.node.relayLinked p call.remoteAddr.text
          node := { s.node with
            relayPendingTarget := s.node.relayPendingTarget.delete call.remoteAddr.text
            relayInbound := match s.node.relayPendingTarget.get call.remoteAddr.text with
              | some _ => s.node.relayInbound
              | none => s.node.relayInbound.erase call.remoteAddr.text } },
        some (.refreshRecord session record), [])
  | .refreshRecord session record =>
      ((s.upgradeRecord call session record).1, some (.touchRecord session record),
        (s.upgradeRecord call session record).2)
  | .touchRecord session record =>
      ({ s with peers := s.peers.modify record (·.updateLastSeen call.now) },
        some (.candidate (session.peerID env) []), [])
  | .candidate peerID after =>
      if s.node.relayManager.isSome ∧ call.remoteAddr.kind = .udp ∧
          call.remoteAddr.text ∉ s.node.relayAddrSet then
        ({ s with
            node := { s.node with
              relayAddrSet := insert call.remoteAddr.text s.node.relayAddrSet } },
          some (.addRelay peerID after), [])
      else (s, none, after)
  | .addRelay peerID after =>
      ({ s with
          node := { s.node with
            relayManager := s.node.relayManager.map (·.set peerID call.remoteAddr.text) } },
        none, after)

/-- The rest of a call, in at most so many sections, with nobody in between. -/
def finish : Nat → Shared → Option CallPhase → Shared × List Effect
  | 0, s, _ | _ + 1, s, none => (s, [])
  | sections + 1, s, some phase =>
      let (after, next, effects) := s.step env call phase
      let (last, later) := finish sections after next
      (last, effects ++ later)

end Shared

/-- The goroutines that have called `processHandshake`, each with its call and where it stands. -/
structure Hub where
  shared : Shared
  calls : List (HandshakeCall × Option CallPhase)

inductive HubEvent where
  | call (call : HandshakeCall)
  | advance (index : Nat)
  /-- `Peers.Remove` -/
  | removePeer (peerID : Bytes)

namespace Hub

def step (env : Env) (h : Hub) : HubEvent → Hub
  | .call call => { h with calls := h.calls ++ [(call, some .lookup)] }
  | .advance index =>
      match h.calls[index]? with
      | some (call, some phase) =>
          ⟨(h.shared.step env call phase).1,
            h.calls.set index (call, (h.shared.step env call phase).2.1)⟩
      | _ => h
  | .removePeer peerID =>
      { h with shared := { h.shared with peers := h.shared.peers.delete peerID } }

def phase (h : Hub) (index : Nat) : Option CallPhase := h.calls[index]?.bind Prod.snd

theorem step_advance (env : Env) (h : Hub) (index : Nat) (call : HandshakeCall) (phase : CallPhase)
    (stands : h.calls[index]? = some (call, some phase)) :
    h.step env (.advance index) =
      ⟨(h.shared.step env call phase).1,
        h.calls.set index (call, (h.shared.step env call phase).2.1)⟩ := by
  simp only [step, stands]

theorem advance_cases (env : Env) (h : Hub) (index : Nat) :
    (h.step env (.advance index) = h ∧ h.phase index = none) ∨
      ∃ call phase, h.calls[index]? = some (call, some phase) := by
  unfold phase
  rcases stands : h.calls[index]? with _ | ⟨call, _ | phase⟩
  · simp only [step, stands]
    exact Or.inl ⟨trivial, rfl⟩
  · simp only [step, stands]
    exact Or.inl ⟨trivial, rfl⟩
  · exact Or.inr ⟨call, phase, rfl⟩

theorem phase_advance (env : Env) (h : Hub) (index : Nat) (call : HandshakeCall) (phase : CallPhase)
    (stands : h.calls[index]? = some (call, some phase)) (other : Nat) :
    (h.step env (.advance index)).phase other =
      if other = index then (h.shared.step env call phase).2.1 else h.phase other := by
  have bound : index < h.calls.length := (List.getElem?_eq_some_iff.mp stands).1
  rw [step_advance env h index call phase stands, Hub.phase, List.getElem?_set]
  by_cases same : other = index
  · rw [if_pos same, if_pos same.symm, if_pos (same ▸ bound), Option.bind_some]
  · rw [if_neg same, if_neg (Ne.symm same)]
    rfl

theorem phase_call (env : Env) (h : Hub) (call : HandshakeCall) (index : Nat) :
    (h.step env (.call call)).phase index =
      if index = h.calls.length then some .lookup else h.phase index := by
  simp only [step, phase, List.getElem?_append]
  split
  · next before => rw [if_neg (Nat.ne_of_lt before)]
  · next after =>
      rcases Nat.lt_trichotomy index h.calls.length with before | same | beyond
      · exact absurd before after
      · simp [same]
      · rw [if_neg (Nat.ne_of_gt beyond), List.getElem?_eq_none (by simp; omega),
          List.getElem?_eq_none (Nat.le_of_lt beyond)]

end Hub

/-- The tables that the node has by value are those the calls share. -/
structure Represents (s : Shared) (n : Node) : Prop where
  others : ∃ pendingHandshakes peers, s.node = { n with pendingHandshakes, peers }
  pending : ∀ key, s.pending.value key = n.pendingHandshakes.get key
  peers : ∀ id, s.peers.value id = n.peers.get id
  pendingSound : s.pending.Sound
  peersSound : s.peers.Sound

namespace Represents

variable {s : Shared} {n : Node}

theorem setPending (rep : Represents s n) {key : Transport × Bytes} {state : Nat}
    (found : s.pending.find key = some state) (hs : HandshakeState) :
    Represents { s with pending := s.pending.modify state fun _ => hs }
      { n with pendingHandshakes := n.pendingHandshakes.set key hs } where
  others := rep.others
  pending other := by
    rw [RefMap.value_modify rep.pendingSound key other state _ found, GoMap.get_set, rep.pending]
    split
    · next same =>
        have bound := rep.pendingSound.bound key state found
        have there : s.pending.value other = some (s.pending.objects.get ⟨state, bound⟩) := by
          rw [same, RefMap.value, found]
          exact List.getElem?_eq_getElem bound
        rw [← rep.pending, there]
        rfl
    · rfl
  peers := rep.peers
  pendingSound := rep.pendingSound.modify state _
  peersSound := rep.peersSound

theorem putPending (rep : Represents s n) (key : Transport × Bytes) (hs : HandshakeState) :
    Represents { s with pending := s.pending.put key hs }
      { n with pendingHandshakes := n.pendingHandshakes.set key hs } where
  others := rep.others
  pending other := by
    rw [RefMap.value_put rep.pendingSound, GoMap.get_set, rep.pending]
  peers := rep.peers
  pendingSound := rep.pendingSound.put key hs
  peersSound := rep.peersSound

theorem deletePending (rep : Represents s n) (key : Transport × Bytes) :
    Represents { s with pending := s.pending.delete key }
      { n with pendingHandshakes := n.pendingHandshakes.delete key } where
  others := rep.others
  pending other := by rw [RefMap.value_delete, GoMap.get_delete, rep.pending]
  peers := rep.peers
  pendingSound := rep.pendingSound.delete key
  peersSound := rep.peersSound

theorem putPeer (rep : Represents s n) (p : Peer) :
    Represents { s with peers := s.peers.put p.id p } { n with peers := n.peers.add p } where
  others := by
    obtain ⟨pendingHandshakes, peers, same⟩ := rep.others
    exact ⟨pendingHandshakes, peers, same⟩
  pending := rep.pending
  peers id := by rw [RefMap.value_put rep.peersSound, PeerStore.get_add, rep.peers]
  pendingSound := rep.pendingSound
  peersSound := rep.peersSound.put p.id p

theorem modifyPeer (rep : Represents s n) {record : Nat} {p : Peer} (change : Peer → Peer)
    (found : s.peers.find p.id = some record) (stored : n.peers.get p.id = some p)
    (named : (change p).id = p.id) :
    Represents { s with peers := s.peers.modify record change }
      { n with peers := n.peers.add (change p) } where
  others := by
    obtain ⟨pendingHandshakes, peers, same⟩ := rep.others
    exact ⟨pendingHandshakes, peers, same⟩
  pending := rep.pending
  peers id := by
    rw [RefMap.value_modify rep.peersSound p.id id record change found, PeerStore.get_add, named,
      rep.peers]
    split
    · next same => rw [same, stored, Option.map_some]
    · rfl
  pendingSound := rep.pendingSound
  peersSound := rep.peersSound.modify record change

theorem deref_peer (rep : Represents s n) {id : Bytes} {record : Nat} {p : Peer}
    (found : s.peers.find id = some record) (stored : n.peers.get id = some p) :
    s.peers.deref record = some p := by
  have value := rep.peers id
  rwa [RefMap.value, found, Option.bind_some, stored] at value

theorem find_peer (rep : Represents s n) (id : Bytes) :
    (s.peers.find id).isSome = (n.peers.get id).isSome := by
  rw [← rep.peers, RefMap.value]
  cases found : s.peers.find id with
  | none => rfl
  | some record =>
      rw [Option.bind_some]
      exact (Option.isSome_iff_exists.mpr
        ⟨_, List.getElem?_eq_getElem (rep.peersSound.bound id record found)⟩).symm

theorem congrPeers (rep : Represents s n) (peers : PeerStore)
    (same : ∀ id, peers.get id = n.peers.get id) : Represents s { n with peers } where
  others := by
    obtain ⟨pendingHandshakes, others, equal⟩ := rep.others
    exact ⟨pendingHandshakes, others, equal⟩
  pending := rep.pending
  peers id := (rep.peers id).trans (same id).symm
  pendingSound := rep.pendingSound
  peersSound := rep.peersSound

theorem congrPending (rep : Represents s n)
    (pendingHandshakes : GoMap (Transport × Bytes) HandshakeState)
    (same : ∀ key, pendingHandshakes.get key = n.pendingHandshakes.get key) :
    Represents s { n with pendingHandshakes } where
  others := by
    obtain ⟨others, peers, equal⟩ := rep.others
    exact ⟨others, peers, equal⟩
  pending key := (rep.pending key).trans (same key).symm
  peers := rep.peers
  pendingSound := rep.pendingSound
  peersSound := rep.peersSound

theorem changeNode (rep : Represents s n) (change : Node → Node)
    (apart : ∀ (n : Node) pendingHandshakes peers,
      change { n with pendingHandshakes, peers } = { change n with pendingHandshakes, peers })
    (pending : (change n).pendingHandshakes = n.pendingHandshakes)
    (peers : (change n).peers = n.peers) :
    Represents { s with node := change s.node } (change n) where
  others := by
    obtain ⟨pendingHandshakes, peers, same⟩ := rep.others
    exact ⟨pendingHandshakes, peers, by rw [same, apart]⟩
  pending := by
    rw [pending]
    exact rep.pending
  peers := by
    rw [peers]
    exact rep.peers
  pendingSound := rep.pendingSound
  peersSound := rep.peersSound

theorem isFull (rep : Represents s n) : s.isFull = n.isFull := by
  obtain ⟨pendingHandshakes, peers, same⟩ := rep.others
  have counts : s.peers.count = n.peers.count := GoMap.len_congr _ _ rep.find_peer
  rw [Shared.isFull, Node.isFull, counts, same]

end Represents

theorem registerRelayCandidate_apart (n : Node) (peerID : Bytes) (remoteAddr : NetAddr)
    (pendingHandshakes : GoMap (Transport × Bytes) HandshakeState) (peers : PeerStore) :
    ({ n with pendingHandshakes, peers } : Node).registerRelayCandidate peerID remoteAddr =
      { n.registerRelayCandidate peerID remoteAddr with pendingHandshakes, peers } := by
  cases relays : n.relayManager with
  | none => simp only [Node.registerRelayCandidate, relays]
  | some table =>
      by_cases fresh : remoteAddr.kind = .udp ∧ remoteAddr.text ∉ n.relayAddrSet
      · simp only [Node.registerRelayCandidate, relays, if_pos fresh]
      · simp only [Node.registerRelayCandidate, relays, if_neg fresh]

section Alone

variable (env : Env) (call : HandshakeCall) {s : Shared} {n : Node}

theorem finish_returned (sections : Nat) (s : Shared) :
    Shared.finish env call sections s none = (s, []) := by
  cases sections <;> rfl

theorem finish_candidate (sections : Nat) (s : Shared) (peerID : Bytes) (after : List Effect) :
    Shared.finish env call (sections + 2) s (some (.candidate peerID after)) =
      ({ s with node := s.node.registerRelayCandidate peerID call.remoteAddr }, after) := by
  cases relays : s.node.relayManager with
  | none =>
      simp [Shared.finish, Shared.step, Node.registerRelayCandidate, relays, finish_returned]
  | some table =>
      by_cases fresh : call.remoteAddr.kind = .udp ∧ call.remoteAddr.text ∉ s.node.relayAddrSet
      · simp [Shared.finish, Shared.step, Node.registerRelayCandidate, relays, fresh, finish_returned]
      · simp [Shared.finish, Shared.step, Node.registerRelayCandidate, relays, fresh, finish_returned]

def Agrees (result : Shared × List Effect) (expected : Node × List Effect) : Prop :=
  Represents result.1 expected.1 ∧ result.2 = expected.2

theorem agrees_candidate (sections : Nat) (rep : Represents s n) (peerID : Bytes)
    (after : List Effect) :
    Agrees (Shared.finish env call (sections + 2) s (some (.candidate peerID after)))
      (n.registerRelayCandidate peerID call.remoteAddr, after) := by
  rw [finish_candidate]
  refine ⟨rep.changeNode (·.registerRelayCandidate peerID call.remoteAddr) ?_ ?_ ?_, rfl⟩
  · intro n pendingHandshakes peers
    exact registerRelayCandidate_apart n peerID call.remoteAddr pendingHandshakes peers
  · obtain ⟨relayAddrSet, relayManager, same⟩ :=
      registerRelayCandidate_frame n peerID call.remoteAddr
    rw [same]
  · exact registerRelayCandidate_peers n peerID call.remoteAddr

theorem agrees_addPeer (rep : Represents s n) (p : Peer) (onConnected : Bool) :
    Agrees (Shared.finish env call 4 s (some (.addPeer p onConnected)))
      (({ n with
          peers := n.peers.add p
          addrToPeer := n.addrToPeer.set call.remoteAddr.text p.id } :
            Node).registerRelayCandidate p.id call.remoteAddr,
        [.sendDiscoveryRequest p.id, .syncChannelsWithPeer p.id] ++
          if onConnected then [.onPeerConnected p.id] else []) := by
  have recorded := (rep.putPeer p).changeNode (fun n =>
    { n with addrToPeer := n.addrToPeer.set call.remoteAddr.text p.id }) (fun _ _ _ => rfl) rfl rfl
  exact agrees_candidate env call 0 recorded p.id _

theorem agrees_checkCapacity (rep : Represents s n) (session : Session) (linkMode : LinkMode)
    (relayTarget : Option NetAddr) (onConnected : Bool) :
    let p := newPeer (session.peerID env) call.remoteAddr call.conn call.transport linkMode relayTarget
      session call.now
    Agrees
      (Shared.finish env call 5 s (some (.checkCapacity session linkMode relayTarget onConnected)))
      (if n.isFull then (n, [])
        else
          (({ n with
              peers := n.peers.add p
              addrToPeer := n.addrToPeer.set call.remoteAddr.text p.id } :
                Node).registerRelayCandidate p.id call.remoteAddr,
            [.sendDiscoveryRequest p.id, .syncChannelsWithPeer p.id] ++
              if onConnected then [.onPeerConnected p.id] else [])) := by
  intro p
  have capacity := rep.isFull
  cases full : n.isFull with
  | true =>
      rw [full] at capacity
      have refused : Shared.finish env call 5 s
          (some (.checkCapacity session linkMode relayTarget onConnected)) = (s, []) := by
        simp only [Shared.finish, Shared.step, capacity, if_true, List.append_nil]
      rw [refused, if_pos rfl]
      exact ⟨rep, rfl⟩
  | false =>
      rw [full] at capacity
      have admitted : Shared.finish env call 5 s
          (some (.checkCapacity session linkMode relayTarget onConnected)) =
            Shared.finish env call 4 s (some (.addPeer p onConnected)) := by
        rw [Shared.finish, Shared.step, capacity, if_neg Bool.false_ne_true]
        rfl
      rw [admitted, if_neg Bool.false_ne_true]
      exact agrees_addPeer env call rep p onConnected

theorem agrees_clearPending (rep : Represents s n) (session : Session) :
    Agrees (Shared.finish env call 6 s (some (.clearPending session)))
      (n.handleNewPeer (session.peerID env) call.conn call.remoteAddr call.transport session
        call.now) := by
  rcases s with ⟨node, pending, records⟩
  obtain ⟨pendingHandshakes, peers, rfl⟩ := rep.others
  have cleared := (rep.deletePending call.stateKey).changeNode (fun n =>
    { n with
      relayPendingTarget := n.relayPendingTarget.delete call.remoteAddr.text
      relayInbound := n.relayInbound.erase call.remoteAddr.text })
    (fun _ _ _ => rfl) rfl rfl
  exact agrees_checkCapacity env call cleared session _ _ _

theorem upgradeRecord_stored (rep : Represents s n) (session : Session) {p : Peer} {record : Nat}
    (found : s.peers.find p.id = some record) (stored : n.peers.get p.id = some p) :
    Represents (s.upgradeRecord call session record).1
        { n with
          peers := n.peers.add
            (p.upgradeTransport call.remoteAddr call.conn call.transport session call.now).1 } ∧
      (s.upgradeRecord call session record).2 =
        (p.upgradeTransport call.remoteAddr call.conn call.transport session call.now).2 := by
  refine ⟨rep.modifyPeer _ found stored
    (p.upgradeTransport_id call.remoteAddr call.conn call.transport session call.now), ?_⟩
  rw [Shared.upgradeRecord, rep.deref_peer found stored]
  exact List.flatMap_singleton ..

theorem agrees_switchRecord (rep : Represents s n) (session : Session) (existing : Peer)
    (record : Nat) (found : s.peers.find existing.id = some record)
    (stored : n.peers.get existing.id = some existing) (named : existing.id = session.peerID env) :
    Agrees (Shared.finish env call 5 s (some (.switchRecord session record)))
      (n.switchToTCP existing call.conn call.remoteAddr call.transport session call.now) := by
  obtain ⟨upgraded, closes⟩ := upgradeRecord_stored call rep session found stored
  have switched := (upgraded.deletePending call.stateKey).changeNode (fun n =>
    { n with addrToPeer := n.addrToPeer.set call.remoteAddr.text (session.peerID env) })
    (fun _ _ _ => rfl) rfl rfl
  obtain ⟨last, effects⟩ := agrees_candidate env call 1 switched (session.peerID env)
    [.syncChannelsWithPeer (session.peerID env)]
  simp only [Node.switchToTCP, named]
  exact ⟨last, congrArg₂ (· ++ ·) closes effects⟩

theorem agrees_linkRecord (rep : Represents s n) (session : Session) (existing : Peer)
    (record : Nat) (found : s.peers.find existing.id = some record)
    (stored : n.peers.get existing.id = some existing) (named : existing.id = session.peerID env) :
    Agrees (Shared.finish env call 5 s (some (.linkRecord session record)))
      (n.refreshPeer existing call.conn call.remoteAddr call.transport session call.now) := by
  rcases s with ⟨node, pending, records⟩
  obtain ⟨pendingHandshakes, peers, rfl⟩ := rep.others
  let linked := n.relayLinked existing call.remoteAddr.text
  let upgraded := (linked.upgradeTransport call.remoteAddr call.conn call.transport session call.now).1
  have linkedNamed : linked.id = existing.id := by
    obtain ⟨linkMode, relayTarget, same⟩ := relayLinked_eq n existing call.remoteAddr.text
    exact (congrArg Peer.id same).trans rfl
  have upgradedNamed : upgraded.id = linked.id :=
    linked.upgradeTransport_id call.remoteAddr call.conn call.transport session call.now
  have marked := ((rep.deletePending call.stateKey).modifyPeer
    (n.relayLinked · call.remoteAddr.text) found stored linkedNamed).changeNode (fun n =>
      { n with
        relayPendingTarget := n.relayPendingTarget.delete call.remoteAddr.text
        relayInbound := match n.relayPendingTarget.get call.remoteAddr.text with
          | some _ => n.relayInbound
          | none => n.relayInbound.erase call.remoteAddr.text })
    (fun _ _ _ => rfl) rfl rfl
  obtain ⟨refreshed, closes⟩ := upgradeRecord_stored call marked session (p := linked)
    (linkedNamed.symm ▸ found) (by rw [PeerStore.get_add, if_pos rfl])
  have touched := refreshed.modifyPeer (p := upgraded) (·.updateLastSeen call.now)
    (upgradedNamed.symm ▸ linkedNamed.symm ▸ found) (by rw [PeerStore.get_add, if_pos rfl]) rfl
  have whole := touched.congrPeers (n.peers.add (upgraded.updateLastSeen call.now)) fun id => by
    rw [PeerStore.get_add_add _ upgraded (upgraded.updateLastSeen call.now) rfl,
      PeerStore.get_add_add _ linked (upgraded.updateLastSeen call.now) upgradedNamed]
  obtain ⟨last, effects⟩ := agrees_candidate env call 0 whole (session.peerID env) []
  simp only [Node.refreshPeer, named]
  exact ⟨last, (congrArg₂ (· ++ ·) closes effects).trans (List.append_nil _)⟩

theorem agrees_lookupPeer (rep : Represents s n) (session : Session) :
    Agrees (Shared.finish env call 7 s (some (.lookupPeer session)))
      (n.sessionEstablished env call.conn call.remoteAddr call.transport session call.now) := by
  have known := rep.find_peer (session.peerID env)
  cases stored : n.peers.get (session.peerID env) with
  | none =>
      rw [stored, Option.isSome_none, Option.isSome_eq_false_iff, Option.isNone_iff_eq_none] at known
      have new : Shared.finish env call 7 s (some (.lookupPeer session)) =
          Shared.finish env call 6 s (some (.clearPending session)) := by
        simp only [Shared.finish, Shared.step, known, List.nil_append]
      rw [new]
      have lookup : n.sessionEstablished env call.conn call.remoteAddr call.transport session
          call.now = n.handleNewPeer (session.peerID env) call.conn call.remoteAddr call.transport
            session call.now := by
        simp only [Node.sessionEstablished]
        rw [show n.peers.get (peerIDOf env session.remotePublicKey) = none from stored]
        rfl
      rw [lookup]
      exact agrees_clearPending env call rep session
  | some existing =>
      rw [stored, Option.isSome_some, Option.isSome_iff_exists] at known
      obtain ⟨record, found⟩ := known
      have named : existing.id = session.peerID env := n.peers.get_id _ existing stored
      have ownPointer : s.peers.find existing.id = some record := named.symm ▸ found
      have ownRecord : n.peers.get existing.id = some existing := named.symm ▸ stored
      have lookup : Shared.finish env call 7 s (some (.lookupPeer session)) =
          Shared.finish env call 5 s (some (if call.transport = .tcp ∧ existing.transport ≠ .tcp then
            .switchRecord session record else .linkRecord session record)) := by
        simp [Shared.finish, Shared.step, found, rep.deref_peer found stored]
      have existed : n.sessionEstablished env call.conn call.remoteAddr call.transport session
          call.now = n.handleExistingPeer existing call.conn call.remoteAddr call.transport session
            call.now := by
        simp only [Node.sessionEstablished]
        rw [show n.peers.get (peerIDOf env session.remotePublicKey) = some existing from stored]
      rw [lookup, existed, Node.handleExistingPeer]
      split
      · exact agrees_switchRecord env call rep session existing record ownPointer ownRecord named
      · exact agrees_linkRecord env call rep session existing record ownPointer ownRecord named

theorem step_lookup (rep : Represents s n) :
    ∃ found state, s.step env call .lookup = (found, some (.process state), []) ∧
      found.pending.find call.stateKey = some state ∧
      found.pending.deref state = some (n.pendingHandshake call.stateKey call.ephemeral call.now) ∧
      Represents found { n with
        pendingHandshakes := n.pendingHandshakes.set call.stateKey
          (n.pendingHandshake call.stateKey call.ephemeral call.now) } := by
  have value := rep.pending call.stateKey
  cases entry : s.pending.find call.stateKey with
  | some state =>
      have bound := rep.pendingSound.bound call.stateKey state entry
      have there : s.pending.deref state = some (s.pending.objects.get ⟨state, bound⟩) :=
        List.getElem?_eq_getElem bound
      rw [RefMap.value, entry, Option.bind_some, there] at value
      have same : n.pendingHandshake call.stateKey call.ephemeral call.now =
          s.pending.objects.get ⟨state, bound⟩ := by
        rw [Node.pendingHandshake, ← value, Option.getD_some]
      refine ⟨s, state, ?_, entry, same ▸ there, rep.congrPending _ fun key => ?_⟩
      · simp only [Shared.step, entry]
      · rw [GoMap.get_set, same]
        split
        · next here => rw [here, value]
        · rfl
  | none =>
      obtain ⟨others, peers, node⟩ := rep.others
      rw [RefMap.value, entry, Option.bind_none] at value
      have same : n.pendingHandshake call.stateKey call.ephemeral call.now =
          newResponderHandshake s.node.identity.noisePublicKey s.node.config.networkPassword
            call.ephemeral call.now := by
        rw [Node.pendingHandshake, ← value, Option.getD_none, node]
      rw [same]
      refine ⟨_, s.pending.objects.length, ?_, ?_, ?_, rep.putPending call.stateKey _⟩
      · simp only [Shared.step, entry]
      · rw [RefMap.find_put, if_pos rfl]
      · exact List.getElem?_concat_length

/-- A call that runs from beginning to end with nobody in between does to the tables, and besides,
what the node's `processHandshake` does. -/
theorem finish_agrees (rep : Represents s n) :
    Agrees (Shared.finish env call 10 s (some .lookup))
      (n.processHandshake env call.conn call.remoteAddr call.transport call.payload call.ephemeral
        call.now) := by
  obtain ⟨found, state, lookup, entry, there, held⟩ := step_lookup env call rep
  obtain ⟨others, peers, node⟩ := held.others
  have first : Shared.finish env call 10 s (some .lookup) =
      Shared.finish env call 9 found (some (.process state)) := by
    rw [Shared.finish, lookup]
    rfl
  rw [first]
  rcases result : (n.pendingHandshake call.stateKey call.ephemeral call.now).processMessage
    call.payload with _ | ⟨hs, response, session⟩
  · have fails : (found.pending.deref state).bind (·.processMessage call.payload) = none := by
      rw [there, Option.bind_some, result]
    rw [processHandshake_failed env n call.conn call.remoteAddr call.transport call.payload
      call.ephemeral call.now result]
    by_cases connected : (n.addrToPeer.get call.remoteAddr.text).isSome = true
    · have kept : Shared.finish env call 9 found (some (.process state)) = (found, []) := by
        simp [Shared.finish, Shared.step, fails, node, connected]
      rw [kept, if_pos connected]
      exact ⟨held, rfl⟩
    · have dropped : Shared.finish env call 9 found (some (.process state)) =
          ({ found with pending := found.pending.delete call.stateKey }, []) := by
        simp [Shared.finish, Shared.step, fails, node, connected]
      rw [dropped, if_neg connected]
      exact ⟨(held.deletePending call.stateKey).congrPending _ fun key =>
        (GoMap.get_delete_set _ call.stateKey key _).symm, rfl⟩
  · have goes : (found.pending.deref state).bind (·.processMessage call.payload) =
        some (hs, response, session) := by
      rw [there, Option.bind_some, result]
    have moved := (held.setPending entry hs).congrPending (n.pendingHandshakes.set call.stateKey hs)
      fun key => (GoMap.get_set_set _ call.stateKey key _ hs).symm
    have replied : Shared.finish env call 9 found (some (.process state)) =
        Shared.finish env call 8 { found with pending := found.pending.modify state fun _ => hs }
          (some (.reply response session)) := by
      rw [Shared.finish, Shared.step, goes]
      rfl
    rw [replied]
    cases session with
    | none =>
        rw [processHandshake_waiting env n call.conn call.remoteAddr call.transport call.payload
          call.ephemeral call.now hs response result]
        exact ⟨moved, List.append_nil _⟩
    | some session =>
        obtain ⟨last, effects⟩ := agrees_lookupPeer env call moved session
        rw [processHandshake_finished env n call.conn call.remoteAddr call.transport call.payload
          call.ephemeral call.now hs response session result]
        exact ⟨last, congrArg _ effects⟩

end Alone

end Tenet
