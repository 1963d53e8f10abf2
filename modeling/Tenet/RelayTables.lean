import Tenet.Lib.ValueSet
import Tenet.Events

/-! The two tables of relay candidates: the relays that the RelayManager has by ID, and the set of
addresses that are not to be registered again. -/

namespace Tenet

open Lib

inductive RelayTableEvent where
  /-- `startRelay`, with what the resolver answers this time -/
  | startRelay (env : Env)
  | registerRelayCandidate (peerID : Bytes) (remoteAddr : NetAddr)
  | removePeer (peerID : Bytes) (shouldReconnect : Bool)

namespace Node

def relays (n : Node) : GoMap Bytes Bytes := n.relayManager.getD ∅

def relayStep (n : Node) : RelayTableEvent → Node
  | .startRelay env => n.startRelay env
  | .registerRelayCandidate peerID remoteAddr => n.registerRelayCandidate peerID remoteAddr
  | .removePeer peerID shouldReconnect => (n.removePeerWithReconnect peerID shouldReconnect).1

/-- An address is in `relayAddrSet` iff it is the address of some relay. -/
def RelayTablesAgree (n : Node) : Prop :=
  ∀ addr, addr ∈ n.relayAddrSet ↔ ∃ id, n.relays.get id = some addr

/-- A UDP peer is refused as a candidate only for an address that a stored relay has. -/
def RefusesStored (n : Node) : RelayTableEvent → Prop
  | .registerRelayCandidate _ remoteAddr =>
      n.relayManager.isSome → remoteAddr.kind = .udp → remoteAddr.text ∈ n.relayAddrSet →
        ∃ id, n.relays.get id = some remoteAddr.text
  | _ => True

/-- A start finds no address that it does not resolve again, and a registration that is not refused
replaces no relay, unless another one has the same address. -/
def KeepsRelayTables (n : Node) : RelayTableEvent → Prop
  | .startRelay env => ∀ addr ∈ n.relayAddrSet,
      ∃ text ∈ n.config.relayNodes, env.resolveUDPAddr text = some addr
  | .registerRelayCandidate peerID remoteAddr =>
      n.relayManager.isSome → remoteAddr.kind = .udp → remoteAddr.text ∉ n.relayAddrSet →
        ∀ lost, n.relays.get peerID = some lost →
          ∃ other, other ≠ peerID ∧ n.relays.get other = some lost
  | .removePeer _ _ => True

end Node

theorem registerRelayCandidate_refused (n : Node) (peerID : Bytes) (remoteAddr : NetAddr)
    (listed : remoteAddr.text ∈ n.relayAddrSet) : n.registerRelayCandidate peerID remoteAddr = n := by
  unfold Node.registerRelayCandidate
  split
  · rfl
  · exact if_neg fun fresh => fresh.2 listed

section

variable {n : Node}

theorem relayTablesAgree_startRelay (env : Env) :
    (n.startRelay env).RelayTablesAgree ↔ n.KeepsRelayTables (.startRelay env) := by
  let resolved := n.config.relayNodes.filterMap fun text => (env.resolveUDPAddr text).map (text, ·)
  have stored : ∀ text addr, (text, addr) ∈ resolved ↔
      text ∈ n.config.relayNodes ∧ env.resolveUDPAddr text = some addr := by
    intro text addr
    simp [resolved]
  have lists : Lists (resolved.map Prod.snd).toFinset
      (resolved.foldl (fun relays entry => relays.set entry.1 entry.2) ∅) := by
    apply lists_foldl_set
    intro text first second one two
    exact Option.some.inj (((stored text first).mp one).2.symm.trans ((stored text second).mp two).2)
  have resolves : ∀ addr, addr ∈ (resolved.map Prod.snd).toFinset ↔
      ∃ text ∈ n.config.relayNodes, env.resolveUDPAddr text = some addr := by
    intro addr
    rw [List.mem_toFinset, List.mem_map]
    constructor
    · rintro ⟨⟨text, addr⟩, entry, rfl⟩
      exact ⟨text, (stored text addr).mp entry⟩
    · rintro ⟨text, configured⟩
      exact ⟨(text, addr), (stored text addr).mpr configured, rfl⟩
  refine (Lists.union_iff lists).trans ?_
  constructor
  · intro covered addr old
    exact (resolves addr).mp (covered old)
  · intro again addr old
    exact (resolves addr).mpr (again addr old)

theorem relayTablesAgree_registerRelayCandidate (agree : n.RelayTablesAgree) (peerID : Bytes)
    (remoteAddr : NetAddr) :
    (n.registerRelayCandidate peerID remoteAddr).RelayTablesAgree ↔
      n.KeepsRelayTables (.registerRelayCandidate peerID remoteAddr) := by
  unfold Node.registerRelayCandidate
  split
  next absent =>
    refine iff_of_true agree ?_
    intro started
    rw [absent] at started
    exact absurd started Bool.false_ne_true
  next relays manager =>
    split
    next taken =>
      have listed : Lists n.relayAddrSet relays := by
        intro addr
        rw [agree addr, Node.relays, manager, Option.getD_some]
      refine (listed.insert_iff taken.2).trans ?_
      have same : n.relays = relays := by rw [Node.relays, manager, Option.getD_some]
      rw [Node.KeepsRelayTables, same, manager]
      exact ⟨fun elsewhere _ _ _ => elsewhere, fun keeps => keeps rfl taken.1 taken.2⟩
    next refused =>
      refine iff_of_true agree ?_
      intro _ udp fresh
      exact absurd ⟨udp, fresh⟩ refused

theorem relayTablesAgree_step (agree : n.RelayTablesAgree) (event : RelayTableEvent) :
    (n.relayStep event).RelayTablesAgree ↔ n.KeepsRelayTables event := by
  cases event with
  | startRelay env => exact relayTablesAgree_startRelay env
  | registerRelayCandidate peerID remoteAddr =>
      exact relayTablesAgree_registerRelayCandidate agree peerID remoteAddr
  | removePeer peerID shouldReconnect =>
      obtain ⟨_, _, _, _, same⟩ := removePeerWithReconnect_frame n peerID shouldReconnect
      refine iff_of_true ?_ trivial
      rw [Node.relayStep, same]
      exact agree

theorem refusesStored_of_agree (agree : n.RelayTablesAgree) (event : RelayTableEvent) :
    n.RefusesStored event := by
  cases event with
  | registerRelayCandidate peerID remoteAddr => exact fun _ _ refused => (agree remoteAddr.text).mp refused
  | startRelay env => trivial
  | removePeer peerID shouldReconnect => trivial

end

theorem relayTablesAgree_newNode (env : Env) (cfg : Config) (identity : Identity) :
    (newNode env cfg identity).RelayTablesAgree := by
  intro addr
  refine iff_of_false (Finset.notMem_empty addr) ?_
  rintro ⟨id, found⟩
  exact Option.some_ne_none addr found.symm

/-- In a run of a new node the two tables agree in every state, and nobody is refused for an address
that no relay has, exactly if every start and every registration of the run keeps them. -/
theorem relayTables_agree_iff (env : Env) (cfg : Config) (identity : Identity)
    (events : List RelayTableEvent) :
    (Run.Throughout Node.relayStep Node.RelayTablesAgree (newNode env cfg identity) events ∧
        Run.Along Node.relayStep Node.RefusesStored (newNode env cfg identity) events) ↔
      Run.Along Node.relayStep Node.KeepsRelayTables (newNode env cfg identity) events := by
  have exactly := Run.throughout_iff_along (newNode env cfg identity) events
    (relayTablesAgree_newNode env cfg identity)
    (fun _ event agree => relayTablesAgree_step agree event)
  constructor
  · exact fun both => exactly.mp both.1
  · intro keeps
    have agree := exactly.mpr keeps
    exact ⟨agree, Run.along_of_throughout _ _ agree fun _ event => (refusesStored_of_agree · event)⟩

/-- A static relay, two peers with addresses of their own, and a removal, behind which the peer comes
back from the address that it had. -/
theorem relayTables_agree_returning :
    let start := newNode .padded { defaultConfig with relayNodes := [[7]] } (newIdentity .padded [9])
    let events : List RelayTableEvent := [.startRelay .padded, .registerRelayCandidate [1] ⟨.udp, [0x0A]⟩,
      .registerRelayCandidate [2] ⟨.udp, [0x0B]⟩, .removePeer [1] true,
      .registerRelayCandidate [1] ⟨.udp, [0x0A]⟩]
    (Run.run Node.relayStep start events).relayAddrSet = {[7], [0x0A], [0x0B]} ∧
      Run.Throughout Node.relayStep Node.RelayTablesAgree start events := by
  intro start events
  have unknown (n : Node) (peerID : Bytes) (remoteAddr : NetAddr) (absent : n.relays.get peerID = none) :
      n.KeepsRelayTables (.registerRelayCandidate peerID remoteAddr) := by
    intro _ _ _ lost stored
    exact absurd (stored.symm.trans absent) (Option.some_ne_none lost)
  refine ⟨by decide, ((relayTables_agree_iff _ _ _ events).mpr ?_).1⟩
  refine ⟨?_, unknown _ _ _ (by decide), unknown _ _ _ (by decide), trivial, ?_, trivial⟩
  · intro addr old
    exact absurd old (Finset.notMem_empty addr)
  · intro _ _ fresh
    exact absurd (by decide) fresh

/-- A peer that handshakes again from a second address takes the first one out of the manager and leaves
it in the set: another peer that connects from there is refused. -/
theorem moved_peer_blocks_address :
    let start := newNode .padded defaultConfig (newIdentity .padded [9])
    let moves : List RelayTableEvent := [.startRelay .padded, .registerRelayCandidate [1] ⟨.udp, [0x0A]⟩,
      .registerRelayCandidate [1] ⟨.udp, [0x0B]⟩]
    let moved := Run.run Node.relayStep start moves
    [0x0A] ∈ moved.relayAddrSet ∧ (∀ id, moved.relays.get id ≠ some [0x0A]) ∧
      ¬moved.RefusesStored (.registerRelayCandidate [2] ⟨.udp, [0x0A]⟩) ∧
      moved.registerRelayCandidate [2] ⟨.udp, [0x0A]⟩ = moved := by
  intro start moves moved
  have listed : [0x0A] ∈ moved.relayAddrSet := by decide
  have gone : ∀ id, moved.relays.get id ≠ some [0x0A] := by
    intro id stored
    rcases GoMap.get_set_eq_some.mp stored with ⟨_, same⟩ | ⟨other, earlier⟩
    · exact absurd same (by decide)
    · rcases GoMap.get_set_eq_some.mp earlier with ⟨same, _⟩ | ⟨_, nothing⟩
      · exact other same
      · exact Option.some_ne_none _ nothing.symm
  refine ⟨listed, gone, ?_, ?_⟩
  · intro refuses
    obtain ⟨id, stored⟩ := refuses rfl rfl listed
    exact gone id stored
  · exact registerRelayCandidate_refused moved [2] ⟨.udp, [0x0A]⟩ listed

/-! The node's own events go through such a sequence. -/

def Node.relayTables (n : Node) : Option (GoMap Bytes Bytes) × Finset Bytes :=
  (n.relayManager, n.relayAddrSet)

def registrations (calls : List (Bytes × NetAddr)) : List RelayTableEvent :=
  calls.map fun call => .registerRelayCandidate call.1 call.2

theorem registerRelayCandidate_congr {n after : Node} (same : after.relayTables = n.relayTables)
    (peerID : Bytes) (remoteAddr : NetAddr) :
    (after.registerRelayCandidate peerID remoteAddr).relayTables =
      (n.registerRelayCandidate peerID remoteAddr).relayTables := by
  have manager : after.relayManager = n.relayManager := congrArg Prod.fst same
  have addrSet : after.relayAddrSet = n.relayAddrSet := congrArg Prod.snd same
  unfold Node.registerRelayCandidate
  rw [manager, addrSet]
  split
  · exact same
  · split
    · rfl
    · exact same

section

variable (env : Env) (n : Node)

theorem sessionEstablished_relayTables (conn : Option ConnId) (remoteAddr : NetAddr)
    (transport : Transport) (session : Session) (now : Int) :
    (n.sessionEstablished env conn remoteAddr transport session now).1.relayTables = n.relayTables ∨
      (n.sessionEstablished env conn remoteAddr transport session now).1.relayTables =
        (n.registerRelayCandidate (peerIDOf env session.remotePublicKey) remoteAddr).relayTables := by
  unfold Node.sessionEstablished
  dsimp only
  split
  next existing found =>
    rw [← n.peers.get_id _ existing found]
    unfold Node.handleExistingPeer
    split
    · right
      apply registerRelayCandidate_congr
      rfl
    · right
      apply registerRelayCandidate_congr
      rfl
  next =>
    unfold Node.handleNewPeer
    dsimp only
    split
    · exact Or.inl rfl
    · right
      apply registerRelayCandidate_congr
      rfl

theorem processHandshake_relayTables (conn : Option ConnId) (remoteAddr : NetAddr)
    (transport : Transport) (payload : Message) (ephemeral : Key) (now : Int) :
    (n.processHandshake env conn remoteAddr transport payload ephemeral now).1.relayTables =
        n.relayTables ∨
      ∃ peerID addr, (n.processHandshake env conn remoteAddr transport payload ephemeral now).1.relayTables =
        (n.registerRelayCandidate peerID addr).relayTables := by
  rcases result : (n.pendingHandshake (transport, remoteAddr.text) ephemeral now).processMessage
    payload with _ | ⟨hs, response, _ | session⟩
  · rw [processHandshake_failed env n conn remoteAddr transport payload ephemeral now result]
    exact Or.inl rfl
  · rw [processHandshake_waiting env n conn remoteAddr transport payload ephemeral now hs response
      result]
    exact Or.inl rfl
  · rw [processHandshake_finished env n conn remoteAddr transport payload ephemeral now hs response
      session result]
    rcases sessionEstablished_relayTables env
      { n with pendingHandshakes := n.pendingHandshakes.set (transport, remoteAddr.text) hs }
      conn remoteAddr transport session now with same | registered
    · exact Or.inl same
    · refine Or.inr ⟨peerIDOf env session.remotePublicKey, remoteAddr, registered.trans ?_⟩
      apply registerRelayCandidate_congr
      rfl

theorem step_relayTables (event : Event) :
    (n.step env event).relayTables = n.relayTables ∨
      ∃ peerID remoteAddr, (n.step env event).relayTables =
        (n.registerRelayCandidate peerID remoteAddr).relayTables := by
  cases event with
  | connect remoteUDPAddr remoteTCPAddr udpState tcpState => exact Or.inl rfl
  | connectViaRelay relayAddr targetAddr hs => exact Or.inl rfl
  | handshake conn remoteAddr transport payload ephemeral now =>
      exact processHandshake_relayTables env n conn remoteAddr transport payload ephemeral now
  | relayPacket origin payload now =>
      obtain ⟨_, _, same⟩ := handleRelayPacket_eq env n origin payload now
      refine Or.inl ?_
      rw [Node.step, same]
      rfl
  | heartbeat conn remoteAddr transport now timestamp =>
      refine Or.inl ?_
      rw [Node.step]
      rcases processHeartbeat_eq n conn remoteAddr transport now timestamp with same | ⟨_, _, _, same⟩
      · rw [same]
      · rw [same]
        rfl
  | upgradePeer peerID remoteAddr dial =>
      obtain ⟨_, _, _, same⟩ := n.upgradePeer_frame peerID remoteAddr dial
      refine Or.inl ?_
      rw [Node.step, same]
      rfl
  | removePeer peerID shouldReconnect =>
      obtain ⟨_, _, _, _, same⟩ := removePeerWithReconnect_frame n peerID shouldReconnect
      refine Or.inl ?_
      rw [Node.step, same]
      rfl
  | cleanupStaleMappings now => exact Or.inl rfl

theorem run_registrations_congr (calls : List (Bytes × NetAddr)) {n after : Node}
    (same : after.relayTables = n.relayTables) :
    (Run.run Node.relayStep after (registrations calls)).relayTables =
      (Run.run Node.relayStep n (registrations calls)).relayTables := by
  induction calls generalizing n after with
  | nil => exact same
  | cons call rest ih => exact ih (registerRelayCandidate_congr same call.1 call.2)

theorem run_relayTables (events : List Event) :
    ∃ calls : List (Bytes × NetAddr), (Run.run (Node.step env) n events).relayTables =
      (Run.run Node.relayStep n (registrations calls)).relayTables := by
  induction events generalizing n with
  | nil => exact ⟨[], rfl⟩
  | cons event rest ih =>
      obtain ⟨calls, reached⟩ := ih (n.step env event)
      rw [Run.run_cons, reached]
      rcases step_relayTables env n event with same | ⟨peerID, remoteAddr, registered⟩
      · exact ⟨calls, run_registrations_congr calls same⟩
      · exact ⟨(peerID, remoteAddr) :: calls, run_registrations_congr calls registered⟩

end

theorem startedNode_relayTables (env : Env) (cfg : Config) (identity : Identity) (kcpStarted : Bool)
    (events : List Event) :
    ∃ calls : List (Bytes × NetAddr),
      (Run.run (Node.step env) (startedNode env cfg identity kcpStarted) events).relayTables =
        (Run.run Node.relayStep (newNode env cfg identity)
          (.startRelay env :: registrations calls)).relayTables := by
  obtain ⟨calls, reached⟩ := run_relayTables env (startedNode env cfg identity kcpStarted) events
  exact ⟨calls, reached.trans (run_registrations_congr calls rfl)⟩

end Tenet
