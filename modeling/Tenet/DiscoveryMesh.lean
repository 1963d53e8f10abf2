import Tenet.DiscoveryCodec
import Tenet.DiscoveryThrottle
import Tenet.Events
import Tenet.HandshakeStep
import Tenet.Lib.Gossip
import Tenet.Lib.InFlight

/-! Many nodes that discover each other: `node/discovery.go` on all of them at once, with the packets
between them and the connects that it starts. -/

namespace Tenet

open Lib

section Throttle

variable {order : GoMap.Iteration Bytes Int} {seen : GoMap Bytes Int} {now : Int} {key : Bytes}
  {deadline : Int}

theorem get_of_prunedAtThreshold (kept : (prunedAtThreshold seen now).get key = some deadline) :
    seen.get key = some deadline := by
  unfold prunedAtThreshold at kept
  split at kept
  · exact Deadlines.get_of_prune kept
  · exact kept

theorem get_of_roomForEntry (kept : (roomForEntry order seen now).get key = some deadline) :
    seen.get key = some deadline := by
  unfold roomForEntry at kept
  split at kept
  · dsimp only at kept
    split at kept
    · exact Deadlines.get_of_prune (Deadlines.get_of_trim kept)
    · exact Deadlines.get_of_prune kept
  · exact kept

theorem tryBegin_room (order : GoMap.Iteration Bytes Int) (seen : GoMap Bytes Int) (sem : Nat)
    (peerID addr : Bytes) (now : Int) (room : sem < discoveryConnectConcurrencyLimit) :
    let call := tryBeginDiscoveryConnect order seen sem peerID addr now
    (call.2.2 = false → (seen.get (discoveryConnectKey peerID addr)).isSome = true) ∧
      ∀ key, (call.1.get key).isSome = true →
        (seen.get key).isSome = true ∨ (key = discoveryConnectKey peerID addr ∧ call.2.2 = true) := by
  intro call
  rcases lockDiscoveryConnect_cases order seen now (discoveryConnectKey peerID addr) with
    ⟨locked, live⟩ | ⟨locked, _⟩
  · have refused : call = (prunedAtThreshold seen now, sem, false) := by
      simp only [call, tryBeginDiscoveryConnect, locked]
    rw [refused]
    constructor
    · intro _
      obtain ⟨deadline, unexpired⟩ := Option.isSome_iff_exists.mp live
      rw [((Deadlines.live_eq_some ..).mp unexpired).1]
      rfl
    · intro key kept
      obtain ⟨deadline, stored⟩ := Option.isSome_iff_exists.mp kept
      rw [get_of_prunedAtThreshold stored]
      exact Or.inl rfl
  · have admitted : call = ((roomForEntry order (prunedAtThreshold seen now) now).set
        (discoveryConnectKey peerID addr) (now + discoveryConnectCooldown), sem + 1, true) := by
      simp only [call, tryBeginDiscoveryConnect, locked, acquireDiscoveryConnect, if_pos room]
    rw [admitted]
    constructor
    · intro refused
      cases refused
    · intro key kept
      rw [GoMap.get_set] at kept
      split at kept
      · next own => exact Or.inr ⟨own, rfl⟩
      · obtain ⟨deadline, stored⟩ := Option.isSome_iff_exists.mp kept
        rw [get_of_prunedAtThreshold (get_of_roomForEntry stored)]
        exact Or.inl rfl

end Throttle

/-- The nodes of a network in which each has an identity and an address of its own. -/
structure MeshHosts (env : Env) (I : Type) where
  key : I → Key
  addr : I → NetAddr
  id_injective : Function.Injective fun i => peerIDOf env (key i)
  addr_injective : Function.Injective fun i => (addr i).text
  addr_short : ∀ i, (addr i).text.length ≤ 255

structure MeshPacket (I : Type) where
  source : I
  dest : Bytes
  packet : Bytes
  deriving DecidableEq, Repr

structure Mesh (I : Type) where
  node : I → Node
  /-- `discoveryConnectSeen` and the tokens in `discoveryConnectSem` -/
  seen : I → GoMap Bytes Int
  sem : I → Nat
  packets : List (MeshPacket I)
  /-- the entries of responses that a node has yet to come to -/
  entries : List (I × Bytes × Bytes)
  /-- the calls of `Connect` that discovery has started, and for whom -/
  connects : List (I × Bytes × Bytes)

inductive MeshEvent (I : Type) where
  /-- the first node finishes a handshake over UDP with the second -/
  | established (i j : I) (session : Session) (now : Int)
  /-- a packet reaches the node -/
  | deliver (index : Nat) (j : I)
  /-- a turn of the loop in `processDiscoveryResponse` -/
  | visit (index : Nat) (order : GoMap.Iteration Bytes Int) (now : Int)
  /-- a connect returns -/
  | endDiscoveryConnect (index : Nat)

namespace MeshHosts

variable {env : Env} {I : Type} (hosts : MeshHosts env I)

def id (i : I) : Bytes := peerIDOf env (hosts.key i)

def entry (i : I) : Bytes × Bytes := (hosts.id i, (hosts.addr i).text)

theorem id_length (i : I) : (hosts.id i).length = 32 := by
  have half : ((env.sha256 (hosts.key i)).take 16).length = 16 := by
    rw [List.length_take, env.sha256_length]
    rfl
  rw [id, peerIDOf, hexEncode, List.length_flatMap]
  simp only [List.length_cons, List.length_nil, List.map_const', half]
  rfl

theorem key_injective : Function.Injective fun i =>
    discoveryConnectKey (hosts.entry i).1 (hosts.entry i).2 := by
  intro i j same
  have ids := (List.append_inj same (by rw [entry, entry, id_length, id_length])).1
  exact hosts.id_injective ids

end MeshHosts

namespace Mesh

variable {env : Env} {I : Type}

def rawPacket (i : I) : Effect → Option (MeshPacket I)
  | .sendRaw _ addr _ (.raw packet) => some ⟨i, addr.text, packet⟩
  | _ => none

def requests (i : I) (n : Node) : Effect → List (MeshPacket I)
  | .sendDiscoveryRequest peerID =>
      match n.peers.get peerID with
      | some p => (Node.sendDiscoveryRequest p).filterMap (rawPacket i)
      | none => []
  | _ => []

variable (hosts : MeshHosts env I)

def start (cfg : I → Config) (kcpStarted : Bool) : Mesh I where
  node i := startedNode env (cfg i) (newIdentity env (hosts.key i)) kcpStarted
  seen _ := ∅
  sem _ := 0
  packets := []
  entries := []
  connects := []

variable (s : Mesh I)

def handlePacket (j : I) (sent : MeshPacket I) : Mesh I :=
  let remoteAddr := hosts.addr sent.source
  if isTent sent.packet then
    if sent.packet[4]? = some packetTypeDiscoveryReq then
      { s with
        packets := s.packets ++
          ((s.node j).processDiscoveryRequest none remoteAddr .udp).filterMap (rawPacket j) }
    else if sent.packet[4]? = some packetTypeDiscoveryResp then
      if (s.node j).isDiscoverySourceAuthenticated remoteAddr.text then
        match parseDiscoveryResponse (sent.packet.drop 5) with
        | some entries => { s with entries := s.entries ++ entries.map (j, ·) }
        | none => s
      else s
    else s
  else s

def visitEntry [DecidableEq I] (s : Mesh I) (i : I) (entry : Bytes × Bytes) (order : GoMap.Iteration Bytes Int)
    (now : Int) : Mesh I :=
  if entry.1 = (s.node i).localPeerID then s
  else if ((s.node i).peers.get entry.1).isSome then s
  else
    let call := tryBeginDiscoveryConnect order (s.seen i) (s.sem i) entry.1 entry.2 now
    { s with
      seen := Function.update s.seen i call.1
      sem := Function.update s.sem i call.2.1
      connects := if call.2.2 then s.connects ++ [(i, entry)] else s.connects }

def step [DecidableEq I] (s : Mesh I) : MeshEvent I → Mesh I
  | .established i j session now =>
      let after := (s.node i).sessionEstablished env none (hosts.addr j) .udp session now
      { s with
        node := Function.update s.node i after.1
        packets := s.packets ++ after.2.flatMap (requests i after.1) }
  | .deliver index j =>
      match s.packets[index]? with
      | some sent =>
          if sent.dest = (hosts.addr j).text then
            { s with packets := s.packets.eraseIdx index : Mesh I }.handlePacket hosts j sent
          else s
      | none => s
  | .visit index order now =>
      match s.entries[index]? with
      | some (i, entry) =>
          { s with entries := s.entries.eraseIdx index : Mesh I }.visitEntry i entry order now
      | none => s
  | .endDiscoveryConnect index =>
      match s.connects[index]? with
      | some (i, _) =>
          { s with
            connects := s.connects.eraseIdx index
            sem := Function.update s.sem i (Tenet.endDiscoveryConnect (s.sem i)) }
      | none => s

/-- What discovery needs to complete the mesh: a handshake finds room and shows the other node's own
key, a packet arrives once its receiver has stored its sender, there is a free slot for every entry of
a response, and a connect that it starts ends with a session. -/
def Favourable : MeshEvent I → Prop
  | .established i j session _ =>
      session.remotePublicKey = hosts.key j ∧ (s.node i).isFull = false
  | .deliver index j => ∀ sent ∈ s.packets[index]?, sent.dest = (hosts.addr j).text →
      (s.node j).isDiscoverySourceAuthenticated (hosts.addr sent.source).text = true ∧
        (s.node j).peers.count ≤ 65535
  | .visit index _ _ => ∀ entry ∈ s.entries[index]?, s.sem entry.1 < discoveryConnectConcurrencyLimit
  | .endDiscoveryConnect index => ∀ connect ∈ s.connects[index]?,
      ((s.node connect.1).peers.get connect.2.1).isSome = true

def gossip : Gossip I where
  knows i j := ((s.node i).peers.get (hosts.id j)).isSome = true
  asking i j := ⟨i, (hosts.addr j).text, tentPacket packetTypeDiscoveryReq []⟩ ∈ s.packets
  told i j := (i, hosts.entry j) ∈ s.entries ∨
    ∃ source payload entries,
      ⟨source, (hosts.addr i).text, tentPacket packetTypeDiscoveryResp payload⟩ ∈ s.packets ∧
        parseDiscoveryResponse payload = some entries ∧ hosts.entry j ∈ entries
  trying i j := (i, hosts.entry j) ∈ s.connects

/-- The packet offers nobody but nodes of the network, under their own addresses. -/
def Honest (packet : Bytes) : Prop :=
  packet[4]? = some packetTypeDiscoveryResp → ∀ entries ∈ parseDiscoveryResponse (packet.drop 5),
    ∀ entry ∈ entries, ∃ j, entry = hosts.entry j

/-- The tables of a node: a peer is stored with its own address, which leads back to it. -/
structure Tables (i : I) (n : Node) : Prop where
  identity : n.localPeerID = hosts.id i
  stored : ∀ peerID p, n.peers.get peerID = some p → ∃ j, peerID = hosts.id j ∧
    p.addr.text = (hosts.addr j).text ∧ n.addrToPeer.get (hosts.addr j).text = some (hosts.id j)
  mapped : ∀ j peerID, n.addrToPeer.get (hosts.addr j).text = some peerID → peerID = hosts.id j

/-- Besides the tables: nobody is offered another's address, and an entry of `discoveryConnectSeen`
stands for a connect in progress or a connected peer. -/
structure Sound : Prop where
  tables : ∀ i, Tables hosts i (s.node i)
  honest : ∀ sent ∈ s.packets, Honest hosts sent.packet
  named : ∀ i entry, (i, entry) ∈ s.entries → ∃ j, entry = hosts.entry j
  remembered : ∀ i j,
    ((s.seen i).get (discoveryConnectKey (hosts.entry j).1 (hosts.entry j).2)).isSome = true →
      (s.gossip hosts).trying i j ∨ (s.gossip hosts).knows i j

variable {hosts} {s}

theorem honest_request : Honest hosts (tentPacket packetTypeDiscoveryReq []) := by
  intro typed
  cases typed

/-! A finished handshake. -/

section Established

variable {i j : I} {n : Node} {session : Session}

theorem Tables.established_eq (tables : Tables hosts i n)
    (shown : session.remotePublicKey = hosts.key j) (room : n.isFull = false) (now : Int) :
    let after := (n.sessionEstablished env none (hosts.addr j) .udp session now).1
    ∃ p, p.id = hosts.id j ∧ p.addr.text = (hosts.addr j).text ∧ after.peers = n.peers.add p ∧
      ∀ addr, after.addrToPeer.get addr =
        if addr = (hosts.addr j).text then some (hosts.id j) else n.addrToPeer.get addr := by
  intro after
  have named : peerIDOf env session.remotePublicKey = hosts.id j := by
    rw [shown]
    rfl
  have written := (sessionEstablished_tables env n none (hosts.addr j) .udp session now).1
  cases known : n.peers.get (hosts.id j) with
  | none =>
      have outcome : n.sessionOutcome env .udp session = .connected (hosts.id j) := by
        simp only [Node.sessionOutcome, named, known, room, Bool.false_eq_true, if_false]
      rw [outcome] at written
      obtain ⟨_, p, id, addr, peers, table⟩ := written
      refine ⟨p, id, by rw [addr], peers, ?_⟩
      intro other
      rw [table, GoMap.get_set]
  | some existing =>
      have outcome : n.sessionOutcome env .udp session = .refreshed (hosts.id j) := by
        simp only [Node.sessionOutcome, named, known]
        rfl
      rw [outcome] at written
      obtain ⟨earlier, p, found, id, addr, peers, table⟩ := written
      rw [known] at found
      cases found
      obtain ⟨owner, owned, placed, mapped⟩ := tables.stored _ existing known
      cases hosts.id_injective owned
      refine ⟨p, id, ?_, peers, ?_⟩
      · rw [addr]
        split
        · exact placed
        · rfl
      · intro other
        rw [table]
        split
        · next same => rw [same, mapped]
        · rfl

theorem Tables.established (tables : Tables hosts i n)
    (shown : session.remotePublicKey = hosts.key j) (room : n.isFull = false) (now : Int) :
    Tables hosts i (n.sessionEstablished env none (hosts.addr j) .udp session now).1 := by
  obtain ⟨p, id, placed, peers, table⟩ := tables.established_eq shown room now
  refine ⟨?_, ?_, ?_⟩
  · rw [Node.localPeerID, sessionEstablished_identity]
    exact tables.identity
  · intro peerID q
    rw [peers, PeerStore.get_add, id]
    split
    · next same =>
        rintro ⟨⟩
        exact ⟨j, same, placed, by rw [table, if_pos rfl]⟩
    · intro found
      obtain ⟨b, named, addr, mapped⟩ := tables.stored peerID q found
      refine ⟨b, named, addr, ?_⟩
      rw [table, mapped]
      split
      · next same => rw [hosts.addr_injective same]
      · rfl
  · intro b peerID
    rw [table]
    split
    · next same =>
        rintro ⟨⟩
        rw [hosts.addr_injective same]
    · exact tables.mapped b peerID

theorem established_asks {p : Peer}
    (unknown : (s.node i).peers.get (peerIDOf env session.remotePublicKey) = none)
    (room : (s.node i).isFull = false) (now : Int)
    (stored : n.peers.get (peerIDOf env session.remotePublicKey) = some p)
    (placed : p.addr.text = (hosts.addr j).text) :
    (⟨i, (hosts.addr j).text, tentPacket packetTypeDiscoveryReq []⟩ : MeshPacket I) ∈
      ((s.node i).sessionEstablished env none (hosts.addr j) .udp session now).2.flatMap
        (requests i n) := by
  have asks : Effect.sendDiscoveryRequest (peerIDOf env session.remotePublicKey) ∈
      ((s.node i).sessionEstablished env none (hosts.addr j) .udp session now).2 := by
    simp only [Node.sessionEstablished, unknown, Node.handleNewPeer, room, Bool.false_eq_true,
      if_false]
    exact List.mem_append_left _ List.mem_cons_self
  refine List.mem_flatMap.mpr ⟨_, asks, ?_⟩
  simp only [requests, stored]
  rw [← placed]
  exact List.mem_singleton_self _

theorem requests_packet {effects : List Effect} {sent : MeshPacket I}
    (member : sent ∈ effects.flatMap (requests i n)) :
    sent.packet = tentPacket packetTypeDiscoveryReq [] := by
  obtain ⟨effect, _, posted⟩ := List.mem_flatMap.mp member
  unfold requests at posted
  split at posted
  · split at posted
    · rw [List.mem_singleton.mp posted]
    · cases posted
  · cases posted

variable [DecidableEq I] (now : Int)

theorem knows_established (sound : Sound hosts s) (shown : session.remotePublicKey = hosts.key j)
    (room : (s.node i).isFull = false) (a b : I) :
    ((s.step hosts (.established i j session now)).gossip hosts).knows a b ↔
      (s.gossip hosts).knows a b ∨ (a = i ∧ b = j) := by
  obtain ⟨p, id, _, peers, _⟩ := (sound.tables i).established_eq shown room now
  simp only [gossip, step]
  by_cases own : a = i
  · subst own
    rw [Function.update_self, peers, PeerStore.get_add, id]
    by_cases same : b = j
    · subst same
      simp
    · have differ : hosts.id b ≠ hosts.id j := fun equal => same (hosts.id_injective equal)
      rw [if_neg differ]
      simp [same]
  · rw [Function.update_of_ne own]
    simp [own]

theorem sound_established (sound : Sound hosts s) (shown : session.remotePublicKey = hosts.key j)
    (room : (s.node i).isFull = false) :
    Sound hosts (s.step hosts (.established i j session now)) := by
  have knows := knows_established now sound shown room
  constructor
  · exact (Function.forall_update_iff s.node (Tables hosts)).mpr
      ⟨(sound.tables i).established shown room now, fun a _ => sound.tables a⟩
  · intro sent member
    rcases List.mem_append.mp member with before | posted
    · exact sound.honest sent before
    · rw [requests_packet posted]
      exact honest_request
  · exact sound.named
  · intro a b listed
    rcases sound.remembered a b listed with trying | known
    · exact Or.inl trying
    · exact Or.inr ((knows a b).mpr (Or.inl known))

theorem advances_established (sound : Sound hosts s)
    (shown : session.remotePublicKey = hosts.key j) (room : (s.node i).isFull = false) :
    Gossip.Advances (s.gossip hosts)
      ((s.step hosts (.established i j session now)).gossip hosts) := by
  have knows := knows_established now sound shown room
  constructor
  · intro a b known
    exact (knows a b).mpr (Or.inl known)
  · intro a b known
    rcases (knows a b).mp known with before | ⟨rfl, rfl⟩
    · exact Or.inl before
    · by_cases before : (s.gossip hosts).knows a b
      · exact Or.inl before
      · have named : peerIDOf env session.remotePublicKey = hosts.id b := by
          rw [shown]
          rfl
        obtain ⟨p, id, placed, peers, _⟩ := (sound.tables a).established_eq shown room now
        refine Or.inr (List.mem_append_right _ (established_asks ?_ room now ?_ placed))
        · rw [named]
          exact Option.not_isSome_iff_eq_none.mp before
        · rw [peers, PeerStore.get_add, named, id, if_pos rfl]
  · intro a b asking
    exact Or.inl (List.mem_append_left _ asking)
  · rintro a c (listed | ⟨source, payload, entries, sent, read, member⟩)
    · exact Or.inl (Or.inl listed)
    · exact Or.inl (Or.inr ⟨source, payload, entries, List.mem_append_left _ sent, read, member⟩)
  · intro a c trying
    exact Or.inl trying

end Established

/-! A packet that arrives. -/

section Handled

variable (hosts)

theorem handlePacket_node (j : I) (sent : MeshPacket I) :
    (s.handlePacket hosts j sent).node = s.node ∧ (s.handlePacket hosts j sent).seen = s.seen ∧
      (s.handlePacket hosts j sent).connects = s.connects := by
  unfold handlePacket
  dsimp only
  repeat' split
  all_goals exact ⟨rfl, rfl, rfl⟩

theorem handlePacket_keeps (j : I) (sent : MeshPacket I) :
    (∀ other ∈ s.packets, other ∈ (s.handlePacket hosts j sent).packets) ∧
      ∀ entry ∈ s.entries, entry ∈ (s.handlePacket hosts j sent).entries := by
  unfold handlePacket
  dsimp only
  repeat' split
  all_goals first
    | exact ⟨fun _ => id, fun _ => id⟩
    | exact ⟨fun _ => List.mem_append_left _, fun _ => id⟩
    | exact ⟨fun _ => id, fun _ => List.mem_append_left _⟩

theorem handlePacket_request (j source : I) (dest : Bytes)
    (authenticated :
      (s.node j).isDiscoverySourceAuthenticated (hosts.addr source).text = true) :
    ⟨j, (hosts.addr source).text,
        tentPacket packetTypeDiscoveryResp (discoveryPayload (s.node j).discoveryEntries)⟩ ∈
      (s.handlePacket hosts j ⟨source, dest, tentPacket packetTypeDiscoveryReq []⟩).packets := by
  have typed : (tentPacket packetTypeDiscoveryReq [])[4]? = some packetTypeDiscoveryReq := rfl
  unfold handlePacket
  dsimp only
  rw [if_pos (isTent_tentPacket _ _), if_pos typed, Node.processDiscoveryRequest,
    if_pos authenticated]
  exact List.mem_append_right _ (List.mem_singleton_self _)

theorem handlePacket_response (j source : I) (dest payload : Bytes) (entries : List (Bytes × Bytes))
    (authenticated :
      (s.node j).isDiscoverySourceAuthenticated (hosts.addr source).text = true)
    (read : parseDiscoveryResponse payload = some entries) (entry : Bytes × Bytes)
    (member : entry ∈ entries) :
    (j, entry) ∈
      (s.handlePacket hosts j ⟨source, dest, tentPacket packetTypeDiscoveryResp payload⟩).entries := by
  have untyped : ¬(tentPacket packetTypeDiscoveryResp payload)[4]? = some packetTypeDiscoveryReq := by
    intro typed
    cases typed
  have typed : (tentPacket packetTypeDiscoveryResp payload)[4]? = some packetTypeDiscoveryResp := rfl
  have body : (tentPacket packetTypeDiscoveryResp payload).drop 5 = payload := rfl
  unfold handlePacket
  dsimp only
  rw [if_pos (isTent_tentPacket _ _), if_neg untyped, if_pos typed, if_pos authenticated, body, read]
  exact List.mem_append_right _ (List.mem_map_of_mem member)

end Handled

section Offers

variable {i j : I} {n : Node}

theorem Tables.authenticated (tables : Tables hosts j n)
    (authenticated : n.isDiscoverySourceAuthenticated (hosts.addr i).text = true) :
    (n.peers.get (hosts.id i)).isSome = true := by
  rw [Node.isDiscoverySourceAuthenticated, Node.peerAt] at authenticated
  cases mapped : n.addrToPeer.get (hosts.addr i).text with
  | none =>
      rw [mapped] at authenticated
      cases authenticated
  | some peerID =>
      rw [mapped, tables.mapped i peerID mapped] at authenticated
      exact authenticated

theorem Tables.listed (tables : Tables hosts i n) (known : (n.peers.get (hosts.id j)).isSome = true) :
    hosts.entry j ∈ n.discoveryEntries := by
  obtain ⟨p, stored⟩ := Option.isSome_iff_exists.mp known
  obtain ⟨owner, owned, placed, _⟩ := tables.stored _ p stored
  cases hosts.id_injective owned
  refine List.mem_filterMap.mpr ⟨hosts.id j, (n.peers.mem_ids _).mpr ⟨p, stored⟩, ?_⟩
  have short : ¬((hosts.id j).length > 255 ∨ p.addr.text.length > 255) := by
    rw [placed, hosts.id_length]
    have := hosts.addr_short j
    omega
  rw [stored, Option.bind_some, if_neg short, placed]
  rfl

theorem discoveryEntries_short (n : Node) :
    ∀ entry ∈ n.discoveryEntries, entry.1.length ≤ 255 ∧ entry.2.length ≤ 255 := by
  intro entry member
  obtain ⟨peerID, _, listed⟩ := List.mem_filterMap.mp member
  obtain ⟨p, _, shown⟩ := Option.bind_eq_some_iff.mp listed
  split at shown
  · cases shown
  · next short =>
      cases shown
      dsimp only
      omega

theorem discoveryEntries_read (n : Node) (few : n.peers.count ≤ 65535) :
    parseDiscoveryResponse (discoveryPayload n.discoveryEntries) = some n.discoveryEntries :=
  parseDiscoveryResponse_payload _ ((List.length_filterMap_le _ _).trans few)
    (discoveryEntries_short n)

theorem Tables.honest_response (tables : Tables hosts j n) (few : n.peers.count ≤ 65535) :
    Honest hosts (tentPacket packetTypeDiscoveryResp (discoveryPayload n.discoveryEntries)) := by
  intro _ entries read entry member
  have all : some n.discoveryEntries = some entries := (discoveryEntries_read n few).symm.trans read
  cases all
  obtain ⟨peerID, _, listed⟩ := List.mem_filterMap.mp member
  obtain ⟨p, stored, shown⟩ := Option.bind_eq_some_iff.mp listed
  obtain ⟨owner, rfl, placed, _⟩ := tables.stored peerID p stored
  split at shown
  · cases shown
  · cases shown
    exact ⟨owner, by rw [placed]; rfl⟩

end Offers

section Deliver

variable {j : I} {sent : MeshPacket I} {rest : List (MeshPacket I)}

/-- A packet that arrives is taken up; all the others are still under way. -/
theorem advances_handlePacket (sound : Sound hosts s)
    (stored : (s.node j).isDiscoverySourceAuthenticated (hosts.addr sent.source).text = true)
    (few : (s.node j).peers.count ≤ 65535) (arrived : sent.dest = (hosts.addr j).text)
    (taken : ∀ other ∈ s.packets, other = sent ∨ other ∈ rest) :
    Gossip.Advances (s.gossip hosts)
      (({ s with packets := rest : Mesh I }.handlePacket hosts j sent).gossip hosts) := by
  obtain ⟨node, _, connects⟩ := handlePacket_node hosts (s := { s with packets := rest }) j sent
  obtain ⟨packets, entries⟩ := handlePacket_keeps hosts (s := { s with packets := rest }) j sent
  have same : (({ s with packets := rest : Mesh I }.handlePacket hosts j sent).gossip hosts).knows =
      (s.gossip hosts).knows := by
    simp only [gossip, node]
  constructor
  · rw [same]
    exact fun _ _ => id
  · rw [same]
    exact fun _ _ => Or.inl
  · intro a b asking
    rcases taken _ asking with rfl | still
    · cases hosts.addr_injective arrived
      refine Or.inr ⟨(sound.tables j).authenticated stored, ?_⟩
      intro c known
      rw [same] at known
      have answered := handlePacket_request hosts (s := { s with packets := rest }) j a
        (hosts.addr j).text stored
      exact Or.inr ⟨j, _, _, answered, discoveryEntries_read _ few, (sound.tables j).listed known⟩
    · exact Or.inl (packets _ still)
  · rintro a c (listed | ⟨source, payload, list, flying, read, member⟩)
    · exact Or.inl (Or.inl (entries _ listed))
    · rcases taken _ flying with rfl | still
      · cases hosts.addr_injective arrived
        have taken := handlePacket_response hosts (s := { s with packets := rest }) j source
          (hosts.addr j).text payload list stored read _ member
        exact Or.inl (Or.inl taken)
      · exact Or.inl (Or.inr ⟨source, payload, list, packets _ still, read, member⟩)
  · intro a c trying
    refine Or.inl ?_
    simp only [gossip, connects]
    exact trying

theorem sound_handlePacket (sound : Sound hosts s) (few : (s.node j).peers.count ≤ 65535)
    (honest : Honest hosts sent.packet) (left : ∀ other ∈ rest, other ∈ s.packets) :
    Sound hosts ({ s with packets := rest : Mesh I }.handlePacket hosts j sent) := by
  obtain ⟨node, seen, connects⟩ := handlePacket_node hosts (s := { s with packets := rest }) j sent
  have kept : ∀ other ∈ rest, Honest hosts other.packet := fun other member =>
    sound.honest other (left other member)
  constructor
  · rw [node]
    exact sound.tables
  · unfold handlePacket
    dsimp only
    repeat' split
    · intro other member
      rcases List.mem_append.mp member with before | posted
      · exact kept other before
      · obtain ⟨effect, answered, raw⟩ := List.mem_filterMap.mp posted
        unfold Node.processDiscoveryRequest at answered
        split at answered
        · cases List.mem_singleton.mp answered
          cases raw
          exact (sound.tables j).honest_response few
        · cases answered
    all_goals exact kept
  · unfold handlePacket
    dsimp only
    repeat' split
    · exact sound.named
    · next typed _ _ entries read =>
        intro i entry member
        rcases List.mem_append.mp member with before | offered
        · exact sound.named i entry before
        · obtain ⟨other, listed, same⟩ := List.mem_map.mp offered
          cases same
          exact honest typed entries read entry listed
    all_goals exact sound.named
  · simp only [gossip, node, seen, connects]
    exact sound.remembered

variable [DecidableEq I] (index : Nat)

theorem sound_deliver (sound : Sound hosts s) (favourable : s.Favourable hosts (.deliver index j)) :
    Sound hosts (s.step hosts (.deliver index j)) := by
  rw [step]
  split
  · next sent found =>
      split
      · next arrived =>
          exact sound_handlePacket sound (favourable sent found arrived).2
            (sound.honest sent (List.mem_of_getElem? found)) fun _ => List.mem_of_mem_eraseIdx
      · exact sound
  · exact sound

theorem advances_deliver (sound : Sound hosts s)
    (favourable : s.Favourable hosts (.deliver index j)) :
    Gossip.Advances (s.gossip hosts) ((s.step hosts (.deliver index j)).gossip hosts) := by
  rw [step]
  split
  · next sent found =>
      split
      · next arrived =>
          obtain ⟨stored, few⟩ := favourable sent found arrived
          refine advances_handlePacket sound stored few arrived ?_
          intro other member
          exact or_iff_not_imp_left.mpr fun differ => InFlight.mem_eraseIdx_of_ne found differ member
      · exact .refl _
  · exact .refl _

end Deliver

/-! An entry of a response, and the end of a connect. -/

section Connects

variable [DecidableEq I]

theorem Sound.visitEntry_follows (sound : Sound hosts s) (i c : I)
    (order : GoMap.Iteration Bytes Int) (now : Int)
    (room : s.sem i < discoveryConnectConcurrencyLimit) :
    i = c ∨ (s.gossip hosts).knows i c ∨
      (i, hosts.entry c) ∈ (s.visitEntry i (hosts.entry c) order now).connects := by
  have throttle := tryBegin_room order (s.seen i) (s.sem i) (hosts.entry c).1 (hosts.entry c).2 now
    room
  unfold visitEntry
  split
  · next own =>
      rw [(sound.tables i).identity] at own
      exact Or.inl (hosts.id_injective own).symm
  · split
    · next known => exact Or.inr (Or.inl known)
    · dsimp only
      split
      · exact Or.inr (Or.inr (List.mem_append_right _ (List.mem_singleton_self _)))
      · next refused =>
          rcases sound.remembered i c (throttle.1 (Bool.eq_false_iff.mpr refused)) with trying | known
          · exact Or.inr (Or.inr trying)
          · exact Or.inr (Or.inl known)

theorem visitEntry_frame (i : I) (entry : Bytes × Bytes) (order : GoMap.Iteration Bytes Int)
    (now : Int) :
    (s.visitEntry i entry order now).node = s.node ∧
      (s.visitEntry i entry order now).packets = s.packets ∧
      (s.visitEntry i entry order now).entries = s.entries ∧
      ∀ connect ∈ s.connects, connect ∈ (s.visitEntry i entry order now).connects := by
  unfold visitEntry
  dsimp only
  repeat' split
  all_goals first
    | exact ⟨rfl, rfl, rfl, fun _ => id⟩
    | exact ⟨rfl, rfl, rfl, fun _ => List.mem_append_left _⟩

theorem visitEntry_seen (i c : I) (order : GoMap.Iteration Bytes Int) (now : Int)
    (room : s.sem i < discoveryConnectConcurrencyLimit) (a b : I)
    (listed : (((s.visitEntry i (hosts.entry c) order now).seen a).get
      (discoveryConnectKey (hosts.entry b).1 (hosts.entry b).2)).isSome = true) :
    ((s.seen a).get (discoveryConnectKey (hosts.entry b).1 (hosts.entry b).2)).isSome = true ∨
      (a, hosts.entry b) ∈ (s.visitEntry i (hosts.entry c) order now).connects := by
  have throttle := tryBegin_room order (s.seen i) (s.sem i) (hosts.entry c).1 (hosts.entry c).2 now
    room
  unfold visitEntry at listed ⊢
  split at listed
  · exact Or.inl listed
  · split at listed
    · exact Or.inl listed
    · next foreign unknown =>
        by_cases own : a = i
        · subst own
          dsimp only at listed
          rw [Function.update_self] at listed
          rcases throttle.2 _ listed with before | ⟨same, admitted⟩
          · exact Or.inl before
          · cases hosts.key_injective same
            rw [if_neg foreign, if_neg unknown]
            dsimp only
            rw [if_pos admitted]
            exact Or.inr (List.mem_append_right _ (List.mem_singleton_self _))
        · dsimp only at listed
          rw [Function.update_of_ne own] at listed
          exact Or.inl listed

section Visit

variable {i : I} {entry : Bytes × Bytes} {rest : List (I × Bytes × Bytes)}

omit [DecidableEq I] in
theorem Sound.withEntries (sound : Sound hosts s) (left : ∀ other ∈ rest, other ∈ s.entries) :
    Sound hosts { s with entries := rest } :=
  { sound with named := fun i entry member => sound.named i entry (left _ member) }

variable (order : GoMap.Iteration Bytes Int) (now : Int)

theorem sound_visitEntry (sound : Sound hosts s)
    (room : s.sem i < discoveryConnectConcurrencyLimit) (own : ∃ c, entry = hosts.entry c) :
    Sound hosts (s.visitEntry i entry order now) := by
  obtain ⟨c, rfl⟩ := own
  obtain ⟨node, packets, entries, connects⟩ :=
    visitEntry_frame (s := s) i (hosts.entry c) order now
  constructor
  · rw [node]
    exact sound.tables
  · rw [packets]
    exact sound.honest
  · rw [entries]
    exact sound.named
  · intro a b listed
    rcases visitEntry_seen i c order now room a b listed with before | started
    · rcases sound.remembered a b before with trying | known
      · exact Or.inl (connects _ trying)
      · refine Or.inr ?_
        simp only [gossip, node]
        exact known
    · exact Or.inl started

theorem advances_visitEntry (sound : Sound hosts s)
    (room : s.sem i < discoveryConnectConcurrencyLimit)
    (left : ∀ other ∈ rest, other ∈ s.entries)
    (taken : ∀ other ∈ s.entries, other = (i, entry) ∨ other ∈ rest) :
    Gossip.Advances (s.gossip hosts)
      (({ s with entries := rest : Mesh I }.visitEntry i entry order now).gossip hosts) := by
  obtain ⟨node, packets, entries, connects⟩ :=
    visitEntry_frame (s := { s with entries := rest }) i entry order now
  have same : (({ s with entries := rest : Mesh I }.visitEntry i entry order now).gossip hosts).knows =
      (s.gossip hosts).knows := by
    simp only [gossip, node]
  constructor
  · rw [same]
    exact fun _ _ => id
  · rw [same]
    exact fun _ _ => Or.inl
  · intro a b asking
    refine Or.inl ?_
    simp only [gossip, packets]
    exact asking
  · rintro a c (listed | flying)
    · rcases taken _ listed with visited | still
      · cases visited
        have begun := (sound.withEntries left).visitEntry_follows i c order now room
        rw [same]
        rcases begun with self | known | trying
        · exact Or.inr (Or.inl self)
        · exact Or.inr (Or.inr (Or.inl known))
        · exact Or.inr (Or.inr (Or.inr trying))
      · refine Or.inl (Or.inl ?_)
        rw [entries]
        exact still
    · refine Or.inl (Or.inr ?_)
      rw [packets]
      exact flying
  · exact fun a c trying => Or.inl (connects _ trying)

end Visit

theorem sound_visit (sound : Sound hosts s) (index : Nat) (order : GoMap.Iteration Bytes Int)
    (now : Int) (favourable : s.Favourable hosts (.visit index order now)) :
    Sound hosts (s.step hosts (.visit index order now)) := by
  rw [step]
  split
  · next i entry found =>
      exact sound_visitEntry order now (sound.withEntries fun _ => List.mem_of_mem_eraseIdx)
        (favourable _ found) (sound.named i entry (List.mem_of_getElem? found))
  · exact sound

theorem advances_visit (sound : Sound hosts s) (index : Nat) (order : GoMap.Iteration Bytes Int)
    (now : Int) (favourable : s.Favourable hosts (.visit index order now)) :
    Gossip.Advances (s.gossip hosts) ((s.step hosts (.visit index order now)).gossip hosts) := by
  rw [step]
  split
  · next i entry found =>
      refine advances_visitEntry order now sound (favourable _ found)
        (fun _ => List.mem_of_mem_eraseIdx) ?_
      intro other member
      exact or_iff_not_imp_left.mpr fun differ => InFlight.mem_eraseIdx_of_ne found differ member
  · exact .refl _

theorem trying_endDiscoveryConnect (index : Nat)
    (favourable : s.Favourable hosts (.endDiscoveryConnect index)) (a c : I)
    (trying : (s.gossip hosts).trying a c) :
    ((s.step hosts (.endDiscoveryConnect index)).gossip hosts).trying a c ∨
      ((s.step hosts (.endDiscoveryConnect index)).gossip hosts).knows a c := by
  rw [step]
  split
  · next i entry found =>
      by_cases same : (a, hosts.entry c) = (i, entry)
      · cases same
        exact Or.inr (favourable _ found)
      · exact Or.inl (InFlight.mem_eraseIdx_of_ne found same trying)
  · exact Or.inl trying

theorem step_endDiscoveryConnect (index : Nat) :
    ∃ sem connects, s.step hosts (.endDiscoveryConnect index) = { s with sem, connects } := by
  rw [step]
  split
  · exact ⟨_, _, rfl⟩
  · exact ⟨s.sem, s.connects, rfl⟩

theorem advances_endDiscoveryConnect (index : Nat)
    (favourable : s.Favourable hosts (.endDiscoveryConnect index)) :
    Gossip.Advances (s.gossip hosts)
      ((s.step hosts (.endDiscoveryConnect index)).gossip hosts) := by
  have reaches := trying_endDiscoveryConnect index favourable
  obtain ⟨sem, connects, same⟩ := step_endDiscoveryConnect (s := s) index
  rw [same] at reaches ⊢
  refine { Gossip.Advances.refl (s.gossip hosts) with reaches, follows := ?_ }
  exact fun a c told => Or.inl told

theorem sound_endDiscoveryConnect (sound : Sound hosts s) (index : Nat)
    (favourable : s.Favourable hosts (.endDiscoveryConnect index)) :
    Sound hosts (s.step hosts (.endDiscoveryConnect index)) := by
  have reaches := trying_endDiscoveryConnect index favourable
  obtain ⟨sem, connects, same⟩ := step_endDiscoveryConnect (s := s) index
  rw [same] at reaches ⊢
  refine { sound with remembered := ?_ }
  intro a c listed
  rcases sound.remembered a c listed with trying | known
  · exact reaches a c trying
  · exact Or.inr known

end Connects

/-! Whole runs. -/

section Runs

variable [DecidableEq I]

def Growing (hosts : MeshHosts env I) (s : Mesh I) : Prop :=
  Sound hosts s ∧ (s.gossip hosts).Closing

theorem growing_step (growing : Growing hosts s) (event : MeshEvent I)
    (favourable : s.Favourable hosts event) : Growing hosts (s.step hosts event) := by
  obtain ⟨sound, closing⟩ := growing
  cases event with
  | established i j session now =>
      exact ⟨sound_established now sound favourable.1 favourable.2,
        (advances_established now sound favourable.1 favourable.2).closing closing⟩
  | deliver index j =>
      exact ⟨sound_deliver index sound favourable,
        (advances_deliver index sound favourable).closing closing⟩
  | visit index order now =>
      exact ⟨sound_visit sound index order now favourable,
        (advances_visit sound index order now favourable).closing closing⟩
  | endDiscoveryConnect index =>
      exact ⟨sound_endDiscoveryConnect sound index favourable,
        (advances_endDiscoveryConnect index favourable).closing closing⟩

omit [DecidableEq I] in
theorem growing_start (hosts : MeshHosts env I) (cfg : I → Config) (kcpStarted : Bool) :
    Growing hosts (start hosts cfg kcpStarted) := by
  refine ⟨⟨fun i => ⟨rfl, ?_, nofun⟩, nofun, nofun, nofun⟩, ?_, ?_⟩
  · intro peerID p stored
    rw [start, startedNode_peers] at stored
    cases stored
  · intro a b known
    simp [gossip, start] at known
  · intro a b c _ known
    simp [gossip, start] at known

def Settled (s : Mesh I) : Prop := s.packets = [] ∧ s.entries = [] ∧ s.connects = []

omit [DecidableEq I] in
theorem Settled.quiet (settled : s.Settled) : (s.gossip hosts).Quiet := by
  obtain ⟨packets, entries, connects⟩ := settled
  refine ⟨?_, ?_, ?_⟩
  · simp [gossip, packets]
  · simp [gossip, packets, entries]
  · simp [gossip, connects]

/-- As long as handshakes, slots and connects are favourable, discovery ends in full meshes: once nothing
of it is under way, any two nodes that a chain of peers links are peers of each other, whatever the
order in which handshakes, requests, responses and connects took place. -/
theorem discovery_completes (hosts : MeshHosts env I) (cfg : I → Config) (kcpStarted : Bool)
    (events : List (MeshEvent I))
    (favourable : Run.Along (step hosts) (Favourable hosts) (start hosts cfg kcpStarted) events)
    (settled : (Run.run (step hosts) (start hosts cfg kcpStarted) events).Settled) (i j : I)
    (apart : i ≠ j)
    (linked : Relation.ReflTransGen
      ((Run.run (step hosts) (start hosts cfg kcpStarted) events).gossip hosts).knows i j) :
    ((Run.run (step hosts) (start hosts cfg kcpStarted) events).gossip hosts).knows i j ∧
      ((Run.run (step hosts) (start hosts cfg kcpStarted) events).gossip hosts).knows j i := by
  have growing : Growing hosts (Run.run (step hosts) (start hosts cfg kcpStarted) events) :=
    Run.run_keeps _ events (growing_start hosts cfg kcpStarted) favourable fun _ event holds =>
      growing_step holds event
  have known := (growing.2.complete settled.quiet linked).resolve_left apart
  exact ⟨known, growing.2.symm settled.quiet known⟩

instance decidableFavourable (hosts : MeshHosts env I) (s : Mesh I) :
    (event : MeshEvent I) → Decidable (s.Favourable hosts event)
  | .established _ _ _ _ => inferInstanceAs (Decidable (_ ∧ _))
  | .deliver index j => inferInstanceAs (Decidable (∀ sent ∈ s.packets[index]?,
      sent.dest = (hosts.addr j).text →
        (s.node j).isDiscoverySourceAuthenticated (hosts.addr sent.source).text = true ∧
          (s.node j).peers.count ≤ 65535))
  | .visit index _ _ => inferInstanceAs (Decidable (∀ entry ∈ s.entries[index]?,
      s.sem entry.1 < discoveryConnectConcurrencyLimit))
  | .endDiscoveryConnect index => inferInstanceAs (Decidable (∀ connect ∈ s.connects[index]?,
      ((s.node connect.1).peers.get connect.2.1).isSome = true))

end Runs

def threeHosts : MeshHosts .padded (Fin 3) where
  key i := [UInt8.ofNat i.val + 1]
  addr i := ⟨.udp, [UInt8.ofNat i.val + 10]⟩
  id_injective := by
    unfold Function.Injective
    decide
  addr_injective := by
    unfold Function.Injective
    decide
  addr_short _ := by simp

def threeEstablished (i j : Fin 3) : MeshEvent (Fin 3) :=
  .established i j ⟨none, none, some (threeHosts.key j), none⟩ 0

def threeEvents : List (MeshEvent (Fin 3)) :=
  [threeEstablished 1 0, threeEstablished 0 1, threeEstablished 2 1, threeEstablished 1 2,
    .deliver 0 0, .deliver 0 1, .deliver 0 1, .deliver 0 2,
    .deliver 0 1, .deliver 0 0, .deliver 0 2, .deliver 0 1] ++
  List.replicate 6 (.visit 0 .plain 0) ++
  [threeEstablished 0 2, threeEstablished 2 0, .endDiscoveryConnect 0, .endDiscoveryConnect 0,
    .deliver 0 2, .deliver 0 0, .deliver 0 0, .deliver 0 2] ++
  List.replicate 4 (.visit 0 .plain 0)

theorem three_linked : Relation.ReflTransGen ((Run.run (step threeHosts)
    (start threeHosts (fun _ => defaultConfig) true) threeEvents).gossip threeHosts).knows 0 2 := by
  refine .head (b := 1) ?_ (.single ?_)
  all_goals
    change Option.isSome _ = true
    decide +kernel

theorem discovery_completes_three :
    ((Run.run (step threeHosts) (start threeHosts (fun _ => defaultConfig) true)
        threeEvents).gossip threeHosts).knows 0 2 ∧
      ((Run.run (step threeHosts) (start threeHosts (fun _ => defaultConfig) true)
        threeEvents).gossip threeHosts).knows 2 0 :=
  discovery_completes threeHosts (fun _ => defaultConfig) true threeEvents (by decide +kernel)
    (by unfold Settled; decide +kernel) 0 2 (by decide) three_linked

end Mesh

end Tenet
