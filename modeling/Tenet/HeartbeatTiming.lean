import Tenet.FrameLength
import Tenet.Lib.KeepAlive
import Tenet.LinkKeeping

/-! `node/heartbeat.go` in time: two connected nodes that send heartbeats to each other over a network
that delays and loses them. -/

namespace Tenet

open Lib Run KeepAlive

namespace Node

def sendHeartbeats (n : Node) (timestamp : Nat) : List Effect :=
  n.sendToPeers (buildHeartbeatPacket timestamp)

def checkHeartbeat (heartbeatTimeout now : Int) (state : Node × List Effect) (peerID : Bytes) :
    Node × List Effect :=
  match state.1.peers.get peerID with
  | none => state
  | some p =>
      if now - p.lastSeen > heartbeatTimeout then
        ((state.1.removePeerWithReconnect peerID true).1,
          state.2 ++ (state.1.removePeerWithReconnect peerID true).2)
      else state

def checkHeartbeatTimeouts (n : Node) (heartbeatTimeout now : Int) : Node × List Effect :=
  n.peers.ids.foldl (checkHeartbeat heartbeatTimeout now) (n, [])

def handleKeepAlive (n : Node) (conn : Option ConnId) (remoteAddr : NetAddr) (transport : Transport)
    (packet : Bytes) (now : Int) (timestamp : Nat) : Node × List Effect :=
  if isTent packet then
    if packet[4]? = some packetTypeHeartbeat then
      n.processHeartbeat conn remoteAddr transport now timestamp
    else if packet[4]? = some packetTypeHeartbeatAck then
      (n.processHeartbeatAck remoteAddr.text now, [])
    else (n, [])
  else (n, [])

theorem checkHeartbeat_peers (heartbeatTimeout now : Int) (state : Node × List Effect)
    (peerID id : Bytes) :
    (checkHeartbeat heartbeatTimeout now state peerID).1.peers.get id =
      if id = peerID then
        (state.1.peers.get id).filter fun p => decide (now - p.lastSeen ≤ heartbeatTimeout)
      else state.1.peers.get id := by
  unfold checkHeartbeat
  split
  · next absent =>
      by_cases same : id = peerID
      · rw [if_pos same, same, absent]
        rfl
      · rw [if_neg same]
  · next p stored =>
      split
      · next late =>
          rw [removePeerWithReconnect_peers]
          by_cases same : id = peerID
          · rw [if_pos same, if_pos same, same, stored, Option.filter_some, if_neg]
            rw [decide_eq_true_iff]
            omega
          · rw [if_neg same, if_neg same]
      · next prompt =>
          by_cases same : id = peerID
          · rw [if_pos same, same, stored, Option.filter_some, if_pos]
            rw [decide_eq_true_iff]
            omega
          · rw [if_neg same]

theorem checkHeartbeat_addrToPeer (heartbeatTimeout now : Int) (state : Node × List Effect)
    (peerID addr id : Bytes) (mapped : state.1.addrToPeer.get addr = some id)
    (prompt : ∀ p, state.1.peers.get id = some p → now - p.lastSeen ≤ heartbeatTimeout) :
    (checkHeartbeat heartbeatTimeout now state peerID).1.addrToPeer.get addr = some id := by
  unfold checkHeartbeat
  split
  · exact mapped
  · next p stored =>
      split
      · next late =>
          rw [removePeerWithReconnect_addrToPeer, mapped, if_neg]
          rintro ⟨_, same⟩
          cases same
          have := prompt p stored
          omega
      · exact mapped

theorem foldl_checkHeartbeat_peers (heartbeatTimeout now : Int) (ids : List Bytes)
    (state : Node × List Effect) (id : Bytes) :
    (ids.foldl (checkHeartbeat heartbeatTimeout now) state).1.peers.get id =
      if id ∈ ids then
        (state.1.peers.get id).filter fun p => decide (now - p.lastSeen ≤ heartbeatTimeout)
      else state.1.peers.get id := by
  induction ids generalizing state with
  | nil => rfl
  | cons first rest ih =>
      rw [List.foldl_cons, ih, checkHeartbeat_peers]
      by_cases same : id = first
      · rw [if_pos same, if_pos (List.mem_cons.mpr (Or.inl same))]
        split
        · rw [Option.filter_filter]
          simp only [Bool.and_self]
        · rfl
      · rw [if_neg same]
        simp only [List.mem_cons, same, false_or]

theorem checkHeartbeatTimeouts_peers (n : Node) (heartbeatTimeout now : Int) (id : Bytes) :
    (n.checkHeartbeatTimeouts heartbeatTimeout now).1.peers.get id =
      (n.peers.get id).filter fun p => decide (now - p.lastSeen ≤ heartbeatTimeout) := by
  rw [checkHeartbeatTimeouts, foldl_checkHeartbeat_peers]
  split
  · rfl
  · next unlisted =>
      have absent : n.peers.get id = none := by
        by_contra present
        exact unlisted ((n.peers.mem_ids id).mpr (Option.ne_none_iff_exists'.mp present))
      rw [absent]
      rfl

theorem checkHeartbeatTimeouts_addrToPeer (n : Node) (heartbeatTimeout now : Int)
    (addr id : Bytes) (mapped : n.addrToPeer.get addr = some id)
    (prompt : ∀ p, n.peers.get id = some p → now - p.lastSeen ≤ heartbeatTimeout) :
    (n.checkHeartbeatTimeouts heartbeatTimeout now).1.addrToPeer.get addr = some id := by
  unfold checkHeartbeatTimeouts
  generalize n.peers.ids = ids
  have general (state : Node × List Effect) (mapped : state.1.addrToPeer.get addr = some id)
      (prompt : ∀ p, state.1.peers.get id = some p → now - p.lastSeen ≤ heartbeatTimeout) :
      (ids.foldl (checkHeartbeat heartbeatTimeout now) state).1.addrToPeer.get addr = some id := by
    induction ids generalizing state with
    | nil => exact mapped
    | cons first rest ih =>
        refine ih _ (checkHeartbeat_addrToPeer _ _ state first addr id mapped prompt) ?_
        intro p stored
        rw [checkHeartbeat_peers] at stored
        split at stored
        · exact prompt p (Option.filter_eq_some_iff.mp stored).1
        · exact prompt p stored
  exact general (n, []) mapped prompt

end Node

structure SentPacket where
  packet : Bytes
  sentAt : Int
  fate : Fate
  deriving DecidableEq, Repr

def SentPacket.settle (change : Fate → Fate) (sent : SentPacket) : SentPacket :=
  { sent with fate := change sent.fate }

/-- What connects two nodes: who they are to each other, the address under which each side sees the
other, the ends of a TCP connection if there is one, and the two timeouts. -/
structure KeepAliveLink where
  id : Side → Bytes
  addr : Side → NetAddr
  conn : Side → Option ConnId
  transport : Transport
  timeout : Side → Int
  usable : ∀ side, if transport = .tcp then (conn side).isSome = true
    else conn side = none ∧ (addr side).kind = .udp

def KeepAliveLink.carried (link : KeepAliveLink) (side : Side) : Effect → Option Bytes
  | .writeToUDP addr packet =>
      if link.conn side = none ∧ addr = (link.addr side.other).text then some packet else none
  | .write (.tcp conn) frame => if link.conn side = some conn then some (frame.drop 2) else none
  | _ => none

structure Heartbeating where
  node : Side → Node
  /-- what was sent to each side, the newest in front -/
  inbound : Side → List SentPacket
  lastSent : Side → Int
  lastCheck : Side → Int
  now : Int

inductive HeartbeatEvent where
  | sendHeartbeats (side : Side) (now : Int) (timestamp : Nat)
  | checkHeartbeatTimeouts (side : Side) (now : Int)
  | deliver (side : Side) (index : Nat) (now : Int) (timestamp : Nat)
  | lose (side : Side) (index : Nat)
  /-- anything else that a node does -/
  | perform (side : Side) (activity : Activity) (now : Int)

namespace Heartbeating

def posted (link : KeepAliveLink) (side : Side) (effects : List Effect) (now : Int) :
    List SentPacket :=
  (effects.filterMap (link.carried side)).map (⟨·, now, .inFlight⟩)

def step (env : Env) (aead : Aead) (link : KeepAliveLink) (s : Heartbeating) :
    HeartbeatEvent → Heartbeating
  | .sendHeartbeats side now timestamp =>
      { s with
        inbound := Function.update s.inbound side.other
          (posted link side ((s.node side).sendHeartbeats timestamp) now ++ s.inbound side.other)
        lastSent := Function.update s.lastSent side now
        now }
  | .checkHeartbeatTimeouts side now =>
      { s with
        node := Function.update s.node side
          ((s.node side).checkHeartbeatTimeouts (link.timeout side) now).1
        lastCheck := Function.update s.lastCheck side now
        now }
  | .deliver side index now timestamp =>
      match (s.inbound side)[index]? with
      | none => { s with now }
      | some sent =>
          let handled := (s.node side).handleKeepAlive (link.conn side) (link.addr side.other)
            link.transport sent.packet now timestamp
          { s with
            node := Function.update s.node side handled.1
            inbound := Function.update
              (Function.update s.inbound side
                ((s.inbound side).modify index (SentPacket.settle fun _ => .arrived)))
              side.other
              (posted link side (handled.2.flatMap Effect.written) now ++ s.inbound side.other)
            now }
  | .lose side index =>
      { s with
        inbound := Function.update s.inbound side
          ((s.inbound side).modify index (SentPacket.settle .lose)) }
  | .perform side activity now =>
      { s with
        node := Function.update s.node side ((s.node side).perform env aead activity).1
        now }

def beatOf (sent : SentPacket) : Option Beat :=
  if sent.packet[4]? = some packetTypeHeartbeat then some ⟨sent.sentAt, sent.fate⟩ else none

def beats (inbound : List SentPacket) : List Beat := inbound.filterMap beatOf

/-- The record of the other side: on the link, and found by its address. -/
structure Holds (link : KeepAliveLink) (side : Side) (n : Node) (p : Peer) : Prop where
  stored : n.peers.get (link.id side.other) = some p
  conn : p.conn = link.conn side
  addr : p.addr = link.addr side.other
  transport : p.transport = link.transport
  mapped : n.addrToPeer.get (link.addr side.other).text = some (link.id side.other)

/-- What is heard of the other side is heard now, and a handshake with it is one over the link. -/
def OnLink (link : KeepAliveLink) (side : Side) (now : Int) : Activity → Prop
  | .heartbeat _ _ _ time _ | .heartbeatAck _ time => time = now
  | .handshake conn remoteAddr transport _ _ time => conn = link.conn side ∧
      remoteAddr = link.addr side.other ∧ transport = link.transport ∧ time = now
  | _ => True

/-- An activity that does not remove the other side, gives its address to nobody else and does not move
it to another link. -/
structure Spares (env : Env) (link : KeepAliveLink) (side : Side) (now : Int) (n : Node)
    (activity : Activity) : Prop where
  kept : ¬ activity.drops n (link.id side.other)
  sole : ¬ activity.takes env n (link.id side.other) (link.addr side.other).text
  onLink : activity.hears env n (link.id side.other) → OnLink link side now activity

/-- Nobody beats late, and nothing is underway for too long. -/
def OnTime (period delay : Int) (s : Heartbeating) (now : Int) : Prop :=
  s.now ≤ now ∧ ∀ side, now ≤ s.lastSent side + period ∧
    ∀ sent ∈ s.inbound side, sent.fate = .inFlight → now ≤ sent.sentAt + delay

/-- The network and the tickers do what is expected of them: beats are sent in time and arrive in
time or are lost, but not more than so many of them in a row. -/
def Punctual (env : Env) (link : KeepAliveLink) (period delay : Int) (losses : Nat)
    (s : Heartbeating) : HeartbeatEvent → Prop
  | .sendHeartbeats _ now _ => OnTime period delay s now
  | .checkHeartbeatTimeouts _ now => OnTime period delay s now
  | .deliver _ _ now _ => OnTime period delay s now
  | .lose side index =>
      missed (beats ((s.inbound side).modify index (SentPacket.settle .lose))) ≤ losses
  | .perform side activity now =>
      OnTime period delay s now ∧ Spares env link side now (s.node side) activity

def IsKeepAlive (packet : Bytes) : Prop :=
  ∃ timestamp, packet = buildHeartbeatPacket timestamp ∨ packet = buildHeartbeatAckPacket timestamp

/-- What a side has heard and what is still on its way to it, as long as everything is punctual. -/
structure Heard (period : Int) (losses : Nat) (start lastSent now lastSeen : Int)
    (inbound : List SentPacket) : Prop where
  past : lastSeen ≤ now
  regular : Regular period start lastSeen (beats inbound)
  latest : latest start (beats inbound) = lastSent
  few : missed (beats inbound) ≤ losses
  keepAlive : ∀ sent ∈ inbound, IsKeepAlive sent.packet ∧ sent.sentAt ≤ now

def Kept (link : KeepAliveLink) (period : Int) (losses : Nat) (start : Side → Int)
    (s : Heartbeating) (side : Side) : Prop :=
  ∃ p, Holds link side (s.node side) p ∧
    Heard period losses (start side.other) (s.lastSent side.other) s.now p.lastSeen (s.inbound side)

theorem carried_sendRaw (link : KeepAliveLink) (side : Side) (packet : Bytes) :
    (sendRaw (link.conn side) (link.addr side.other) link.transport packet).filterMap
      (link.carried side) = [packet] := by
  have usable := link.usable side
  have other := link.usable side.other
  by_cases tcp : link.transport = .tcp
  · rw [if_pos tcp] at usable
    obtain ⟨conn, connected⟩ := Option.isSome_iff_exists.mp usable
    rw [tcp, connected, sendRaw]
    simp only [List.filterMap_cons, KeepAliveLink.carried, connected, if_true]
    rfl
  · rw [if_neg tcp] at usable other
    rw [usable.1]
    unfold sendRaw
    split
    · next impossible => cases impossible
    · simp only [other.2, if_true, List.filterMap_cons, KeepAliveLink.carried, usable.1, and_self,
        List.filterMap_nil]

theorem carried_sendToPeers (link : KeepAliveLink) (side : Side) (n : Node) (packet carried : Bytes)
    (member : carried ∈ (n.sendToPeers packet).filterMap (link.carried side)) : carried = packet := by
  obtain ⟨effect, listed, same⟩ := List.mem_filterMap.mp member
  obtain ⟨peerID, _, sent⟩ := List.mem_flatMap.mp listed
  obtain ⟨p, _, sent⟩ := List.mem_flatMap.mp sent
  unfold sendRaw at sent
  repeat' split at sent
  · cases List.mem_singleton.mp sent
    exact (Option.some.inj (Option.ite_none_right_eq_some.mp same).2).symm
  · cases List.mem_singleton.mp sent
    exact (Option.some.inj (Option.ite_none_right_eq_some.mp same).2).symm
  · cases sent

theorem sendToPeers_carried (link : KeepAliveLink) (side : Side) (n : Node) (p : Peer)
    (packet : Bytes) (holds : Holds link side n p) :
    packet ∈ (n.sendToPeers packet).filterMap (link.carried side) := by
  have sent : packet ∈ (sendRaw p.conn p.addr p.transport packet).filterMap (link.carried side) := by
    rw [holds.conn, holds.addr, holds.transport, carried_sendRaw]
    exact List.mem_singleton_self packet
  obtain ⟨effect, listed, carried⟩ := List.mem_filterMap.mp sent
  refine List.mem_filterMap.mpr ⟨effect, List.mem_flatMap.mpr ⟨link.id side.other, ?_, ?_⟩, carried⟩
  · exact (n.peers.mem_ids _).mpr ⟨p, holds.stored⟩
  · refine List.mem_flatMap.mpr ⟨p, ?_, listed⟩
    rw [holds.stored]
    exact List.mem_singleton_self p

theorem beats_sendHeartbeats (link : KeepAliveLink) (side : Side) (n : Node) (p : Peer)
    (timestamp : Nat) (now : Int) (holds : Holds link side n p) (inbound : List SentPacket) :
    ∃ count, beats (posted link side (n.sendHeartbeats timestamp) now ++ inbound) =
      List.replicate (count + 1) ⟨now, .inFlight⟩ ++ beats inbound := by
  let packets := (n.sendHeartbeats timestamp).filterMap (link.carried side)
  have each : ∀ packet ∈ packets, packet = buildHeartbeatPacket timestamp := fun packet member =>
    carried_sendToPeers link side n _ packet member
  have some_sent : buildHeartbeatPacket timestamp ∈ packets := sendToPeers_carried link side n p _ holds
  have all : (packets.map fun packet => (⟨packet, now, .inFlight⟩ : SentPacket)).filterMap beatOf =
      List.replicate packets.length ⟨now, .inFlight⟩ := by
    rw [List.eq_replicate_of_mem each, List.map_replicate, List.length_replicate,
      List.filterMap_replicate_of_some]
    rfl
  have positive : packets.length ≠ 0 := by
    rw [Ne, List.length_eq_zero_iff]
    exact List.ne_nil_of_mem some_sent
  obtain ⟨count, length⟩ := Nat.exists_eq_succ_of_ne_zero positive
  refine ⟨count, ?_⟩
  rw [beats, List.filterMap_append, posted, ← Nat.succ_eq_add_one, ← length]
  exact congrArg (· ++ _) all

theorem handleKeepAlive_node (link : KeepAliveLink) (side : Side) (n : Node) (p : Peer)
    (packet : Bytes) (now : Int) (timestamp : Nat) (holds : Holds link side n p)
    (keepAlive : IsKeepAlive packet) :
    (n.handleKeepAlive (link.conn side) (link.addr side.other) link.transport packet now timestamp).1 =
      { n with peers := n.peers.add (p.updateLastSeen now) } := by
  have found : n.peerAt (link.addr side.other).text = some p := by
    rw [Node.peerAt, holds.mapped, Option.bind_some, holds.stored]
  obtain ⟨sentAt, rfl | rfl⟩ := keepAlive
  · have tent : isTent (buildHeartbeatPacket sentAt) = true := isTent_tentPacket ..
    have typed : (buildHeartbeatPacket sentAt)[4]? = some packetTypeHeartbeat := rfl
    rw [Node.handleKeepAlive, if_pos tent, if_pos typed, Node.processHeartbeat, found]
  · have tent : isTent (buildHeartbeatAckPacket sentAt) = true := isTent_tentPacket ..
    have typed : (buildHeartbeatAckPacket sentAt)[4]? = some packetTypeHeartbeatAck := rfl
    rw [Node.handleKeepAlive, if_pos tent, typed, if_neg (by decide), if_pos rfl,
      Node.processHeartbeatAck, found]

theorem handleKeepAlive_replies (link : KeepAliveLink) (side : Side) (n : Node) (packet : Bytes)
    (now : Int) (timestamp : Nat) (sent : SentPacket)
    (member : sent ∈ posted link side ((n.handleKeepAlive (link.conn side) (link.addr side.other)
      link.transport packet now timestamp).2.flatMap Effect.written) now) :
    sent.packet = buildHeartbeatAckPacket timestamp ∧ sent.sentAt = now := by
  have answers : ∀ effect ∈ (n.handleKeepAlive (link.conn side) (link.addr side.other)
      link.transport packet now timestamp).2, effect = .sendRaw (link.conn side)
        (link.addr side.other) link.transport (.raw (buildHeartbeatAckPacket timestamp)) := by
    intro effect listed
    unfold Node.handleKeepAlive at listed
    split at listed
    · split at listed
      · unfold Node.processHeartbeat at listed
        split at listed <;> exact List.mem_singleton.mp listed
      · split at listed <;> cases listed
    · cases listed
  obtain ⟨carried, listed, rfl⟩ := List.mem_map.mp member
  obtain ⟨effect, written, same⟩ := List.mem_filterMap.mp listed
  obtain ⟨answer, answered, written⟩ := List.mem_flatMap.mp written
  rw [answers answer answered, Effect.written] at written
  have one : carried ∈ (sendRaw (link.conn side) (link.addr side.other) link.transport
      (buildHeartbeatAckPacket timestamp)).filterMap (link.carried side) :=
    List.mem_filterMap.mpr ⟨effect, written, same⟩
  rw [carried_sendRaw] at one
  exact ⟨List.mem_singleton.mp one, rfl⟩

theorem beats_acks (inbound acks : List SentPacket) (timestamp : Nat)
    (all : ∀ sent ∈ acks, sent.packet = buildHeartbeatAckPacket timestamp) :
    beats (acks ++ inbound) = beats inbound := by
  rw [beats, List.filterMap_append, List.filterMap_eq_nil_iff.mpr, List.nil_append]
  · rfl
  · intro sent member
    rw [beatOf, all sent member]
    rfl

theorem beats_settle (inbound : List SentPacket) (index : Nat) (change : Fate → Fate) :
    ∃ position, beats (inbound.modify index (SentPacket.settle change)) =
      (beats inbound).modify position (Beat.settle change) := by
  apply filterMap_modify
  intro sent
  unfold beatOf SentPacket.settle
  split <;> rfl

theorem mem_settle {inbound : List SentPacket} {index : Nat} {change : Fate → Fate}
    {sent : SentPacket} (member : sent ∈ inbound.modify index (SentPacket.settle change)) :
    ∃ old ∈ inbound, old.packet = sent.packet ∧ old.sentAt = sent.sentAt := by
  obtain ⟨place, here⟩ := List.mem_iff_getElem?.mp member
  rw [List.getElem?_modify] at here
  obtain ⟨old, there, same⟩ := Option.map_eq_some_iff.mp here
  refine ⟨old, List.mem_of_getElem? there, ?_⟩
  rw [← same]
  split <;> exact ⟨rfl, rfl⟩

theorem mem_beats {inbound : List SentPacket} {beat : Beat} (member : beat ∈ beats inbound) :
    ∃ sent ∈ inbound, sent.sentAt = beat.sentAt ∧ sent.fate = beat.fate := by
  obtain ⟨sent, listed, same⟩ := List.mem_filterMap.mp member
  unfold beatOf at same
  split at same
  · cases same
    exact ⟨sent, listed, rfl, rfl⟩
  · cases same

section Heard

variable {period delay start lastSent now lastSeen : Int} {losses : Nat}
  {inbound sent : List SentPacket}

theorem Heard.later (heard : Heard period losses start lastSent now lastSeen inbound) {after : Int}
    (passed : now ≤ after) : Heard period losses start lastSent after lastSeen inbound :=
  { heard with
    past := Int.le_trans heard.past passed
    keepAlive := fun sent member =>
      ⟨(heard.keepAlive sent member).1, Int.le_trans (heard.keepAlive sent member).2 passed⟩ }

theorem Heard.listen (heard : Heard period losses start lastSent now lastSeen inbound) {seen : Int}
    (later : lastSeen ≤ seen) (past : seen ≤ now) :
    Heard period losses start lastSent now seen inbound :=
  { heard with past, regular := heard.regular.mono later }

theorem Heard.within (heard : Heard period losses start lastSent now lastSeen inbound) {after : Int}
    (forward : 0 ≤ period) (delayed : 0 ≤ delay) (beating : after ≤ lastSent + period)
    (prompt : ∀ sent ∈ inbound, sent.fate = .inFlight → after ≤ sent.sentAt + delay) :
    after - lastSeen ≤ ((losses : Int) + 1) * period + delay := by
  have bound : after ≤ lastSeen + ((losses : Int) + 1) * period + delay := by
    refine heard.regular.heard_within forward delayed (heard.latest.symm ▸ beating) ?_ heard.few
    intro beat member flying
    obtain ⟨sent, listed, sentAt, fate⟩ := mem_beats member
    rw [← sentAt]
    exact prompt sent listed (fate.trans flying)
  omega

theorem Heard.send (heard : Heard period losses start lastSent now lastSeen inbound) {count : Nat}
    (forward : 0 ≤ period) (soon : now ≤ lastSent + period)
    (beating : beats (sent ++ inbound) =
      List.replicate (count + 1) ⟨now, .inFlight⟩ ++ beats inbound)
    (each : ∀ packet ∈ sent, IsKeepAlive packet.packet ∧ packet.sentAt ≤ now) :
    Heard period losses start now now lastSeen (sent ++ inbound) where
  past := heard.past
  regular := by
    rw [beating]
    exact heard.regular.send_replicate forward (heard.latest.symm ▸ soon) (count + 1)
  latest := by
    rw [beating]
    rfl
  few := by
    rw [beating, missed_replicate]
    exact heard.few
  keepAlive := List.forall_mem_append.mpr ⟨each, heard.keepAlive⟩

theorem Heard.answer (heard : Heard period losses start lastSent now lastSeen inbound)
    (same : beats (sent ++ inbound) = beats inbound)
    (each : ∀ packet ∈ sent, IsKeepAlive packet.packet ∧ packet.sentAt ≤ now) :
    Heard period losses start lastSent now lastSeen (sent ++ inbound) where
  past := heard.past
  regular := same.symm ▸ heard.regular
  latest := same.symm ▸ heard.latest
  few := same.symm ▸ heard.few
  keepAlive := List.forall_mem_append.mpr ⟨each, heard.keepAlive⟩

theorem Heard.settle (heard : Heard period losses start lastSent now lastSeen inbound) (index : Nat)
    (change : Fate → Fate)
    (known : ∀ beat ∈ beats inbound, change beat.fate = .arrived → beat.sentAt ≤ lastSeen)
    (few : missed (beats (inbound.modify index (SentPacket.settle change))) ≤ losses) :
    Heard period losses start lastSent now lastSeen
      (inbound.modify index (SentPacket.settle change)) := by
  obtain ⟨position, settled⟩ := beats_settle inbound index change
  refine ⟨heard.past, ?_, ?_, few, ?_⟩
  · rw [settled]
    exact heard.regular.settle position change known
  · rw [settled, latest_settle, heard.latest]
  · intro packet member
    obtain ⟨old, listed, same, sentAt⟩ := mem_settle member
    rw [← same, ← sentAt]
    exact heard.keepAlive old listed

theorem Heard.arrive (heard : Heard period losses start lastSent now lastSeen inbound)
    (index : Nat) :
    Heard period losses start lastSent now now
      (inbound.modify index (SentPacket.settle fun _ => .arrived)) := by
  refine (heard.listen heard.past (Int.le_refl now)).settle index _ ?_ ?_
  · intro beat member _
    obtain ⟨old, listed, sentAt, _⟩ := mem_beats member
    rw [← sentAt]
    exact (heard.keepAlive old listed).2
  · obtain ⟨position, settled⟩ := beats_settle inbound index fun _ => .arrived
    rw [settled]
    exact Nat.le_trans (missed_arrived_le position) heard.few

theorem Heard.lose (heard : Heard period losses start lastSent now lastSeen inbound) (index : Nat)
    (few : missed (beats (inbound.modify index (SentPacket.settle .lose))) ≤ losses) :
    Heard period losses start lastSent now lastSeen
      (inbound.modify index (SentPacket.settle .lose)) := by
  refine heard.settle index _ ?_ few
  intro beat member arrived
  refine heard.regular.heard_of_arrived beat member ?_
  -- a loss turns nothing into an arrival
  cases fate : beat.fate with
  | arrived => rfl
  | inFlight =>
      rw [fate] at arrived
      cases arrived
  | lost =>
      rw [fate] at arrived
      cases arrived

end Heard

section Holds

variable {link : KeepAliveLink} {side : Side} {n : Node} {p : Peer}

theorem Holds.checked (holds : Holds link side n p) (timeout now : Int)
    (prompt : now - p.lastSeen ≤ timeout) :
    Holds link side (n.checkHeartbeatTimeouts timeout now).1 p :=
  { holds with
    stored := by
      rw [Node.checkHeartbeatTimeouts_peers, holds.stored, Option.filter_some,
        if_pos (decide_eq_true prompt)]
    mapped := by
      apply Node.checkHeartbeatTimeouts_addrToPeer _ _ _ _ _ holds.mapped
      intro q stored
      rw [holds.stored] at stored
      cases stored
      exact prompt }

theorem Holds.seen (holds : Holds link side n p) (now : Int) :
    Holds link side { n with peers := n.peers.add (p.updateLastSeen now) } (p.updateLastSeen now) :=
  { holds with
    stored := by
      rw [PeerStore.get_add, if_pos]
      exact (n.peers.get_id _ p holds.stored).symm }

theorem Holds.stays (holds : Holds link side n p) {after : Node} {q : Peer} (stays : p.Stays q)
    (stored : after.peers.get (link.id side.other) = some q)
    (mapped : after.addrToPeer.get (link.addr side.other).text = some (link.id side.other)) :
    Holds link side after q ∧ q.lastSeen = p.lastSeen := by
  obtain ⟨session, remoteChannels, reassemblyBuffer, rehandshake, rfl⟩ := stays
  exact ⟨⟨stored, holds.conn, holds.addr, holds.transport, mapped⟩, rfl⟩

theorem Holds.refreshed (holds : Holds link side n p) (env : Env) (payload : Message)
    (ephemeral : Key) (now : Int)
    (known : (n.handshakeOutcome env (link.addr side.other) link.transport payload ephemeral
      now).peer = some (link.id side.other)) :
    ∃ q, Holds link side (n.processHandshake env (link.conn side) (link.addr side.other)
      link.transport payload ephemeral now).1 q ∧ q.lastSeen = now := by
  have stays : ¬ (link.transport = .tcp ∧ p.transport ≠ .tcp) := by
    rw [holds.transport]
    exact fun both => both.2 both.1
  have takes : ¬ (p.transport = .tcp ∧ link.transport ≠ .tcp) := by
    rw [holds.transport]
    exact fun both => both.2 both.1
  have tables := (processHandshake_tables env n (link.conn side) (link.addr side.other)
    link.transport payload ephemeral now).1
  simp only [Node.handshakeOutcome] at known tables
  rcases result : (n.pendingHandshake (link.transport, (link.addr side.other).text) ephemeral
    now).processMessage payload with _ | ⟨hs, response, _ | session⟩
  · rw [result] at known
    cases known
  · rw [result] at known
    cases known
  · simp only [result] at known tables
    have named := sessionOutcome_peer known
    have outcome : n.sessionOutcome env link.transport session = .refreshed (link.id side.other) := by
      simp only [Node.sessionOutcome, named, holds.stored]
      exact if_neg stays
    rw [outcome] at tables
    obtain ⟨_, _, _, _, _, _, addrToPeer⟩ := tables
    let waiting : Node := { n with
      pendingHandshakes :=
        n.pendingHandshakes.set (link.transport, (link.addr side.other).text) hs }
    obtain ⟨linkMode, relayTarget, peers, _⟩ := sessionEstablished_refresh env waiting
      (link.conn side) (link.addr side.other) link.transport session now p
      (named.symm ▸ holds.stored) stays
    rw [Peer.upgradeTransport, if_neg takes] at peers
    have finished := processHandshake_finished env n (link.conn side) (link.addr side.other)
      link.transport payload ephemeral now hs response session result
    let q : Peer := { p with
      linkMode, relayTarget, addr := link.addr side.other, conn := link.conn side,
      transport := link.transport, session := some session, lastSeen := now, rehandshake := {} }
    refine ⟨q, ⟨?_, rfl, rfl, rfl, addrToPeer ▸ holds.mapped⟩, rfl⟩
    rw [finished, peers, PeerStore.get_add]
    exact if_pos (n.peers.get_id _ p holds.stored).symm

/-- Whatever a node does, if it spares the other side this one is still there, last seen when it was or
just now. -/
theorem Holds.performed (holds : Holds link side n p) {env : Env} (aead : Aead) {now : Int}
    {activity : Activity} (spares : Spares env link side now n activity) (past : p.lastSeen ≤ now) :
    ∃ q, Holds link side (n.perform env aead activity).1 q ∧ p.lastSeen ≤ q.lastSeen ∧
      q.lastSeen ≤ now := by
  by_cases hears : activity.hears env n (link.id side.other)
  · have onLink := spares.onLink hears
    have found {addr : Bytes} (mapped : n.addrToPeer.get addr = some (link.id side.other)) :
        n.peerAt addr = some p := by
      rw [Node.peerAt, mapped, Option.bind_some, holds.stored]
    cases activity with
    | heartbeat conn remoteAddr transport time timestamp =>
        cases onLink
        refine ⟨p.updateLastSeen now, ?_, past, Int.le_refl now⟩
        simp only [Node.perform, Node.processHeartbeat, found hears]
        exact holds.seen now
    | heartbeatAck remoteAddr time =>
        cases onLink
        refine ⟨p.updateLastSeen now, ?_, past, Int.le_refl now⟩
        simp only [Node.perform, Node.processHeartbeatAck, found hears]
        exact holds.seen now
    | handshake conn remoteAddr transport payload ephemeral time =>
        obtain ⟨rfl, rfl, rfl, rfl⟩ := onLink
        obtain ⟨q, after, seen⟩ := holds.refreshed env payload ephemeral time hears
        exact ⟨q, after, seen.symm ▸ past, seen.le⟩
    | _ => cases hears
  · have leaves := perform_leaves n (link.id side.other) (link.addr side.other).text env aead activity
      hears
    have stored : (n.peers.get (link.id side.other)).isSome = true := by
      rw [holds.stored]
      rfl
    obtain ⟨q, after⟩ := Option.isSome_iff_exists.mp (leaves.stored spares.kept stored)
    obtain ⟨before, found, stays⟩ := leaves.record q after
    cases holds.stored.symm.trans found
    obtain ⟨still, seen⟩ :=
      holds.stays stays after (leaves.mapped spares.kept spares.sole stored holds.mapped)
    exact ⟨q, still, seen.ge, seen.le.trans past⟩

end Holds

section Steps

variable {env : Env} {aead : Aead} {link : KeepAliveLink} {period delay : Int} {losses : Nat}
  {start : Side → Int} {s : Heartbeating} {side : Side}

theorem kept_sendHeartbeats (forward : 0 ≤ period) (now : Int) (timestamp : Nat)
    (onTime : OnTime period delay s now)
    (kept : ∀ side, Kept link period losses start s side) (each : Side) :
    Kept link period losses start (s.step env aead link (.sendHeartbeats side now timestamp)) each := by
  obtain ⟨p, holds, before⟩ := kept each
  have heard := before.later onTime.1
  refine ⟨p, holds, ?_⟩
  rcases side.eq_or_eq_other each with rfl | rfl
  · simp only [step, Function.update_of_ne each.other_ne, Function.update_of_ne each.other_ne.symm]
    exact heard
  · obtain ⟨q, there, _⟩ := kept side
    obtain ⟨count, sent⟩ := beats_sendHeartbeats link side (s.node side) q timestamp now there
      (s.inbound side.other)
    simp only [step, side.other_other, Function.update_self]
    rw [side.other_other] at heard
    refine heard.send forward (onTime.2 side).1 sent ?_
    intro packet member
    obtain ⟨carried, listed, rfl⟩ := List.mem_map.mp member
    exact ⟨⟨timestamp, Or.inl (carried_sendToPeers link side _ _ carried listed)⟩, Int.le_refl now⟩

theorem kept_check (forward : 0 ≤ period) (delayed : 0 ≤ delay)
    (enough : ∀ side, ((losses : Int) + 1) * period + delay ≤ link.timeout side) (now : Int)
    (onTime : OnTime period delay s now)
    (kept : ∀ side, Kept link period losses start s side) (each : Side) :
    Kept link period losses start (s.step env aead link (.checkHeartbeatTimeouts side now)) each := by
  obtain ⟨p, holds, heard⟩ := kept each
  refine ⟨p, ?_, heard.later onTime.1⟩
  rcases side.eq_or_eq_other each with rfl | rfl
  · have bound := heard.within forward delayed (onTime.2 each.other).1 (onTime.2 each).2
    simp only [step, Function.update_self]
    exact holds.checked _ now (Int.le_trans bound (enough each))
  · simp only [step, Function.update_of_ne side.other_ne]
    exact holds

theorem kept_deliver (index : Nat) (now : Int) (timestamp : Nat)
    (onTime : OnTime period delay s now)
    (kept : ∀ side, Kept link period losses start s side) (each : Side) :
    Kept link period losses start (s.step env aead link (.deliver side index now timestamp)) each := by
  obtain ⟨p, holds, before⟩ := kept each
  have heard := before.later onTime.1
  unfold step
  dsimp only
  split
  · exact ⟨p, holds, heard⟩
  · next sent arriving =>
      rcases side.eq_or_eq_other each with rfl | rfl
      · refine ⟨p.updateLastSeen now, ?_, ?_⟩
        · have known := (before.keepAlive sent (List.mem_of_getElem? arriving)).1
          dsimp only
          rw [Function.update_self, handleKeepAlive_node link each _ p _ now timestamp holds known]
          exact holds.seen now
        · dsimp only
          rw [Function.update_of_ne each.other_ne.symm, Function.update_self]
          exact heard.arrive index
      · have replies := handleKeepAlive_replies link side (s.node side) sent.packet now timestamp
        refine ⟨p, ?_, ?_⟩
        · dsimp only
          rw [Function.update_of_ne side.other_ne]
          exact holds
        · dsimp only
          rw [Function.update_self]
          refine heard.answer (beats_acks _ _ timestamp fun reply member => (replies reply member).1) ?_
          intro packet member
          obtain ⟨acknowledged, sentAt⟩ := replies packet member
          exact ⟨⟨timestamp, Or.inr acknowledged⟩, sentAt.le⟩

theorem kept_lose (index : Nat)
    (few : missed (beats ((s.inbound side).modify index (SentPacket.settle .lose))) ≤ losses)
    (kept : ∀ side, Kept link period losses start s side) (each : Side) :
    Kept link period losses start (s.step env aead link (.lose side index)) each := by
  obtain ⟨p, holds, heard⟩ := kept each
  refine ⟨p, holds, ?_⟩
  rcases side.eq_or_eq_other each with rfl | rfl
  · simp only [step, Function.update_self]
    exact heard.lose index few
  · simp only [step, Function.update_of_ne side.other_ne]
    exact heard

theorem kept_perform (activity : Activity) (now : Int) (onTime : OnTime period delay s now)
    (spares : Spares env link side now (s.node side) activity)
    (kept : ∀ side, Kept link period losses start s side) (each : Side) :
    Kept link period losses start (s.step env aead link (.perform side activity now)) each := by
  obtain ⟨p, holds, before⟩ := kept each
  have heard := before.later onTime.1
  rcases side.eq_or_eq_other each with rfl | rfl
  · obtain ⟨q, after, later, past⟩ := holds.performed aead spares heard.past
    refine ⟨q, ?_, heard.listen later past⟩
    simp only [step, Function.update_self]
    exact after
  · refine ⟨p, ?_, heard⟩
    simp only [step, Function.update_of_ne side.other_ne]
    exact holds

theorem kept_step (forward : 0 ≤ period) (delayed : 0 ≤ delay)
    (enough : ∀ side, ((losses : Int) + 1) * period + delay ≤ link.timeout side)
    (event : HeartbeatEvent) (punctual : Punctual env link period delay losses s event)
    (kept : ∀ side, Kept link period losses start s side) (each : Side) :
    Kept link period losses start (s.step env aead link event) each := by
  cases event with
  | sendHeartbeats side now timestamp =>
      exact kept_sendHeartbeats forward now timestamp punctual kept each
  | checkHeartbeatTimeouts side now =>
      exact kept_check forward delayed enough now punctual kept each
  | deliver side index now timestamp => exact kept_deliver index now timestamp punctual kept each
  | lose side index => exact kept_lose index punctual kept each
  | perform side activity now => exact kept_perform activity now punctual.1 punctual.2 kept each

end Steps

def Connected (link : KeepAliveLink) (s : Heartbeating) : Prop :=
  ∀ side, ∃ p, Holds link side (s.node side) p

instance decidableOnTime (period delay : Int) (s : Heartbeating) (now : Int) :
    Decidable (OnTime period delay s now) :=
  decidable_of_iff (s.now ≤ now ∧ (now ≤ s.lastSent .a + period ∧
      ∀ sent ∈ s.inbound .a, sent.fate = .inFlight → now ≤ sent.sentAt + delay) ∧
        now ≤ s.lastSent .b + period ∧
          ∀ sent ∈ s.inbound .b, sent.fate = .inFlight → now ≤ sent.sentAt + delay)
    ⟨fun both => ⟨both.1, fun side => match side with
        | .a => both.2.1
        | .b => both.2.2⟩,
      fun all => ⟨all.1, all.2 .a, all.2 .b⟩⟩

def sampleLink : KeepAliveLink where
  id
    | .a => [1]
    | .b => [2]
  addr
    | .a => ⟨.udp, [10]⟩
    | .b => ⟨.udp, [20]⟩
  conn _ := none
  transport := .udp
  timeout _ := 30
  usable side := by cases side <;> decide

def sample : Heartbeating where
  node side :=
    { newNode .padded defaultConfig (newIdentity .padded [1]) with
      peers := PeerStore.empty.add (newPeer (sampleLink.id side.other) (sampleLink.addr side.other)
        none .udp .p2p none ⟨none, none, none, none⟩ 0)
      addrToPeer := (∅ : GoMap Bytes Bytes).set (sampleLink.addr side.other).text
        (sampleLink.id side.other) }
  inbound _ := []
  lastSent _ := 0
  lastCheck _ := 0
  now := 0

def OnSchedule (period : Int) (s : Heartbeating) (now : Int) : Prop :=
  s.now ≤ now ∧ ∀ side, now ≤ s.lastCheck side + period

/-- The link is cut: nothing arrives. -/
def Silent (env : Env) (link : KeepAliveLink) (period : Int) (s : Heartbeating) :
    HeartbeatEvent → Prop
  | .sendHeartbeats _ now _ => OnSchedule period s now
  | .checkHeartbeatTimeouts _ now => OnSchedule period s now
  | .deliver .. => False
  | .lose .. => True
  | .perform side activity now =>
      OnSchedule period s now ∧ ¬ activity.hears env (s.node side) (link.id side.other)

/-- What holds behind the cut: the record is old, and the first check behind the timeout has removed
it. -/
structure Fading (link : KeepAliveLink) (period cut : Int) (s : Heartbeating) (side : Side) : Prop where
  old : ∀ p, (s.node side).peers.get (link.id side.other) = some p → p.lastSeen ≤ cut
  removed : cut + link.timeout side < s.lastCheck side →
    (s.node side).peers.get (link.id side.other) = none
  checked : s.now ≤ s.lastCheck side + period

section Steps

variable {env : Env} {aead : Aead} {link : KeepAliveLink} {period cut : Int} {s : Heartbeating}
  {side : Side}

theorem Fading.untouched (fading : Fading link period cut s side) {t : Heartbeating}
    (node : t.node side = s.node side) (last : t.lastCheck side = s.lastCheck side)
    (checked : t.now ≤ s.lastCheck side + period) : Fading link period cut t side where
  old := node ▸ fading.old
  removed := by
    rw [node, last]
    exact fading.removed
  checked := last ▸ checked

theorem fading_check (forward : 0 ≤ period) (now : Int)
    (schedule : OnSchedule period s now) (fading : ∀ side, Fading link period cut s side)
    (each : Side) :
    Fading link period cut (s.step env aead link (.checkHeartbeatTimeouts side now)) each := by
  have here := fading each
  rcases side.eq_or_eq_other each with rfl | rfl
  · constructor
    all_goals simp only [step, Function.update_self, Node.checkHeartbeatTimeouts_peers]
    · intro p stored
      exact here.old p (Option.filter_eq_some_iff.mp stored).1
    · intro late
      rw [Option.filter_eq_none_iff]
      intro p stored
      have old := here.old p stored
      rw [decide_eq_true_iff]
      omega
    · exact Int.le_add_of_nonneg_right forward
  · exact here.untouched (Function.update_of_ne side.other_ne ..)
      (Function.update_of_ne side.other_ne ..) (schedule.2 side.other)

theorem fading_step (forward : 0 ≤ period) (event : HeartbeatEvent)
    (silent : Silent env link period s event)
    (fading : ∀ side, Fading link period cut s side) (each : Side) :
    Fading link period cut (s.step env aead link event) each := by
  have here := fading each
  cases event with
  | sendHeartbeats side now timestamp => exact here.untouched rfl rfl (silent.2 each)
  | checkHeartbeatTimeouts side now => exact fading_check forward now silent fading each
  | deliver side index now timestamp => cases silent
  | lose side index => exact here.untouched rfl rfl here.checked
  | perform side activity now =>
      rcases side.eq_or_eq_other each with rfl | rfl
      · have leaves := perform_leaves (s.node each) (link.id each.other) (link.addr each.other).text env
          aead activity silent.2
        constructor
        all_goals simp only [step, Function.update_self]
        · intro q stored
          obtain ⟨p, before, _, _, _, _, rfl⟩ := leaves.record q stored
          exact here.old p before
        · intro late
          by_contra stored
          obtain ⟨q, stored⟩ := Option.ne_none_iff_exists'.mp stored
          obtain ⟨p, before, _⟩ := leaves.record q stored
          rw [here.removed late] at before
          cases before
        · exact silent.1.2 each
      · exact here.untouched (Function.update_of_ne side.other_ne ..) rfl (silent.1.2 side.other)

end Steps

/-- No missed alarm: once nothing arrives any more, each side has removed the other by the end of the
timeout and one more period. -/
theorem silence_noticed (env : Env) (aead : Aead) (link : KeepAliveLink) (period cut : Int)
    (s : Heartbeating) (events : List HeartbeatEvent) (forward : 0 ≤ period)
    (old : ∀ side p, (s.node side).peers.get (link.id side.other) = some p → p.lastSeen ≤ cut)
    (checked : ∀ side, s.now ≤ s.lastCheck side + period ∧ s.lastCheck side ≤ cut + link.timeout side)
    (silent : Along (step env aead link) (Silent env link period) s events) (side : Side)
    (late : cut + link.timeout side + period < (run (step env aead link) s events).now) :
    ((run (step env aead link) s events).node side).peers.get (link.id side.other) = none := by
  have initially : ∀ side, Fading link period cut s side := fun side =>
    ⟨old side, fun late => absurd late (Int.not_lt.mpr (checked side).2), (checked side).1⟩
  have fading := run_keeps s events initially silent (fun _ event now allowed =>
    fading_step forward event allowed now) side
  apply fading.removed
  have := fading.checked
  omega

/-- Nothing arrives behind the handshakes, while one side still sends data and the other joins a
channel. -/
theorem silence_noticed_sample :
    ((run (step .padded IdealAead.tagged.toAead sampleLink) sample
      [.sendHeartbeats .a 20 0, .checkHeartbeatTimeouts .a 20, .checkHeartbeatTimeouts .b 20,
        .lose .b 0, .perform .a (.sendAppFrame [2] 0 [7] none fun _ => true) 30,
        .perform .b (.joinChannel [7]) 31, .checkHeartbeatTimeouts .a 40,
        .checkHeartbeatTimeouts .b 40, .checkHeartbeatTimeouts .a 51]).node .a).peers.get [2] =
      none :=
  silence_noticed .padded IdealAead.tagged.toAead sampleLink 20 0 sample _ (by decide)
    (fun side p stored => by
      rw [show (sample.node side).peers.get (sampleLink.id side.other) = some _ from
        (PeerStore.get_add ..).trans (if_pos rfl)] at stored
      cases stored
      exact Int.le_refl 0)
    (fun side => by cases side <;> decide)
    (by
      refine ⟨⟨?_, ?_⟩, ⟨?_, ?_⟩, ⟨?_, ?_⟩, trivial, ⟨⟨?_, ?_⟩, id⟩, ⟨⟨?_, ?_⟩, id⟩, ⟨?_, ?_⟩, ⟨?_, ?_⟩,
        ⟨?_, ?_⟩, trivial⟩
      all_goals first | decide | exact fun side => by cases side <;> decide)
    .a (by decide)

end Heartbeating

end Tenet
