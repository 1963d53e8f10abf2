import Tenet.Lib.InFlight
import Tenet.Lib.Run
import Tenet.Rehandshake
import Tenet.UdpHandshake

/-! Two nodes that start a handshake with each other over one link. Each of them has one slot for the
handshakes of the link, whichever side started them. -/

namespace Tenet.Glare

open Lib Lib.Run

inductive Start where
  | connect
  | rehandshake
  deriving DecidableEq, Repr

/-- The link as each side sees it, how each side starts its handshake and with which keys. -/
structure Link where
  transport : Transport
  addr : Side → NetAddr
  conn : Side → Option ConnId
  remoteTCPAddr : Side → Bytes
  start : Side → Start
  ephemeral : Side → Key
  tcpEphemeral : Side → Key
  startedAt : Side → Int
  key : Side → Key
  prologue : Bytes

namespace Link

variable (link : Link) (side : Side)

def stateKey : Transport × Bytes := (link.transport, (link.addr side).text)

def first : Message := .one (link.ephemeral side)

def second (drawn : Key) : Message :=
  .two (link.first side) link.prologue drawn (link.key side.other)

def third (drawn : Key) : Message := .three (link.second side drawn) (link.key side)

end Link

/-- The nodes, the messages on their way with their destinations, which sides have registered their
handshake and which have written message 1, and the sessions that each side has completed. -/
structure State where
  node : Side → Node
  flight : List (Side × Message)
  registered : Side → Bool
  written : Side → Bool
  completed : Side → List Session

inductive Event where
  /-- the UDP worker of `Connect` writes message 1 -/
  | write (side : Side)
  | register (side : Side)
  /-- `p` is the record of the other side, as it is on this link -/
  | sendFastRehandshake (side : Side) (p : Peer)
  | deliver (index : Nat) (ephemeral : Key) (now : Int)

section

variable (env : Env) (link : Link)

def slot (s : State) (side : Side) : Option HandshakeState :=
  (s.node side).pendingHandshakes.get (link.stateKey side)

def register (s : State) (side : Side) : State :=
  let built := (s.node side).buildInitiatorHandshakePackets (link.ephemeral side)
    (link.tcpEphemeral side) (link.startedAt side)
  { s with
    node := Function.update s.node side
      ((s.node side).registerPendingHandshakes (link.addr side).text (link.remoteTCPAddr side)
        built.1.1 built.2.1)
    registered := Function.update s.registered side true }

def rehandshake (s : State) (side : Side) (p : Peer) : State :=
  let sent := (s.node side).sendFastRehandshake p (link.ephemeral side) (link.startedAt side) true
  { s with
    node := Function.update s.node side sent.1
    flight := s.flight ++ (handshakeReplies sent.2.1).map (side.other, ·)
    registered := Function.update s.registered side (decide (sent.2.2 = .written))
    written := Function.update s.written side (decide (sent.2.2 = .written)) }

def receive (s : State) (index : Nat) (side : Side) (message : Message) (ephemeral : Key)
    (now : Int) : State :=
  let received := (s.node side).processHandshake env (link.conn side) (link.addr side)
    link.transport message ephemeral now
  { s with
    node := Function.update s.node side received.1
    flight := s.flight.eraseIdx index ++ (handshakeReplies received.2).map (side.other, ·)
    completed := Function.update s.completed side (s.completed side ++
      ((s.node side).completes (link.addr side) link.transport message ephemeral now).toList) }

/-- A side that connects does so over UDP; its worker writes again and again, before and after the
handshake is registered. -/
def step (s : State) : Event → State
  | .write side =>
      if link.start side = .connect ∧ link.transport = .udp then
        { s with
          flight := s.flight ++ [(side.other, link.first side)]
          written := Function.update s.written side true }
      else s
  | .register side =>
      if link.start side = .connect ∧ link.transport = .udp ∧ s.registered side = false then
        register link s side
      else s
  | .sendFastRehandshake side p =>
      if link.start side = .rehandshake ∧ s.registered side = false ∧
          p.transport = link.transport ∧ p.addr = link.addr side ∧ p.conn = link.conn side then
        rehandshake link s side p
      else s
  | .deliver index ephemeral now =>
      match s.flight[index]? with
      | none => s
      | some (side, message) => receive env link s index side message ephemeral now

/-- The handshake that the side started has completed at both ends. -/
def CompletedBoth (s : State) (side : Side) : Prop :=
  ∃ drawn, sessionOf true (link.third side drawn) (link.key side.other) ∈ s.completed side ∧
    sessionOf false (link.third side drawn) (link.key side) ∈ s.completed side.other

/-- When both sides have started a handshake and nothing is on its way, one has completed. -/
def Resolved (s : State) : Prop :=
  s.flight = [] → (∀ side, s.written side = true) → ∃ side, CompletedBoth link s side

/-- A message 1 arrives only where no handshake is pending, a message 2 only where a handshake of the
node's own is pending, and a handshake is registered only where none is pending. -/
def Orderly (s : State) : Event → Prop
  | .register side => slot link s side = none
  | .deliver index _ _ => ∀ delivery ∈ s.flight[index]?,
      match delivery with
      | (side, .one _) => slot link s side = none
      | (side, .two ..) => (slot link s side).any (·.isInitiator) = true
      | (_, .three ..) => True
  | _ => True

/-- A node at its end of the link, before either side has started a handshake. -/
structure Idle (link : Link) (side : Side) (n : Node) : Prop where
  staticKey : n.identity.noisePublicKey = link.key side
  prologue : prologuePrefix ++ n.config.networkPassword = link.prologue
  pending : n.pendingHandshakes.get (link.stateKey side) = none

def begin (node : Side → Node) : State := ⟨node, [], fun _ => false, fun _ => false, fun _ => []⟩

end

def isReply (side : Side) : Side × Message → Bool
  | (_, .one _) => false
  | (destination, .two ..) => decide (destination = side)
  | (destination, .three ..) => decide (destination = side.other)

def replies (side : Side) (flight : List (Side × Message)) : List (Side × Message) :=
  flight.filter (isReply side)

/-- The slot of the side that answers, and what is on its way for the handshake it answers: nothing,
or one message where the slot holds the responder. -/
inductive Answering (link : Link) (s : State) (side : Side) : Prop where
  | empty (slot : slot link s side.other = none) (quiet : replies side s.flight = [])
  | initiating (hs : HandshakeState) (slot : slot link s side.other = some hs)
      (initiating : Initiating hs (link.first side.other) link.prologue (link.key side.other))
      (quiet : replies side s.flight = [])
  | second (hs : HandshakeState) (drawn : Key) (slot : slot link s side.other = some hs)
      (responding : Responding hs (link.second side drawn))
      (reply : replies side s.flight = [(side, link.second side drawn)])
  | third (hs : HandshakeState) (drawn : Key) (slot : slot link s side.other = some hs)
      (responding : Responding hs (link.second side drawn))
      (reply : replies side s.flight = [(side.other, link.third side drawn)])
      (completed : sessionOf true (link.third side drawn) (link.key side.other) ∈ s.completed side)

structure Inv (link : Link) (s : State) : Prop where
  staticKey : ∀ side, (s.node side).identity.noisePublicKey = link.key side
  prologue : ∀ side, prologuePrefix ++ (s.node side).config.networkPassword = link.prologue
  firsts : ∀ side ephemeral, (side, .one ephemeral) ∈ s.flight →
    ephemeral = link.ephemeral side.other
  answering : ∀ side, Answering link s side
  written : ∀ side, s.written side = true → (side.other, link.first side) ∈ s.flight ∨
    (∃ hs sent, slot link s side.other = some hs ∧ Responding hs sent) ∨ CompletedBoth link s side

section Frames

variable {link : Link} {s t : State}

theorem answering_mono {side : Side} (answering : Answering link s side)
    (sameSlot : slot link t side.other = slot link s side.other)
    (sameReplies : replies side t.flight = replies side s.flight)
    (more : ∀ session ∈ s.completed side, session ∈ t.completed side) : Answering link t side := by
  cases answering with
  | empty slot quiet => exact .empty (sameSlot.trans slot) (sameReplies.trans quiet)
  | initiating hs slot initiating quiet =>
      exact .initiating hs (sameSlot.trans slot) initiating (sameReplies.trans quiet)
  | second hs drawn slot responding reply =>
      exact .second hs drawn (sameSlot.trans slot) responding (sameReplies.trans reply)
  | third hs drawn slot responding reply completed =>
      exact .third hs drawn (sameSlot.trans slot) responding (sameReplies.trans reply)
        (more _ completed)

theorem completedBoth_mono {side : Side}
    (more : ∀ each, ∀ session ∈ s.completed each, session ∈ t.completed each)
    (both : CompletedBoth link s side) : CompletedBoth link t side := by
  obtain ⟨drawn, initiator, responder⟩ := both
  exact ⟨drawn, more side _ initiator, more side.other _ responder⟩

/-- A message 1 that was written is still on its way, is being answered or has been. -/
theorem written_mono {side : Side}
    (before : (side.other, link.first side) ∈ s.flight ∨
      (∃ hs sent, slot link s side.other = some hs ∧ Responding hs sent) ∨ CompletedBoth link s side)
    (flying : (side.other, link.first side) ∈ s.flight → (side.other, link.first side) ∈ t.flight)
    (sameSlot : slot link t side.other = slot link s side.other)
    (more : ∀ each, ∀ session ∈ s.completed each, session ∈ t.completed each) :
    (side.other, link.first side) ∈ t.flight ∨
      (∃ hs sent, slot link t side.other = some hs ∧ Responding hs sent) ∨
        CompletedBoth link t side := by
  rcases before with still | responding | both
  · exact Or.inl (flying still)
  · rw [← sameSlot] at responding
    exact Or.inr (Or.inl responding)
  · exact Or.inr (Or.inr (completedBoth_mono more both))

theorem quiet_of_free {side : Side} (answering : Answering link s side.other)
    (free : slot link s side = none) : replies side.other s.flight = [] := by
  cases answering with
  | empty _ quiet => exact quiet
  | initiating _ _ _ quiet => exact quiet
  | second _ _ held =>
      rw [Side.other_other, free] at held
      cases held
  | third _ _ held =>
      rw [Side.other_other, free] at held
      cases held

theorem replies_append (side : Side) (front back : List (Side × Message)) :
    replies side (front ++ back) = replies side front ++ replies side back :=
  List.filter_append front back

theorem replies_first (side each : Side) : replies side [(each.other, link.first each)] = [] := rfl

section Moved

variable {side : Side} {n : Node} (node : t.node = Function.update s.node side n)

include node

theorem moved_staticKey (identity : n.identity = (s.node side).identity) (inv : Inv link s)
    (owner : Side) : (t.node owner).identity.noisePublicKey = link.key owner := by
  rcases side.eq_or_eq_other owner with rfl | rfl
  · rw [node, Function.update_self, identity, inv.staticKey]
  · rw [node, Function.update_of_ne side.other_ne, inv.staticKey]

theorem moved_prologue (config : n.config = (s.node side).config) (inv : Inv link s) (owner : Side) :
    prologuePrefix ++ (t.node owner).config.networkPassword = link.prologue := by
  rcases side.eq_or_eq_other owner with rfl | rfl
  · rw [node, Function.update_self, config, inv.prologue]
  · rw [node, Function.update_of_ne side.other_ne, inv.prologue]

theorem slot_moved : slot link t side = n.pendingHandshakes.get (link.stateKey side) := by
  rw [slot, node, Function.update_self]

theorem slot_other : slot link t side.other = slot link s side.other := by
  rw [slot, node, Function.update_of_ne side.other_ne]
  rfl

end Moved

theorem inv_unmoved (inv : Inv link s) (side : Side) (n : Node)
    (node : t.node = Function.update s.node side n)
    (identity : n.identity = (s.node side).identity) (config : n.config = (s.node side).config)
    (pending : n.pendingHandshakes.get (link.stateKey side) = slot link s side)
    (flight : t.flight = s.flight) (written : ∀ side, t.written side = true → s.written side = true)
    (completed : t.completed = s.completed) : Inv link t := by
  have slots (owner : Side) : slot link t owner = slot link s owner := by
    rcases side.eq_or_eq_other owner with rfl | rfl
    · rw [slot_moved node, pending]
    · exact slot_other node
  have stored (owner : Side) (session : Session) (member : session ∈ s.completed owner) :
      session ∈ t.completed owner := by rwa [completed]
  refine ⟨moved_staticKey node identity inv, moved_prologue node config inv, flight ▸ inv.firsts,
    ?_, ?_⟩
  · intro owner
    exact answering_mono (inv.answering owner) (slots owner.other) (by rw [flight]) (stored owner)
  · intro owner started
    exact written_mono (inv.written owner (written owner started)) (fun flying => flight ▸ flying)
      (slots owner.other) stored

theorem inv_started (inv : Inv link s) (side : Side) (n : Node) (hs : HandshakeState)
    (free : slot link s side = none)
    (identity : n.identity = (s.node side).identity) (config : n.config = (s.node side).config)
    (pending : n.pendingHandshakes.get (link.stateKey side) = some hs)
    (initiating : Initiating hs (link.first side) link.prologue (link.key side))
    (node : t.node = Function.update s.node side n)
    (flight : ∃ firsts, t.flight = s.flight ++ firsts ∧
      (∀ delivery ∈ firsts, delivery = (side.other, link.first side)) ∧
      (t.written side = true → s.written side = true ∨ (side.other, link.first side) ∈ firsts))
    (written : t.written side.other = s.written side.other)
    (completed : t.completed = s.completed) : Inv link t := by
  obtain ⟨firsts, sent, each, wrote⟩ := flight
  have slotSame : slot link t side = some hs := (slot_moved node).trans pending
  have slotOther : slot link t side.other = slot link s side.other := slot_other node
  have quiet (owner : Side) : replies owner t.flight = replies owner s.flight := by
    have nothing : replies owner firsts = [] := by
      rw [replies, List.filter_eq_nil_iff]
      intro delivery member
      rw [each delivery member]
      exact Bool.false_ne_true
    rw [sent, replies_append, nothing, List.append_nil]
  have stored (owner : Side) (session : Session) (member : session ∈ s.completed owner) :
      session ∈ t.completed owner := by rwa [completed]
  refine ⟨moved_staticKey node identity inv, moved_prologue node config inv, ?_, ?_, ?_⟩
  · intro owner ephemeral member
    rw [sent] at member
    rcases List.mem_append.mp member with old | new
    · exact inv.firsts owner ephemeral old
    · cases each _ new
      rw [Side.other_other]
  · intro owner
    rcases side.eq_or_eq_other owner with rfl | rfl
    · exact answering_mono (inv.answering owner) slotOther (quiet owner) (stored owner)
    · have unanswered := quiet_of_free (inv.answering side.other) free
      refine .initiating hs ?_ ?_ ((quiet side.other).trans unanswered)
      · rw [Side.other_other, slotSame]
      · rw [Side.other_other]
        exact initiating
  · intro owner started
    have still : (owner.other, link.first owner) ∈ s.flight →
        (owner.other, link.first owner) ∈ t.flight := by
      intro flying
      rw [sent]
      exact List.mem_append_left firsts flying
    rcases side.eq_or_eq_other owner with rfl | rfl
    · rcases wrote started with earlier | now
      · exact written_mono (inv.written owner earlier) still slotOther stored
      · exact Or.inl (by rw [sent]; exact List.mem_append_right s.flight now)
    · rw [written] at started
      rcases inv.written side.other started with flying | ⟨held, waits, occupied, _⟩ | both
      · exact Or.inl (still flying)
      · rw [Side.other_other, free] at occupied
        cases occupied
      · exact Or.inr (Or.inr (completedBoth_mono stored both))

end Frames

section Starting

variable {env : Env} {link : Link} {s : State}

theorem inv_write (side : Side) (inv : Inv link s) :
    Inv link { s with
      flight := s.flight ++ [(side.other, link.first side)]
      written := Function.update s.written side true } := by
  have quiet (owner : Side) : replies owner (s.flight ++ [(side.other, link.first side)]) =
      replies owner s.flight := by
    rw [replies_append, replies_first, List.append_nil]
  refine ⟨inv.staticKey, inv.prologue, ?_, ?_, ?_⟩
  · intro owner ephemeral member
    rcases List.mem_append.mp member with old | new
    · exact inv.firsts owner ephemeral old
    · cases List.mem_singleton.mp new
      rw [Side.other_other]
  · intro owner
    exact answering_mono (inv.answering owner) rfl (quiet owner) fun _ member => member
  · intro owner started
    by_cases same : owner = side
    · subst same
      exact Or.inl (List.mem_append_right s.flight (List.mem_singleton.mpr rfl))
    · have earlier : s.written owner = true := by
        simpa only [Function.update_of_ne same] using started
      exact (inv.written owner earlier).imp_left (List.mem_append_left _)

theorem initiating_built (n : Node) (side : Side) (staticKey : n.identity.noisePublicKey = link.key side)
    (prologue : prologuePrefix ++ n.config.networkPassword = link.prologue) (now : Int) :
    Initiating (newInitiatorHandshake n.identity.noisePublicKey n.config.networkPassword
      (link.ephemeral side) now).1 (link.first side) link.prologue (link.key side) :=
  ⟨rfl, prologue, staticKey, rfl, rfl⟩

theorem inv_register (side : Side) (overUDP : link.transport = .udp) (inv : Inv link s)
    (free : slot link s side = none) : Inv link (register link s side) := by
  have built := initiating_built (s.node side) side (inv.staticKey side) (inv.prologue side)
    (link.startedAt side)
  refine inv_started (t := register link s side) inv side _ _ free ?_ ?_ ?_ built rfl ?_ rfl rfl
  · rfl
  · rfl
  · have other : link.stateKey side ≠ (.tcp, link.remoteTCPAddr side) := by
      rw [Link.stateKey, overUDP]
      simp
    rw [Node.registerPendingHandshakes, GoMap.get_set, if_neg other, GoMap.get_set,
      if_pos (by rw [Link.stateKey, overUDP])]
    rfl
  · exact ⟨[], (List.append_nil s.flight).symm, nofun, Or.inl⟩

theorem sendFastRehandshake_cases (n : Node) (p : Peer) (ephemeral : Key) (now : Int) :
    let sent := n.sendFastRehandshake p ephemeral now true
    (sent.2.1 = [] ∧ sent.2.2 ≠ .written ∧
        sent.1.pendingHandshakes.get (p.transport, p.addr.text) =
          n.pendingHandshakes.get (p.transport, p.addr.text)) ∨
      (n.pendingHandshakes.get (p.transport, p.addr.text) = none ∧ sent.2.2 = .written ∧
        sent.1.pendingHandshakes.get (p.transport, p.addr.text) = some (n.initiate ephemeral now) ∧
        sent.2.1 = [.sendRaw p.conn p.addr p.transport (.handshake (.one ephemeral))]) := by
  simp only [Node.sendFastRehandshake]
  split
  · exact Or.inl ⟨rfl, nofun, rfl⟩
  · split
    · exact Or.inl ⟨rfl, nofun, rfl⟩
    · next free =>
        rw [Option.not_isSome_iff_eq_none] at free
        split
        · refine Or.inr ⟨free, rfl, ?_, rfl⟩
          rw [GoMap.get_set, if_pos rfl]
          rfl
        · refine Or.inl ⟨rfl, nofun, ?_⟩
          rw [GoMap.get_delete, if_pos rfl, free]

theorem inv_rehandshake (side : Side) (p : Peer) (transport : p.transport = link.transport)
    (addr : p.addr = link.addr side) (inv : Inv link s) : Inv link (rehandshake link s side p) := by
  obtain ⟨pendingHandshakes, framed, _⟩ := sendFastRehandshake_frame (s.node side) p
    (link.ephemeral side) (link.startedAt side) true
  have identity := congrArg Node.identity framed
  have config := congrArg Node.config framed
  have stateKey : (p.transport, p.addr.text) = link.stateKey side := by
    rw [transport, addr, Link.stateKey]
  have otherWritten : (rehandshake link s side p).written side.other = s.written side.other := by
    simp only [rehandshake, Function.update_of_ne side.other_ne]
  rcases sendFastRehandshake_cases (s.node side) p (link.ephemeral side) (link.startedAt side) with
    ⟨silent, unwritten, same⟩ | ⟨free, written, pending, sent⟩
  · rw [stateKey] at same
    refine inv_unmoved (t := rehandshake link s side p) inv side _ rfl identity config same ?_ ?_ rfl
    · simp only [rehandshake, silent]
      exact List.append_nil s.flight
    · intro owner started
      rcases side.eq_or_eq_other owner with rfl | rfl
      · simp only [rehandshake, Function.update_self, unwritten, decide_false] at started
        cases started
      · rwa [otherWritten] at started
  · rw [stateKey] at free pending
    have built := initiating_built (s.node side) side (inv.staticKey side) (inv.prologue side)
      (link.startedAt side)
    refine inv_started (t := rehandshake link s side p) inv side _ _ free identity config pending
      built rfl ⟨[(side.other, link.first side)], ?_, ?_, ?_⟩ otherWritten rfl
    · simp only [rehandshake, sent]
      rfl
    · intro delivery member
      exact List.mem_singleton.mp member
    · intro _
      exact Or.inr (List.mem_singleton.mpr rfl)

end Starting

section Receiving

variable {env : Env} {link : Link} {s : State} {index : Nat} {side : Side} {message : Message}
  (ephemeral : Key) (now : Int)

theorem receive_completed_mono (owner : Side) (session : Session)
    (member : session ∈ s.completed owner) :
    session ∈ (receive env link s index side message ephemeral now).completed owner := by
  rcases side.eq_or_eq_other owner with rfl | rfl
  · simp only [receive, Function.update_self]
    exact List.mem_append_left _ member
  · simp only [receive, Function.update_of_ne side.other_ne]
    exact member

theorem receive_frame (inv : Inv link s) :
    let t := receive env link s index side message ephemeral now
    (∀ owner, (t.node owner).identity.noisePublicKey = link.key owner) ∧
      (∀ owner, prologuePrefix ++ (t.node owner).config.networkPassword = link.prologue) ∧
      slot link t side.other = slot link s side.other := by
  refine ⟨?_, ?_, slot_other rfl⟩
  · exact moved_staticKey rfl (processHandshake_identity env (s.node side) (link.conn side)
      (link.addr side) link.transport message ephemeral now) inv
  · exact moved_prologue rfl (processHandshake_tables env (s.node side) (link.conn side)
      (link.addr side) link.transport message ephemeral now).2.config inv

theorem slot_receive : slot link (receive env link s index side message ephemeral now) side =
    ((s.node side).processHandshake env (link.conn side) (link.addr side) link.transport message
      ephemeral now).1.pendingHandshakes.get (link.stateKey side) :=
  slot_moved rfl

theorem inv_first (inv : Inv link s) (found : s.flight[index]? = some (side, link.first side.other))
    (free : slot link s side = none) :
    Inv link (receive env link s index side (link.first side.other) ephemeral now) := by
  have first := processHandshake_first env (s.node side) (link.conn side) (link.addr side)
    link.transport (link.first side.other) ephemeral now free
  have answer : .two (link.first side.other)
      (prologuePrefix ++ (s.node side).config.networkPassword) ephemeral
      (s.node side).identity.noisePublicKey = link.second side.other ephemeral := by
    rw [inv.prologue, inv.staticKey, Link.second, Side.other_other]
  have flight : (receive env link s index side (link.first side.other) ephemeral now).flight =
      s.flight.eraseIdx index ++ [(side.other, link.second side.other ephemeral)] := by
    simp only [receive, first, answer]
    rfl
  have taken : slot link (receive env link s index side (link.first side.other) ephemeral now)
      side = some ((s.node side).responding (link.first side.other) ephemeral now) := by
    rw [slot_receive, first, Link.stateKey, GoMap.get_set, if_pos rfl]
  have responding : Responding ((s.node side).responding (link.first side.other) ephemeral now)
      (link.second side.other ephemeral) := ⟨congrArg Stage.awaitThree answer, rfl, rfl⟩
  obtain ⟨staticKey, prologue, other⟩ := receive_frame ephemeral now inv
  refine ⟨staticKey, prologue, ?_, ?_, ?_⟩
  · intro owner drawn member
    rw [flight] at member
    rcases List.mem_append.mp member with old | new
    · exact inv.firsts owner drawn (List.mem_of_mem_eraseIdx old)
    · cases List.mem_singleton.mp new
  · intro owner
    have erased : (s.flight.eraseIdx index).filter (isReply owner) =
        s.flight.filter (isReply owner) := InFlight.filter_eraseIdx_other found rfl
    rcases side.eq_or_eq_other owner with rfl | rfl
    · refine answering_mono (inv.answering owner) other ?_ (receive_completed_mono ephemeral now owner)
      rw [flight, replies_append, replies, erased]
      have unrelated : replies owner [(owner.other, link.second owner.other ephemeral)] = [] := by
        simp [replies, isReply, Link.second, owner.other_ne]
      rw [unrelated, List.append_nil]
      rfl
    · have quiet := quiet_of_free (inv.answering side.other) free
      refine .second _ ephemeral (by rw [Side.other_other, taken]) responding ?_
      rw [flight, replies_append, replies, erased]
      change replies side.other s.flight ++ _ = _
      rw [quiet, List.nil_append]
      simp [replies, isReply, Link.second]
  · intro owner started
    rcases side.eq_or_eq_other owner with rfl | rfl
    · refine written_mono (inv.written owner started) ?_ other (receive_completed_mono ephemeral now)
      intro flying
      rw [flight]
      apply List.mem_append_left
      apply InFlight.mem_eraseIdx_of_ne found _ flying
      intro same
      exact owner.other_ne (congrArg Prod.fst same)
    · refine Or.inr (Or.inl ⟨_, _, ?_, responding⟩)
      rw [Side.other_other, taken]

theorem receive_finished (env : Env) (index : Nat) {hs after : HandshakeState}
    {response : Option Message} {session : Session} (held : slot link s side = some hs)
    (finished : hs.processMessage message = some (after, response, some session)) :
    let t := receive env link s index side message ephemeral now
    slot link t side = none ∧
      t.flight = s.flight.eraseIdx index ++ response.toList.map (side.other, ·) ∧
      session ∈ t.completed side := by
  obtain ⟨pending, replied⟩ := processHandshake_finished_entry env (s.node side) (link.conn side)
    (link.addr side) link.transport message ephemeral now hs after response session held finished
  refine ⟨?_, ?_, ?_⟩
  · rw [slot_receive, pending, Link.stateKey, GoMap.get_delete, if_pos rfl]
  · simp only [receive, replied]
  · have found := pendingHandshake_of_get (s.node side) (link.addr side) link.transport ephemeral now
      hs held
    simp only [receive, Function.update_self, Node.completes, found, finished, Option.bind_some,
      Option.toList_some]
    exact List.mem_append_right _ (List.mem_singleton.mpr rfl)

theorem quiet_of_initiating {hs : HandshakeState} (answering : Answering link s side.other)
    (held : slot link s side = some hs) (initiator : hs.isInitiator = true) :
    replies side.other s.flight = [] ∧
      Initiating hs (link.first side) link.prologue (link.key side) := by
  cases answering with
  | empty slot _ =>
      rw [Side.other_other, held] at slot
      cases slot
  | initiating other slot initiating quiet =>
      rw [Side.other_other] at slot initiating
      rw [held] at slot
      cases slot
      exact ⟨quiet, initiating⟩
  | second other drawn slot responding =>
      rw [Side.other_other, held] at slot
      cases slot
      rw [responding.2.2] at initiator
      cases initiator
  | third other drawn slot responding =>
      rw [Side.other_other, held] at slot
      cases slot
      rw [responding.2.2] at initiator
      cases initiator

theorem inv_second (inv : Inv link s) {answered : Message} {prologue : Bytes} {drawn static : Key}
    (found : s.flight[index]? = some (side, .two answered prologue drawn static))
    {hs : HandshakeState} (held : slot link s side = some hs) (initiator : hs.isInitiator = true) :
    Inv link (receive env link s index side (.two answered prologue drawn static) ephemeral now) := by
  obtain ⟨unanswered, initiating⟩ := quiet_of_initiating (inv.answering side.other) held initiator
  have isReply_side : isReply side (side, .two answered prologue drawn static) = true := by
    simp [isReply]
  have member : (side, .two answered prologue drawn static) ∈ replies side s.flight :=
    List.mem_filter.mpr ⟨List.mem_of_getElem? found, isReply_side⟩
  -- the only answer on its way to this side is the message 2 of the other one
  obtain ⟨responder, reply, waiting, responding, only⟩ : ∃ responder reply,
      slot link s side.other = some responder ∧ Responding responder (link.second side reply) ∧
        replies side s.flight = [(side, link.second side reply)] := by
    cases inv.answering side with
    | empty _ quiet =>
        rw [quiet] at member
        cases member
    | initiating _ _ _ quiet =>
        rw [quiet] at member
        cases member
    | second responder reply slot responding only => exact ⟨responder, reply, slot, responding, only⟩
    | third _ _ _ _ only =>
        rw [only] at member
        exact absurd (congrArg Prod.fst (List.mem_singleton.mp member)) side.other_ne.symm
  obtain ⟨same, emptied⟩ := InFlight.filter_eraseIdx_only found isReply_side only
  have message : .two answered prologue drawn static = link.second side reply :=
    congrArg Prod.snd same
  rw [message]
  rw [message] at found
  have finished : hs.processMessage (link.second side reply) =
      some ({ hs with completed := true }, some (link.third side reply),
        some (sessionOf true (link.third side reply) (link.key side.other))) :=
    initiating_finishes initiating reply (link.key side.other)
  obtain ⟨freed, flight, completed⟩ := receive_finished ephemeral now env index held finished
  obtain ⟨staticKey, prologues, other⟩ := receive_frame ephemeral now inv
  refine ⟨staticKey, prologues, ?_, ?_, ?_⟩
  · intro owner first listed
    rw [flight] at listed
    rcases List.mem_append.mp listed with old | new
    · exact inv.firsts owner first (List.mem_of_mem_eraseIdx old)
    · cases List.mem_singleton.mp new
  · intro owner
    rcases side.eq_or_eq_other owner with rfl | rfl
    · refine .third responder reply (other.trans waiting) responding ?_ completed
      rw [flight, replies_append, replies, emptied]
      simp [replies, isReply, Link.third]
    · refine .empty (by rw [Side.other_other, freed]) ?_
      have erased : (s.flight.eraseIdx index).filter (isReply side.other) =
          s.flight.filter (isReply side.other) :=
        InFlight.filter_eraseIdx_other found (by simp [isReply, Link.second, side.other_ne.symm])
      rw [flight, replies_append, replies, erased]
      change replies side.other s.flight ++ _ = []
      rw [unanswered, List.nil_append]
      simp [replies, isReply, Link.third, side.other_ne]
  · intro owner started
    rcases inv.written owner started with flying | ⟨pending, sent, occupied, waits⟩ | both
    · refine Or.inl ?_
      rw [flight]
      apply List.mem_append_left
      apply InFlight.mem_eraseIdx_of_ne found _ flying
      intro impossible
      cases congrArg Prod.snd impossible
    · rcases side.eq_or_eq_other owner with rfl | rfl
      · exact Or.inr (Or.inl ⟨pending, sent, other.trans occupied, waits⟩)
      · rw [Side.other_other, held] at occupied
        cases occupied
        rw [waits.2.2] at initiator
        cases initiator
    · exact Or.inr (Or.inr (completedBoth_mono (receive_completed_mono ephemeral now) both))

theorem inv_third (inv : Inv link s) {answered : Message} {static : Key}
    (found : s.flight[index]? = some (side, .three answered static)) :
    Inv link (receive env link s index side (.three answered static) ephemeral now) := by
  have isReply_other : isReply side.other (side, .three answered static) = true := by
    simp [isReply]
  have member : (side, .three answered static) ∈ replies side.other s.flight :=
    List.mem_filter.mpr ⟨List.mem_of_getElem? found, isReply_other⟩
  obtain ⟨responder, reply, waiting, responding, only, initiated⟩ : ∃ responder reply,
      slot link s side = some responder ∧ Responding responder (link.second side.other reply) ∧
        replies side.other s.flight = [(side, link.third side.other reply)] ∧
        sessionOf true (link.third side.other reply) (link.key side) ∈ s.completed side.other := by
    cases inv.answering side.other with
    | empty _ quiet =>
        rw [quiet] at member
        cases member
    | initiating _ _ _ quiet =>
        rw [quiet] at member
        cases member
    | second _ _ _ _ only =>
        rw [only] at member
        exact absurd (congrArg Prod.fst (List.mem_singleton.mp member)) side.other_ne.symm
    | third responder reply slot responding only completed =>
        rw [Side.other_other] at slot only completed
        exact ⟨responder, reply, slot, responding, only, completed⟩
  obtain ⟨same, emptied⟩ := InFlight.filter_eraseIdx_only found isReply_other only
  have message : .three answered static = link.third side.other reply := congrArg Prod.snd same
  rw [message]
  rw [message] at found
  have finished : responder.processMessage (link.third side.other reply) =
      some ({ responder with completed := true }, none,
        some (sessionOf false (link.third side.other reply) (link.key side.other))) :=
    responding_finishes responding (link.key side.other)
  obtain ⟨freed, flight, completed⟩ := receive_finished ephemeral now env index waiting finished
  obtain ⟨staticKey, prologues, other⟩ := receive_frame ephemeral now inv
  rw [Option.toList_none, List.map_nil, List.append_nil] at flight
  have both : CompletedBoth link
      (receive env link s index side (link.third side.other reply) ephemeral now) side.other := by
    refine ⟨reply, ?_, ?_⟩
    · rw [Side.other_other]
      exact receive_completed_mono ephemeral now side.other _ initiated
    · rw [Side.other_other]
      exact completed
  refine ⟨staticKey, prologues, ?_, ?_, ?_⟩
  · intro owner first listed
    rw [flight] at listed
    exact inv.firsts owner first (List.mem_of_mem_eraseIdx listed)
  · intro owner
    rcases side.eq_or_eq_other owner with rfl | rfl
    · refine answering_mono (inv.answering owner) other ?_ (receive_completed_mono ephemeral now owner)
      rw [flight]
      apply InFlight.filter_eraseIdx_other found
      simp [isReply, Link.third, owner.other_ne.symm]
    · refine .empty (by rw [Side.other_other, freed]) ?_
      rw [flight]
      exact emptied
  · intro owner started
    rcases side.eq_or_eq_other owner with rfl | rfl
    · refine written_mono (inv.written owner started) ?_ other (receive_completed_mono ephemeral now)
      intro flying
      rw [flight]
      apply InFlight.mem_eraseIdx_of_ne found _ flying
      intro impossible
      cases congrArg Prod.snd impossible
    · exact Or.inr (Or.inr both)

end Receiving

theorem inv_step (env : Env) (link : Link) (s : State) (event : Event) (inv : Inv link s)
    (orderly : Orderly link s event) : Inv link (step env link s event) := by
  cases event with
  | write side =>
      simp only [step]
      split
      · exact inv_write side inv
      · exact inv
  | register side =>
      simp only [step]
      split
      · next starts => exact inv_register side starts.2.1 inv orderly
      · exact inv
  | sendFastRehandshake side p =>
      simp only [step]
      split
      · next onLink => exact inv_rehandshake side p onLink.2.2.1 onLink.2.2.2.1 inv
      · exact inv
  | deliver index ephemeral now =>
      cases found : s.flight[index]? with
      | none =>
          simp only [step, found]
          exact inv
      | some delivery =>
          obtain ⟨side, message⟩ := delivery
          have arrives := orderly (side, message) found
          simp only [step, found]
          cases message with
          | one first =>
              have known := inv.firsts side first (List.mem_of_getElem? found)
              rw [known] at found ⊢
              exact inv_first ephemeral now inv found arrives
          | two answered prologue drawn static =>
              obtain ⟨hs, held, initiator⟩ := (Option.any_eq_true _ _).mp arrives
              exact inv_second ephemeral now inv found held initiator
          | three answered static => exact inv_third ephemeral now inv found

theorem inv_begin (link : Link) (node : Side → Node) (idle : ∀ side, Idle link side (node side)) :
    Inv link (begin node) where
  staticKey side := (idle side).staticKey
  prologue side := (idle side).prologue
  firsts := nofun
  answering side := .empty (idle side.other).pending rfl
  written := nofun

theorem resolved_of_inv {link : Link} {s : State} (inv : Inv link s) : Resolved link s := by
  intro quiet started
  refine ⟨.a, ?_⟩
  rcases inv.written .a (started .a) with flying | ⟨hs, sent, held, responding⟩ | both
  · rw [quiet] at flying
    cases flying
  · -- a responder waits for something that is still on its way
    cases inv.answering .a with
    | empty slot _ =>
        rw [held] at slot
        cases slot
    | initiating other slot initiating _ =>
        rw [held] at slot
        cases slot
        have responder := responding.2.2
        rw [initiating.initiator] at responder
        cases responder
    | second _ _ _ _ reply =>
        rw [quiet] at reply
        cases reply
    | third _ _ _ _ reply =>
        rw [quiet] at reply
        cases reply
  · exact both

/-- In every run in which messages find the slot that they are meant for, the handshakes that both
sides have started complete. -/
theorem glare_resolved (env : Env) (link : Link) (node : Side → Node)
    (idle : ∀ side, Idle link side (node side)) (events : List Event)
    (orderly : Along (step env link) (Orderly link) (begin node) events) :
    Throughout (step env link) (Resolved link) (begin node) events := by
  have always := throughout_keeps (begin node) events (inv_begin link node idle) orderly
    (inv_step env link)
  exact throughout_mono (begin node) events always fun _ inv => resolved_of_inv inv

instance decidableOrderly (link : Link) (s : State) (event : Event) :
    Decidable (Orderly link s event) := by
  unfold Orderly
  split
  · infer_instance
  · refine @Option.decidableForallMem _ _ (fun delivery => ?_) _
    split <;> infer_instance
  · infer_instance

namespace Example

def key : Side → Key
  | .a => [7]
  | .b => [8]

def node (side : Side) : Node :=
  startedNode .padded { defaultConfig with networkPassword := [1] } (newIdentity .padded (key side))
    true

def link (transport : Transport) (kind : AddrKind) (conn : Option ConnId) (start : Start) : Link where
  transport := transport
  addr
    | .a => ⟨kind, [20]⟩
    | .b => ⟨kind, [10]⟩
  conn _ := conn
  remoteTCPAddr
    | .a => [21]
    | .b => [11]
  start _ := start
  ephemeral
    | .a => [1]
    | .b => [2]
  tcpEphemeral
    | .a => [3]
    | .b => [4]
  startedAt _ := 0
  key := key
  prologue := prologuePrefix ++ [1]

def connecting : Link := link .udp .udp none .connect

def oneAfterTheOther : List Event :=
  [.write .a, .register .a, .write .b, .deliver 0 [5] 0, .deliver 1 [6] 0, .deliver 1 [6] 0,
    .register .b, .deliver 0 [6] 0, .deliver 0 [5] 0, .deliver 0 [5] 0]

theorem idle (side : Side) : Idle connecting side (node side) := by
  cases side <;> exact ⟨rfl, rfl, rfl⟩

theorem glare_resolved_one_after_the_other :
    Throughout (step .padded connecting) (Resolved connecting) (begin node) oneAfterTheOther ∧
      (run (step .padded connecting) (begin node) oneAfterTheOther).flight = [] ∧
      ∀ side, (run (step .padded connecting) (begin node) oneAfterTheOther).written side = true :=
  ⟨glare_resolved .padded connecting node idle oneAfterTheOther (by decide +kernel),
    by decide +kernel, fun side => by cases side <;> decide +kernel⟩

def rehandshaking : Link := link .tcp .tcp (some 5) .rehandshake

def connected : Side → Node
  | .a => (((node .a).registerPendingHandshakes [30] [20] (newInitiatorHandshake [7] [1] [9] 0).1
      (newInitiatorHandshake [7] [1] [9] 0).1).processHandshake .padded (some 5) ⟨.tcp, [20]⟩ .tcp
        (.two (.one [9]) (prologuePrefix ++ [1]) [5] [8]) [6] 0).1
  | .b => ((((node .b).processHandshake .padded (some 5) ⟨.tcp, [10]⟩ .tcp (.one [9]) [5]
      0).1).processHandshake .padded (some 5) ⟨.tcp, [10]⟩ .tcp
        (.three (.two (.one [9]) (prologuePrefix ++ [1]) [5] [8]) [7]) [5] 0).1

def record (side : Side) : Peer :=
  newPeer (peerIDOf .padded (key side.other)) (rehandshaking.addr side) (some 5) .tcp .p2p none
    (sessionOf true (.one []) []) 0

/-- Both sides have written message 1 and nothing is on its way, yet neither has completed anything:
each has taken the other's message 1 for an answer to its own. Unconnected nodes drop their
handshakes, connected ones are left with them. -/
theorem crossed_first_messages_unresolved :
    (¬Throughout (step .padded connecting) (Resolved connecting) (begin node)
        [.register .a, .register .b, .write .a, .write .b, .deliver 0 [5] 0, .deliver 0 [6] 0] ∧
      ∀ side, slot connecting (run (step .padded connecting) (begin node)
        [.register .a, .register .b, .write .a, .write .b, .deliver 0 [5] 0, .deliver 0 [6] 0]) side =
          none) ∧
    (¬Throughout (step .padded rehandshaking) (Resolved rehandshaking) (begin connected)
        [.sendFastRehandshake .a (record .a), .sendFastRehandshake .b (record .b),
          .deliver 0 [5] 0, .deliver 0 [6] 0] ∧
      ∀ side, ((slot rehandshaking (run (step .padded rehandshaking) (begin connected)
        [.sendFastRehandshake .a (record .a), .sendFastRehandshake .b (record .b),
          .deliver 0 [5] 0, .deliver 0 [6] 0]) side).any (·.isInitiator)) = true) := by
  have unresolved (link : Link) (nodes : Side → Node) (events : List Event)
      (quiet : (run (step .padded link) (begin nodes) events).flight = [])
      (written : ∀ side, (run (step .padded link) (begin nodes) events).written side = true)
      (nothing : ∀ side, (run (step .padded link) (begin nodes) events).completed side = []) :
      ¬Throughout (step .padded link) (Resolved link) (begin nodes) events := by
    intro always
    obtain ⟨side, drawn, completed, _⟩ := throughout_run _ _ always quiet written
    rw [nothing] at completed
    cases completed
  refine ⟨⟨unresolved _ _ _ ?_ ?_ ?_, ?_⟩, ⟨unresolved _ _ _ ?_ ?_ ?_, ?_⟩⟩
  · decide +kernel
  · intro side
    cases side <;> decide +kernel
  · intro side
    cases side <;> decide +kernel
  · intro side
    cases side <;> decide +kernel
  · decide +kernel
  · intro side
    cases side <;> decide +kernel
  · intro side
    cases side <;> decide +kernel
  · intro side
    cases side <;> decide +kernel

end Example

end Tenet.Glare
