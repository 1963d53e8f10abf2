import Tenet.TcpHandshake

/-! Simultaneous connects over TCP: when the two nodes end up with the same handshake. -/

namespace Tenet.TcpLinks

open Lib

variable {k : Nat} {env : Env} {d : Dialing k}

def needed (d : Dialing k) (side : Side) (conn : Fin k) : Nat :=
  if d.initiator conn = side then 2 else 3

def Completed (d : Dialing k) (side : Side) (history : List (Fin k)) (conn : Fin k) : Prop :=
  needed d side conn ≤ history.count conn

def pending (d : Dialing k) (s : TcpLinks k) (side : Side) (conn : Fin k) : Option HandshakeState :=
  (s.node side).pendingHandshakes.get (.tcp, d.addr side conn)

def Initiates (d : Dialing k) (s : TcpLinks k) (conn : Fin k) : Prop :=
  ∃ hs, s.pending d (d.initiator conn) conn = some hs ∧
    Initiating hs (d.first conn) d.prologue (d.key (d.initiator conn))

def Responds (d : Dialing k) (s : TcpLinks k) (conn : Fin k) : Prop :=
  ∃ hs, s.pending d (d.responder conn) conn = some hs ∧ Responding hs (d.second conn)

def ConnAt (d : Dialing k) (s : TcpLinks k) (conn : Fin k) : Nat → Prop
  | 0 => s.wire conn = [(d.responder conn, d.first conn)] ∧ Initiates d s conn ∧
      s.pending d (d.responder conn) conn = none
  | 1 => s.wire conn = [(d.initiator conn, d.second conn)] ∧ Initiates d s conn ∧ Responds d s conn
  | 2 => s.wire conn = [(d.responder conn, d.third conn)] ∧
      s.pending d (d.initiator conn) conn = none ∧ Responds d s conn
  | _ + 3 => s.wire conn = [] ∧ s.pending d (d.initiator conn) conn = none ∧
      s.pending d (d.responder conn) conn = none

def sessionAt (d : Dialing k) (side : Side) (conn : Fin k) : Session :=
  sessionOf (decide (d.initiator conn = side)) (d.third conn) (d.key side.other)

/-- A node has the session of the handshake that it completed last, and has closed the connections
of the others. -/
def PeerAt (env : Env) (d : Dialing k) (side : Side) (n : Node) (closed : List ConnId)
    (history : List (Fin k)) : Prop :=
  match d.lastCompletion side history with
  | none => n.OffTCP (peerIDOf env (d.key side.other)) ∧ closed = [] ∧
      ∀ conn, ¬ Completed d side history conn
  | some last => Completed d side history last ∧
      (∃ p, n.peers.get (peerIDOf env (d.key side.other)) = some p ∧
        p.session = some (sessionAt d side last) ∧ p.conn = some last.val ∧ p.transport = .tcp) ∧
      ∀ conn : Fin k, conn.val ∈ closed ↔ Completed d side history conn ∧ conn ≠ last

structure Inv (env : Env) (d : Dialing k) (s : TcpLinks k) (history : List (Fin k)) : Prop where
  staticKey : ∀ side, (s.node side).identity.noisePublicKey = d.key side
  prologue : ∀ side, prologuePrefix ++ (s.node side).config.networkPassword = d.prologue
  conns : ∀ conn, ConnAt d s conn (history.count conn)
  peers : ∀ side, PeerAt env d side (s.node side) (s.closed side) history

theorem sessionEstablished_offTCP (n : Node) (peerID : Bytes) (conn : Option ConnId) (addr : NetAddr)
    (session : Session) (now : Int) (remote : peerIDOf env session.remotePublicKey = peerID)
    (offTCP : n.OffTCP peerID) :
    ∃ p, p.id = peerID ∧ p.session = some session ∧ p.conn = conn ∧ p.transport = .tcp ∧
      (n.sessionEstablished env conn addr .tcp session now).1.peers = n.peers.add p ∧
      closedConns (n.sessionEstablished env conn addr .tcp session now).2 = [] := by
  subst remote
  rcases offTCP with ⟨unknown, room⟩ | ⟨existing, known, onUDP⟩
  · rcases sessionEstablished_new env n conn addr .tcp session now unknown room with
      ⟨p, id, live, onConn, transport, peers, _, closed⟩
    exact ⟨p, id, live, onConn, transport, peers, closed⟩
  · exact sessionEstablished_switch env n conn addr session now existing known onUDP

theorem completed_cons_of_ne {side : Side} {history : List (Fin k)} {conn other : Fin k}
    (different : other ≠ conn) :
    Completed d side (conn :: history) other ↔ Completed d side history other := by
  unfold Completed
  rw [List.count_cons_of_ne different.symm]

theorem peerAt_finished (side : Side) (n : Node) (closed : List ConnId) (history : List (Fin k))
    (conn : Fin k) (addr : NetAddr) (now : Int)
    (finishing : d.completion history conn = some side)
    (reached : Completed d side (conn :: history) conn)
    (fresh : ¬ Completed d side history conn)
    (before : PeerAt env d side n closed history) :
    let established :=
      n.sessionEstablished env (some conn.val) addr .tcp (sessionAt d side conn) now
    PeerAt env d side established.1 (closed ++ closedConns established.2) (conn :: history) := by
  intro established
  have last : d.lastCompletion side (conn :: history) = some conn := by
    rw [Dialing.lastCompletion, if_pos finishing]
  unfold PeerAt at before ⊢
  rw [last]
  dsimp only
  cases earlier : d.lastCompletion side history with
  | none =>
      rw [earlier] at before
      rcases before with ⟨offTCP, none_closed, none_completed⟩
      rcases sessionEstablished_offTCP n _ (some conn.val) addr (sessionAt d side conn) now rfl offTCP
        with ⟨p, id, live, onConn, transport, peers, closes⟩
      refine ⟨reached, ⟨p, ?_, live, onConn, transport⟩, ?_⟩
      · change p.id = peerIDOf env (d.key side.other) at id
        rw [peers, PeerStore.get_add, if_pos id.symm]
      · intro other
        rw [none_closed, closes]
        apply iff_of_false
        · exact List.not_mem_nil
        · rintro ⟨completed, different⟩
          exact none_completed other ((completed_cons_of_ne different).mp completed)
  | some old =>
      rw [earlier] at before
      rcases before with ⟨completed, ⟨existing, known, _, onOld, onTCP⟩, all_closed⟩
      rcases sessionEstablished_again env n (some conn.val) addr (sessionAt d side conn) now existing
        known onTCP with ⟨p, id, live, onConn, transport, peers, closes⟩
      have different : old ≠ conn := by
        rintro rfl
        exact fresh completed
      have closes_old : closedConns established.2 = [old.val] := by
        change closedConns (n.sessionEstablished env _ addr .tcp _ now).2 = _
        rw [closes, onOld, if_neg (fun same => different (Fin.ext (Option.some.inj same)))]
        rfl
      refine ⟨reached, ⟨p, ?_, live, onConn, transport⟩, ?_⟩
      · change p.id = peerIDOf env (d.key side.other) at id
        rw [peers, PeerStore.get_add, if_pos id.symm]
      · intro other
        rw [closes_old, List.mem_append, List.mem_singleton, all_closed other]
        constructor
        · rintro (⟨done, _⟩ | same)
          · have apart : other ≠ conn := by
              rintro rfl
              exact fresh done
            exact ⟨(completed_cons_of_ne apart).mpr done, apart⟩
          · rw [Fin.ext same]
            exact ⟨(completed_cons_of_ne different).mpr completed, different⟩
        · rintro ⟨done, apart⟩
          by_cases same : other = old
          · exact Or.inr (congrArg Fin.val same)
          · exact Or.inl ⟨(completed_cons_of_ne apart).mp done, same⟩

theorem peerAt_unfinished (side : Side) (n after : Node) (closed : List ConnId)
    (history : List (Fin k)) (conn : Fin k) (peers : after.peers = n.peers)
    (config : after.config = n.config)
    (waiting : d.completion history conn ≠ some side)
    (same : Completed d side (conn :: history) conn ↔ Completed d side history conn)
    (before : PeerAt env d side n closed history) :
    PeerAt env d side after closed (conn :: history) := by
  have completed (other : Fin k) :
      Completed d side (conn :: history) other ↔ Completed d side history other := by
    by_cases equal : other = conn
    · rw [equal]
      exact same
    · exact completed_cons_of_ne equal
  have last : d.lastCompletion side (conn :: history) = d.lastCompletion side history := by
    rw [Dialing.lastCompletion, if_neg waiting]
  unfold PeerAt Node.OffTCP Node.isFull at before ⊢
  rw [last]
  simp only [completed, peers, config]
  exact before

theorem responder_ne (conn : Fin k) : d.responder conn ≠ d.initiator conn :=
  (d.initiator conn).other_ne

theorem needed_initiator (conn : Fin k) : needed d (d.initiator conn) conn = 2 := if_pos rfl

theorem needed_responder (conn : Fin k) : needed d (d.responder conn) conn = 3 :=
  if_neg (responder_ne conn).symm

theorem connAt_congr {s after : TcpLinks k} {conn : Fin k} (wire : after.wire conn = s.wire conn)
    (pending : ∀ each, after.pending d each conn = s.pending d each conn) (count : Nat)
    (before : ConnAt d s conn count) : ConnAt d after conn count := by
  rcases count with _ | _ | _ | count
  · simpa only [ConnAt, Initiates, wire, pending] using before
  · simpa only [ConnAt, Initiates, Responds, wire, pending] using before
  · simpa only [ConnAt, Responds, wire, pending] using before
  · simpa only [ConnAt, wire, pending] using before

section

variable {s : TcpLinks k} {conn : Fin k} {side : Side} {message : Message}
  {rest : List (Side × Message)} (now : Int)
  (arriving : s.wire conn = (side, message) :: rest)

include arriving

theorem step_node : (s.step env d (conn, now)).node side =
    ((s.node side).processHandshake env (some conn.val) ⟨.tcp, d.addr side conn⟩ .tcp message
      (d.drawn conn) now).1 := by
  simp only [step, arriving, Function.update_self]

theorem step_node_other {other : Side} (different : other ≠ side) :
    (s.step env d (conn, now)).node other = s.node other := by
  simp only [step, arriving, Function.update_of_ne different]

theorem step_closed : (s.step env d (conn, now)).closed side =
    s.closed side ++ closedConns ((s.node side).processHandshake env (some conn.val)
      ⟨.tcp, d.addr side conn⟩ .tcp message (d.drawn conn) now).2 := by
  simp only [step, arriving, Function.update_self]

theorem step_closed_other {other : Side} (different : other ≠ side) :
    (s.step env d (conn, now)).closed other = s.closed other := by
  simp only [step, arriving, Function.update_of_ne different]

theorem step_wire : (s.step env d (conn, now)).wire conn =
    rest ++ (handshakeReplies ((s.node side).processHandshake env (some conn.val)
      ⟨.tcp, d.addr side conn⟩ .tcp message (d.drawn conn) now).2).map (side.other, ·) := by
  simp only [step, arriving, Function.update_self]

theorem step_wire_other {other : Fin k} (different : other ≠ conn) :
    (s.step env d (conn, now)).wire other = s.wire other := by
  simp only [step, arriving, Function.update_of_ne different]

theorem step_pending_other (each : Side) (other : Fin k) (elsewhere : each ≠ side ∨ other ≠ conn) :
    (s.step env d (conn, now)).pending d each other = s.pending d each other := by
  unfold pending
  by_cases here : each = side
  · subst here
    have different : other ≠ conn := elsewhere.resolve_left (fun apart => apart rfl)
    rw [step_node now arriving]
    apply processHandshake_other_pending
    intro same
    exact different (d.distinct each (Prod.mk.inj same).2)
  · rw [step_node_other now arriving here]

theorem inv_delivered {history : List (Fin k)} (inv : Inv env d s history)
    (connAt : ConnAt d (s.step env d (conn, now)) conn (history.count conn + 1))
    (receiver : PeerAt env d side ((s.step env d (conn, now)).node side)
      ((s.step env d (conn, now)).closed side) (conn :: history))
    (sender : PeerAt env d side.other (s.node side.other) (s.closed side.other) (conn :: history)) :
    Inv env d (s.step env d (conn, now)) (conn :: history) := by
  refine ⟨?_, ?_, ?_, ?_⟩
  · intro each
    by_cases here : each = side
    · subst here
      rw [step_node now arriving, processHandshake_identity]
      exact inv.staticKey each
    · rw [step_node_other now arriving here]
      exact inv.staticKey each
  · intro each
    by_cases here : each = side
    · subst here
      rw [step_node now arriving, (processHandshake_tables env _ _ _ _ _ _ _).2.config]
      exact inv.prologue each
    · rw [step_node_other now arriving here]
      exact inv.prologue each
  · intro other
    by_cases here : other = conn
    · subst here
      rw [List.count_cons_self]
      exact connAt
    · rw [List.count_cons_of_ne (Ne.symm here)]
      apply connAt_congr (step_wire_other now arriving here)
      · intro each
        exact step_pending_other now arriving each other (Or.inr here)
      · exact inv.conns other
  · intro each
    rcases side.eq_or_eq_other each with rfl | rfl
    · exact receiver
    · rw [step_node_other now arriving side.other_ne, step_closed_other now arriving side.other_ne]
      exact sender

end

theorem inv_first {s : TcpLinks k} {history : List (Fin k)} (inv : Inv env d s history)
    (conn : Fin k) (now : Int) (count : history.count conn = 0) :
    Inv env d (s.step env d (conn, now)) (conn :: history) := by
  have before := inv.conns conn
  rw [count] at before
  rcases before with ⟨arriving, initiates, idle⟩
  have received := processHandshake_first env (s.node (d.responder conn)) (some conn.val)
    ⟨.tcp, d.addr (d.responder conn) conn⟩ .tcp (d.first conn) (d.drawn conn) now idle
  have answer : Message.two (d.first conn)
      (prologuePrefix ++ (s.node (d.responder conn)).config.networkPassword) (d.drawn conn)
      (s.node (d.responder conn)).identity.noisePublicKey = d.second conn := by
    rw [inv.prologue, inv.staticKey]
    rfl
  rw [answer] at received
  have waits (side : Side) : d.completion history conn ≠ some side := by
    simp only [Dialing.completion, count]
    exact fun same => by cases same
  have uncompleted (side : Side) :
      Completed d side (conn :: history) conn ↔ Completed d side history conn := by
    unfold Completed needed
    rw [List.count_cons_self, count]
    split <;> decide
  apply inv_delivered now arriving inv
  · rw [count]
    refine ⟨?_, ?_, ?_⟩
    · rw [step_wire now arriving, received, Dialing.responder, Side.other_other]
      rfl
    · rcases initiates with ⟨hs, pending, initiating⟩
      refine ⟨hs, ?_, initiating⟩
      rw [step_pending_other now arriving _ _ (Or.inl (responder_ne conn).symm)]
      exact pending
    · refine ⟨(s.node (d.responder conn)).responding (d.first conn) (d.drawn conn) now, ?_, ?_, rfl, rfl⟩
      · rw [pending, step_node now arriving, received]
        exact (GoMap.get_set _ _ _ _).trans (if_pos rfl)
      · change Stage.awaitThree _ = _
        rw [answer]
  · rw [step_node now arriving, step_closed now arriving, received]
    change PeerAt env d _ _ (s.closed _ ++ []) _
    rw [List.append_nil]
    exact peerAt_unfinished _ (s.node (d.responder conn)) _ _ history conn rfl rfl (waits _)
      (uncompleted _) (inv.peers _)
  · exact peerAt_unfinished _ _ _ _ history conn rfl rfl (waits _) (uncompleted _) (inv.peers _)

theorem inv_finishing {s : TcpLinks k} {history : List (Fin k)} (inv : Inv env d s history)
    (conn : Fin k) (now : Int) (side : Side) (message : Message) (hs finished : HandshakeState)
    (response : Option Message) (arriving : s.wire conn = [(side, message)])
    (pending : s.pending d side conn = some hs)
    (finishes : hs.processMessage message = some (finished, response, some (sessionAt d side conn)))
    (completes : d.completion history conn = some side)
    (needs : history.count conn + 1 = needed d side conn)
    (other_needs : needed d side.other conn ≠ history.count conn + 1)
    (connAt : (s.step env d (conn, now)).wire conn = response.toList.map (side.other, ·) →
      (s.step env d (conn, now)).pending d side conn = none →
      (s.step env d (conn, now)).pending d side.other conn = s.pending d side.other conn →
      ConnAt d (s.step env d (conn, now)) conn (history.count conn + 1)) :
    Inv env d (s.step env d (conn, now)) (conn :: history) := by
  rcases processHandshake_finished_entry env (s.node side) (some conn.val)
    ⟨.tcp, d.addr side conn⟩ .tcp message (d.drawn conn) now hs finished response
    (sessionAt d side conn) pending finishes with ⟨cleared, replies⟩
  have state := pendingHandshake_of_get (s.node side) ⟨.tcp, d.addr side conn⟩ .tcp (d.drawn conn) now
    hs pending
  have whole := processHandshake_finished env (s.node side) (some conn.val)
    ⟨.tcp, d.addr side conn⟩ .tcp message (d.drawn conn) now finished response
    (sessionAt d side conn) (by rw [state]; exact finishes)
  apply inv_delivered now arriving inv
  · apply connAt
    · rw [step_wire now arriving, replies]
      rfl
    · rw [TcpLinks.pending, step_node now arriving, cleared, GoMap.get_delete, if_pos rfl]
    · exact step_pending_other now arriving _ _ (Or.inl side.other_ne)
  · rw [step_node now arriving, step_closed now arriving, whole, closedConns_sendRaw]
    apply peerAt_finished side _ _ history conn _ now completes
    · unfold Completed
      rw [List.count_cons_self]
      omega
    · unfold Completed
      omega
    · exact inv.peers side
  · apply peerAt_unfinished _ _ _ _ history conn rfl rfl
    · rw [completes]
      exact fun same => side.other_ne (Option.some.inj same).symm
    · unfold Completed
      rw [List.count_cons_self]
      omega
    · exact inv.peers _

theorem inv_step {s : TcpLinks k} {history : List (Fin k)} (inv : Inv env d s history)
    (delivery : Fin k × Int) :
    Inv env d (s.step env d delivery) (delivery.1 :: history) := by
  rcases delivery with ⟨conn, now⟩
  have before := inv.conns conn
  rcases count : history.count conn with _ | _ | _ | more
  · exact inv_first inv conn now count
  · -- message 2 reaches the initiator
    rw [count] at before
    rcases before with ⟨arriving, ⟨hs, pending, initiating⟩, responds⟩
    have finishes := initiating_finishes initiating (d.drawn conn) (d.key (d.responder conn))
    have session : sessionAt d (d.initiator conn) conn =
        sessionOf true (d.third conn) (d.key (d.responder conn)) := by
      rw [sessionAt, decide_eq_true rfl]
      rfl
    apply inv_finishing inv conn now (d.initiator conn) (d.second conn) hs _ (some (d.third conn))
      arriving pending
    · rw [session]
      exact finishes
    · simp only [Dialing.completion, count]
    · rw [count, needed_initiator]
    · change needed d (d.responder conn) conn ≠ _
      rw [count, needed_responder]
      decide
    · intro wire cleared kept
      rw [count]
      refine ⟨wire, cleared, ?_⟩
      rcases responds with ⟨waiting, entry, responding⟩
      exact ⟨waiting, kept.trans entry, responding⟩
  · -- message 3 reaches the responder
    rw [count] at before
    rcases before with ⟨arriving, idle, ⟨hs, pending, responding⟩⟩
    have finishes := responding_finishes responding (d.key (d.initiator conn))
    have session : sessionAt d (d.responder conn) conn =
        sessionOf false (d.third conn) (d.key (d.initiator conn)) := by
      rw [sessionAt, decide_eq_false (responder_ne conn).symm, Dialing.responder, Side.other_other]
    apply inv_finishing inv conn now (d.responder conn) (d.third conn) hs _ none arriving pending
    · rw [session]
      exact finishes
    · simp only [Dialing.completion, count]
    · rw [count, needed_responder]
    · rw [Dialing.responder, Side.other_other, count, needed_initiator]
      decide
    · intro wire cleared kept
      rw [Dialing.responder, Side.other_other] at kept
      rw [count]
      exact ⟨wire, kept.trans idle, cleared⟩
  · -- nothing is left on the connection
    rw [count] at before
    have idle : s.step env d (conn, now) = s := by
      rw [step, before.1]
    have waits (side : Side) : d.completion history conn ≠ some side := by
      simp only [Dialing.completion, count]
      exact fun same => by cases same
    rw [idle]
    refine ⟨inv.staticKey, inv.prologue, ?_, ?_⟩
    · intro other
      by_cases here : other = conn
      · subst here
        rw [List.count_cons_self, count]
        exact before
      · rw [List.count_cons_of_ne (Ne.symm here)]
        exact inv.conns other
    · intro side
      apply peerAt_unfinished _ _ _ _ history conn rfl rfl (waits side) _ (inv.peers side)
      unfold Completed needed
      rw [List.count_cons_self, count]
      split <;> omega

theorem inv_dialed (node : Side → Node) (nodes : ∀ side, (node side).Dialed env d side) :
    Inv env d (dialed d node) [] := by
  refine ⟨fun side => (nodes side).staticKey, fun side => (nodes side).prologue, ?_, ?_⟩
  · intro conn
    refine ⟨rfl, ?_, (nodes _).accepting conn (responder_ne conn).symm⟩
    rcases (nodes (d.initiator conn)).dialing conn rfl with ⟨now, pending⟩
    exact ⟨_, pending, rfl, (nodes _).prologue, (nodes _).staticKey, rfl, rfl⟩
  · intro side
    refine ⟨(nodes side).offTCP, rfl, ?_⟩
    intro conn
    unfold Completed needed
    rw [List.count_nil]
    split <;> decide

theorem inv_run {s : TcpLinks k} {history : List (Fin k)} (inv : Inv env d s history)
    (deliveries : List (Fin k × Int)) :
    Inv env d (Run.run (step env d) s deliveries)
      ((deliveries.map Prod.fst).reverse ++ history) := by
  induction deliveries generalizing s history with
  | nil => exact inv
  | cons delivery rest ih =>
      rw [Run.run_cons, List.map_cons, List.reverse_cons, List.append_assoc]
      exact ih (inv_step inv delivery)

theorem endsOf_sessionAt (conn : Fin k) :
    EndsOf (sessionAt d .a conn) (sessionAt d .b conn) ∨
      EndsOf (sessionAt d .b conn) (sessionAt d .a conn) := by
  unfold sessionAt
  cases d.initiator conn with
  | a => exact Or.inl ⟨_, _, _, rfl, rfl⟩
  | b => exact Or.inr ⟨_, _, _, rfl, rfl⟩

theorem completed_of_complete {deliveries : List (Fin k)}
    (complete : ∀ conn, 3 ≤ deliveries.count conn) (side : Side) (conn : Fin k) :
    Completed d side deliveries.reverse conn := by
  have enough := complete conn
  unfold Completed needed
  rw [List.count_reverse]
  split <;> omega

theorem last_of_complete {n : Node} {closed : List ConnId} {history : List (Fin k)} {side : Side}
    (some_conn : 0 < k) (completed : ∀ conn, Completed d side history conn)
    (peer : PeerAt env d side n closed history) :
    ∃ last, d.lastCompletion side history = some last ∧
      (∃ p, n.peers.get (peerIDOf env (d.key side.other)) = some p ∧
        p.session = some (sessionAt d side last) ∧ p.conn = some last.val) ∧
      ∀ conn : Fin k, conn.val ∈ closed ↔ conn ≠ last := by
  unfold PeerAt at peer
  cases found : d.lastCompletion side history with
  | none =>
      rw [found] at peer
      exact absurd (completed ⟨0, some_conn⟩) (peer.2.2 ⟨0, some_conn⟩)
  | some last =>
      rw [found] at peer
      rcases peer with ⟨_, ⟨p, stored, session, onConn, _⟩, closes⟩
      refine ⟨last, rfl, ⟨p, stored, session, onConn⟩, ?_⟩
      intro conn
      rw [closes conn]
      exact and_iff_right (completed conn)

/-- Any number of TCP connections between two nodes, each with one handshake, delivered in any
order until all are complete: the sessions in use are the ends of one handshake, on a connection
that neither has closed, exactly if the same handshake is the last to complete at both nodes. -/
theorem agreed_iff_same_last (env : Env) (d : Dialing k) (node : Side → Node)
    (deliveries : List (Fin k × Int)) (some_conn : 0 < k)
    (nodes : ∀ side, (node side).Dialed env d side)
    (complete : ∀ conn, 3 ≤ (deliveries.map Prod.fst).count conn) :
    Agreed env d (Run.run (step env d) (dialed d node) deliveries) ↔
      ∃ conn, d.lastCompletion .a (deliveries.map Prod.fst).reverse = some conn ∧
        d.lastCompletion .b (deliveries.map Prod.fst).reverse = some conn := by
  have inv := inv_run (inv_dialed node nodes) deliveries
  rw [List.append_nil] at inv
  have completed (side : Side) := completed_of_complete (d := d) complete side
  rcases last_of_complete some_conn (completed .a) (inv.peers .a) with
    ⟨lastA, foundA, ⟨atA, storedA, sessionA, connA⟩, closedA⟩
  rcases last_of_complete some_conn (completed .b) (inv.peers .b) with
    ⟨lastB, foundB, ⟨atB, storedB, sessionB, connB⟩, closedB⟩
  rw [foundA, foundB]
  constructor
  · rintro ⟨otherA, otherB, _, _, againA, _, _, _, _, opened⟩
    have same : otherA = atA := Option.some.inj (againA.symm.trans storedA)
    subst same
    have open_here := opened lastA.val (Or.inl connA)
    have equal : lastA = lastB := by
      by_contra different
      exact open_here.2 ((closedB lastA).mpr different)
    exact ⟨lastA, rfl, congrArg some equal.symm⟩
  · rintro ⟨conn, equalA, equalB⟩
    have sameA : lastA = conn := Option.some.inj equalA
    have sameB : lastB = conn := Option.some.inj equalB
    subst sameA
    subst sameB
    refine ⟨atA, atB, _, _, storedA, sessionA, storedB, sessionB, endsOf_sessionAt lastB, ?_⟩
    intro other running
    have equal : other = lastB.val := by
      rcases running with onA | onB
      · exact Option.some.inj (onA.symm.trans connA)
      · exact Option.some.inj (onB.symm.trans connB)
    rw [equal]
    exact ⟨fun closed => (closedA lastB).mp closed rfl, fun closed => (closedB lastB).mp closed rfl⟩

def mutualDialing : Dialing 2 where
  initiator conn := if conn = 0 then .a else .b
  addr _ conn := [UInt8.ofNat conn.val]
  distinct _ := by
    unfold Function.Injective
    decide
  ephemeral conn := [UInt8.ofNat conn.val]
  drawn conn := [UInt8.ofNat (conn.val + 2)]
  key side := if side = .a then [7] else [8]
  prologue := prologuePrefix ++ [1]

def dialedNode (side : Side) (conn : Fin 2) : Node :=
  let n := (newNode .padded { defaultConfig with networkPassword := [1] }
    (newIdentity .padded (mutualDialing.key side))).start .padded true
  { n with
    pendingHandshakes := n.pendingHandshakes.set (.tcp, mutualDialing.addr side conn)
      (newInitiatorHandshake (mutualDialing.key side) [1] (mutualDialing.ephemeral conn) 0).1 }

def mutualNodes (side : Side) : Node := dialedNode side (if side = .a then 0 else 1)

theorem mutualNodes_dialed (side : Side) : (mutualNodes side).Dialed .padded mutualDialing side := by
  refine ⟨?_, ?_, Or.inl ⟨?_, ?_⟩, ?_, ?_⟩
  · cases side <;> rfl
  · cases side <;> rfl
  · cases side <;> exact PeerStore.get_empty _
  · cases side <;> rfl
  · intro conn own
    refine ⟨0, ?_⟩
    revert own
    cases side <;> revert conn <;> decide
  · cases side <;> decide

/-- One handshake after the other. -/
theorem successive_connects_agree :
    Agreed .padded mutualDialing
      (Run.run (step .padded mutualDialing) (dialed mutualDialing mutualNodes)
        [(0, 0), (0, 0), (0, 0), (1, 0), (1, 0), (1, 0)]) :=
  (agreed_iff_same_last .padded mutualDialing mutualNodes _ (by decide) mutualNodes_dialed
    (by decide)).mpr ⟨1, by decide, by decide⟩

def crossedDeliveries : List (Fin 2 × Int) :=
  [(0, 0), (1, 0), (0, 0), (1, 0), (0, 0), (1, 0)]

def crossedConnects : TcpLinks 2 :=
  Run.run (step .padded mutualDialing) (dialed mutualDialing mutualNodes) crossedDeliveries

/-- All handshakes are complete, and each node uses a connection that the other has closed. -/
theorem crossed_connects_disagree :
    (∀ conn, (crossedDeliveries.map Prod.fst).count conn = 3) ∧
      ¬ Agreed .padded mutualDialing crossedConnects := by
  refine ⟨by decide, ?_⟩
  rintro ⟨atA, _, _, _, storedA, _, _, _, _, opened⟩
  have current : ((crossedConnects.node .a).peers.get (peerIDOf .padded [8])).map (·.conn) =
      some (some 1) := by decide +kernel
  have closed : 1 ∈ crossedConnects.closed .b := by decide +kernel
  have stored : (crossedConnects.node .a).peers.get (peerIDOf .padded [8]) = some atA := storedA
  rw [stored, Option.map_some] at current
  exact (opened 1 (Or.inl (Option.some.inj current))).2 closed

end Tenet.TcpLinks
