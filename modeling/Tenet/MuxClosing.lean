import Tenet.Lib.Loan
import Tenet.Lib.Run
import Tenet.Mux

/-! The goroutines of one mux: read loops, the handlers of KCP sessions and `Close`, in any order. -/

namespace Tenet

open Lib

inductive ReadLoopPoint where
  | check
  | read
  | retry
  | route (packet : Datagram)
  | enqueue (conn : VirtualConn) (packet : Datagram)
  | returned
  deriving DecidableEq, Repr

def ReadLoopPoint.holds : ReadLoopPoint → Option VirtualConn
  | .enqueue conn _ => some conn
  | _ => none

inductive ClosePoint where
  | select
  | closeChan
  | closeConn
  | wait
  | closeQueues (left : List VirtualConn)
  | range (keys visited : List Bytes)
  /-- The function that `Range` calls has the handler in hand. -/
  | closeHandler (keys visited : List Bytes) (id : Nat)
  | returned
  deriving DecidableEq, Repr

structure MuxRun where
  mux : UDPMux
  closed : Bool
  connClosed : Bool
  closedQueues : Finset VirtualConn
  loops : List ReadLoopPoint
  removed : List Nat
  closers : List ClosePoint
  crashed : Bool

inductive MuxEvent where
  | start
  | readLoop (index : Nat) (read : Option Datagram)
  | registerKCPHandler (remoteAddr : Bytes)
  | unregisterKCPHandler (remoteAddr : Bytes)
  | safeClose (index : Nat)
  | close
  | closeGoesOn (index : Nat)
  | visit (index : Nat) (remoteAddr : Bytes)
  | readFrom (conn : VirtualConn)
  deriving DecidableEq, Repr

namespace MuxRun

def newMuxRun : MuxRun := ⟨UDPMux.newUDPMux, false, false, ∅, [], [], [], false⟩

def moveLoop (s : MuxRun) (index : Nat) (point : ReadLoopPoint) : MuxRun :=
  { s with loops := s.loops.set index point }

/-- A send on a closed channel panics, also inside a select with default. -/
def readLoop (s : MuxRun) (index : Nat) (read : Option Datagram) : ReadLoopPoint → MuxRun
  | .check => s.moveLoop index (if s.closed then .returned else .read)
  | .read =>
      match read with
      | some packet => s.moveLoop index (if s.connClosed then .retry else .route packet)
      | none => s.moveLoop index .retry
  | .retry => s.moveLoop index (if s.closed then .returned else .check)
  | .route packet => s.moveLoop index (.enqueue (s.mux.target packet) packet)
  | .enqueue conn packet =>
      if conn ∈ s.closedQueues then { s with crashed := true }
      else { s.moveLoop index .check with mux := s.mux.enqueuePacket conn packet }
  | .returned => s

def registerKCPHandler (s : MuxRun) (remoteAddr : Bytes) : MuxRun :=
  { s with mux := (s.mux.registerKCPHandler remoteAddr).1 }

def unregisterKCPHandler (s : MuxRun) (remoteAddr : Bytes) : MuxRun :=
  match s.mux.kcpHandlers.get remoteAddr with
  | none => s
  | some id =>
      { s with
        mux := s.mux.unregisterKCPHandler remoteAddr
        removed := s.removed ++ [id] }

/-- `once` makes a second call do nothing. -/
def safeClose (s : MuxRun) (conn : VirtualConn) : MuxRun :=
  { s with closedQueues := insert conn s.closedQueues }

def moveCloser (s : MuxRun) (index : Nat) (point : ClosePoint) : MuxRun :=
  { s with closers := s.closers.set index point }

/-- Closing a channel twice panics. `Wait` returns once no read loop runs any more. -/
def close (s : MuxRun) (index : Nat) : ClosePoint → MuxRun
  | .select => s.moveCloser index (if s.closed then .returned else .closeChan)
  | .closeChan =>
      if s.closed then { s with crashed := true }
      else { s.moveCloser index .closeConn with closed := true }
  | .closeConn => { s.moveCloser index .wait with connClosed := true }
  | .wait =>
      if s.loops.all (· == .returned) then
        s.moveCloser index (.closeQueues [.kcpConn, .punchConn, .tentConn])
      else s
  | .closeQueues [] => s.moveCloser index (.range s.mux.kcpHandlers.keys [])
  | .closeQueues (conn :: left) => (s.moveCloser index (.closeQueues left)).safeClose conn
  | .range keys visited =>
      if keys.all (visited.contains ·) then s.moveCloser index .returned else s
  | .closeHandler keys visited id =>
      (s.moveCloser index (.range keys visited)).safeClose (.handler id)
  | .returned => s

/-- `Range` visits no key twice, and may come to keys that were stored since it began. -/
def visit (s : MuxRun) (index : Nat) (remoteAddr : Bytes) : ClosePoint → MuxRun
  | .range keys visited =>
      if visited.contains remoteAddr then s
      else
        match s.mux.kcpHandlers.get remoteAddr with
        | none => s.moveCloser index (.range keys (remoteAddr :: visited))
        | some id => s.moveCloser index (.closeHandler keys (remoteAddr :: visited) id)
  | _ => s

def perform (s : MuxRun) : MuxEvent → MuxRun
  | .start => { s with loops := s.loops ++ [.check] }
  | .readLoop index read => (s.loops[index]?).elim s (s.readLoop index read)
  | .registerKCPHandler remoteAddr => s.registerKCPHandler remoteAddr
  | .unregisterKCPHandler remoteAddr => s.unregisterKCPHandler remoteAddr
  | .safeClose index => (s.removed[index]?).elim s fun id =>
      { s.safeClose (.handler id) with removed := s.removed.eraseIdx index }
  | .close => { s with closers := s.closers ++ [.select] }
  | .closeGoesOn index => (s.closers[index]?).elim s (s.close index)
  | .visit index remoteAddr => (s.closers[index]?).elim s (s.visit index remoteAddr)
  | .readFrom conn => { s with mux := s.mux.readFrom conn }

def step (s : MuxRun) (event : MuxEvent) : MuxRun :=
  if s.crashed then s else s.perform event

def Stopped (s : MuxRun) : Prop :=
  s.closed = true ∧ ∀ loop ∈ s.loops, loop = .check ∨ loop = .returned

def Targets (s : MuxRun) : VirtualConn → Prop
  | .handler id => ∃ remoteAddr, s.mux.kcpHandlers.get remoteAddr = some id
  | _ => True

def loans (s : MuxRun) : Loans VirtualConn where
  linked conn := ¬s.Stopped ∧ s.Targets conn
  held conn := ∃ loop ∈ s.loops, loop.holds = some conn
  closed conn := conn ∈ s.closedQueues

def Open (s : MuxRun) : Prop := s.loans.Safe

def SendsOpen (s : MuxRun) : MuxEvent → Prop
  | .readLoop index _ =>
      s.crashed = false → ∀ conn ∈ (s.loops[index]?).bind ReadLoopPoint.holds, conn ∉ s.closedQueues
  | _ => True

/-- `UnregisterKCPHandler` closes no queue that a read loop has looked up and not yet sent on. -/
def Spares (s : MuxRun) : MuxEvent → Prop
  | .safeClose index =>
      s.crashed = false → ∀ id ∈ s.removed[index]?, ∀ loop ∈ s.loops, loop.holds ≠ some (.handler id)
  | _ => True

instance (s : MuxRun) (event : MuxEvent) : Decidable (s.SendsOpen event) :=
  match event with
  | .readLoop index _ => inferInstanceAs (Decidable (s.crashed = false →
      ∀ conn ∈ (s.loops[index]?).bind ReadLoopPoint.holds, conn ∉ s.closedQueues))
  | .start | .registerKCPHandler _ | .unregisterKCPHandler _ | .safeClose _ | .close
  | .closeGoesOn _ | .visit _ _ | .readFrom _ => .isTrue trivial

instance (s : MuxRun) (event : MuxEvent) : Decidable (s.Spares event) :=
  match event with
  | .safeClose index => inferInstanceAs (Decidable (s.crashed = false →
      ∀ id ∈ s.removed[index]?, ∀ loop ∈ s.loops, loop.holds ≠ some (.handler id)))
  | .start | .readLoop _ _ | .registerKCPHandler _ | .unregisterKCPHandler _ | .close
  | .closeGoesOn _ | .visit _ _ | .readFrom _ => .isTrue trivial

def Passed (s : MuxRun) : ClosePoint → Prop
  | .select | .closeChan | .returned => True
  | .closeConn | .wait => s.closed = true
  | .closeQueues left => s.Stopped ∧ ∀ id, .handler id ∉ left
  | .range _ _ => s.Stopped
  | .closeHandler _ _ id => s.Stopped ∧ id < s.mux.registered

structure Orderly (s : MuxRun) : Prop where
  mapped : ∀ remoteAddr id, s.mux.kcpHandlers.get remoteAddr = some id → id < s.mux.registered
  shut : ∀ id, .handler id ∈ s.closedQueues → id < s.mux.registered
  injective : ∀ remoteAddr other id, s.mux.kcpHandlers.get remoteAddr = some id →
    s.mux.kcpHandlers.get other = some id → remoteAddr = other
  removed : ∀ id ∈ s.removed, id < s.mux.registered ∧
    ∀ remoteAddr, s.mux.kcpHandlers.get remoteAddr ≠ some id
  passed : ∀ closer ∈ s.closers, s.Passed closer
  sound : s.loans.Sound

variable {s s' : MuxRun} {conn : VirtualConn}

def MayReach (s : MuxRun) (point : ReadLoopPoint) : Prop :=
  (s.Stopped → point = .check ∨ point = .returned) ∧
    ∀ conn, point.holds = some conn → s.loans.linked conn

def LoopsMove (s s' : MuxRun) : Prop :=
  ∃ loops readChan crashed,
    s' = { s with mux := { s.mux with readChan }, loops, crashed } ∧
      ∀ loop ∈ loops, loop ∈ s.loops ∨ s.MayReach loop

def ClosersMove (s s' : MuxRun) : Prop :=
  ∃ closed connClosed closers crashed,
    s' = { s with closed, connClosed, closers, crashed } ∧ (s.closed = true → closed = true) ∧
      ∀ closer ∈ closers, closer ∈ s.closers ∨ s'.Passed closer

theorem Passed.mono {point : ClosePoint} (passed : s.Passed point)
    (registered : s.mux.registered ≤ s'.mux.registered)
    (closed : s.closed = true → s'.closed = true) (stopped : s.Stopped → s'.Stopped) :
    s'.Passed point := by
  cases point with
  | select => trivial
  | closeChan => trivial
  | closeConn => exact closed passed
  | wait => exact closed passed
  | closeQueues left => exact ⟨stopped passed.1, passed.2⟩
  | range keys visited => exact stopped passed
  | closeHandler keys visited id =>
      exact ⟨stopped passed.1, Nat.lt_of_lt_of_le passed.2 registered⟩
  | returned => trivial

theorem not_held_of_stopped (stopped : s.Stopped) : ¬s.loans.held conn := by
  rintro ⟨loop, running, holds⟩
  rcases stopped.2 loop running with rfl | rfl
  · exact Option.some_ne_none conn holds.symm
  · exact Option.some_ne_none conn holds.symm

theorem targets_of_mapped
    (mapped : ∀ remoteAddr id, s'.mux.kcpHandlers.get remoteAddr = some id →
      s.mux.kcpHandlers.get remoteAddr = some id)
    (targets : s'.Targets conn) : s.Targets conn := by
  cases conn with
  | handler id =>
      obtain ⟨remoteAddr, found⟩ := targets
      exact ⟨remoteAddr, mapped remoteAddr id found⟩
  | kcpConn => trivial
  | punchConn => trivial
  | tentConn => trivial

theorem keeps_of_mapped
    (mapped : ∀ remoteAddr id, s'.mux.kcpHandlers.get remoteAddr = some id →
      s.mux.kcpHandlers.get remoteAddr = some id)
    (stopped : s.Stopped → s'.Stopped)
    (held : ∀ conn, s'.loans.held conn → s.loans.held conn ∨ s.loans.linked conn)
    (closed : s'.closedQueues = s.closedQueues) : s.loans.Keeps s'.loans where
  linked conn linked := Or.inl ⟨fun before => linked.1 (stopped before), targets_of_mapped mapped linked.2⟩
  held := held
  closed conn shut := by
    change conn ∈ s'.closedQueues at shut
    rw [closed] at shut
    exact shut

theorem LoopsMove.stopped (moves : s.LoopsMove s') (stopped : s.Stopped) : s'.Stopped := by
  obtain ⟨loops, readChan, crashed, rfl, reached⟩ := moves
  refine ⟨stopped.1, ?_⟩
  intro loop running
  rcases reached loop running with before | may
  · exact stopped.2 loop before
  · exact may.1 stopped

theorem LoopsMove.keeps (moves : s.LoopsMove s') : s.loans.Keeps s'.loans := by
  have stopped := moves.stopped
  obtain ⟨loops, readChan, crashed, rfl, reached⟩ := moves
  refine keeps_of_mapped (fun _ _ => id) stopped ?_ rfl
  rintro conn ⟨loop, running, holds⟩
  rcases reached loop running with before | may
  · exact Or.inl ⟨loop, before, holds⟩
  · exact Or.inr (may.2 conn holds)

theorem ClosersMove.stopped (moves : s.ClosersMove s') (stopped : s.Stopped) : s'.Stopped := by
  obtain ⟨closed, connClosed, closers, crashed, rfl, stays, _⟩ := moves
  exact ⟨stays stopped.1, stopped.2⟩

theorem ClosersMove.keeps (moves : s.ClosersMove s') : s.loans.Keeps s'.loans := by
  have stopped := moves.stopped
  obtain ⟨closed, connClosed, closers, crashed, rfl, _, _⟩ := moves
  exact keeps_of_mapped (fun _ _ => id) stopped (fun _ => Or.inl) rfl

theorem keeps_unregisterKCPHandler (s : MuxRun) (remoteAddr : Bytes) :
    s.loans.Keeps (s.unregisterKCPHandler remoteAddr).loans := by
  unfold unregisterKCPHandler
  split
  · exact keeps_of_mapped (fun _ _ => id) id (fun _ => Or.inl) rfl
  · refine keeps_of_mapped ?_ id (fun _ => Or.inl) rfl
    intro other id found
    exact (GoMap.get_delete_eq_some.mp found).2

theorem keeps_registerKCPHandler (orderly : s.Orderly) (remoteAddr : Bytes) :
    s.loans.Keeps (s.registerKCPHandler remoteAddr).loans where
  linked conn linked := by
    obtain ⟨running, targets⟩ := linked
    cases conn with
    | handler id =>
        obtain ⟨other, found⟩ := targets
        rcases GoMap.get_set_eq_some.mp found with ⟨_, rfl⟩ | ⟨_, before⟩
        · exact Or.inr fun shut => Nat.lt_irrefl _ (orderly.shut _ shut)
        · exact Or.inl ⟨running, other, before⟩
    | kcpConn => exact Or.inl ⟨running, trivial⟩
    | punchConn => exact Or.inl ⟨running, trivial⟩
    | tentConn => exact Or.inl ⟨running, trivial⟩
  held _ := Or.inl
  closed _ := id

theorem closes_safeClose (unlinked : ¬s.loans.linked conn) :
    s.loans.Closes (s.safeClose conn).loans conn where
  unlinked := unlinked
  linked _ := id
  held _ := Iff.rfl
  closed other := by
    change other ∈ insert conn s.closedQueues ↔ other ∈ s.closedQueues ∨ other = conn
    rw [Finset.mem_insert, or_comm]

theorem ClosersMove.closes (moves : (s.safeClose conn).ClosersMove s')
    (unlinked : ¬s.loans.linked conn) : s.loans.Closes s'.loans conn := by
  obtain ⟨closed, connClosed, closers, crashed, rfl, stays, _⟩ := moves
  refine { closes_safeClose unlinked with linked := ?_ }
  rintro other ⟨running, targets⟩
  exact ⟨fun stopped => running ⟨stays stopped.1, stopped.2⟩, targets_of_mapped (fun _ _ => id) targets⟩

theorem Orderly.of_loopsMove (orderly : s.Orderly) (moves : s.LoopsMove s') : s'.Orderly := by
  have keeps := moves.keeps
  have stopped := moves.stopped
  obtain ⟨loops, readChan, crashed, rfl, _⟩ := moves
  exact { orderly with
    passed := fun closer calling => (orderly.passed closer calling).mono le_rfl id stopped
    sound := keeps.sound orderly.sound }

theorem Orderly.of_closersMove (orderly : s.Orderly) (moves : s.ClosersMove s') : s'.Orderly := by
  have keeps := moves.keeps
  have stopped := moves.stopped
  obtain ⟨closed, connClosed, closers, crashed, rfl, stays, passed⟩ := moves
  refine { orderly with passed := ?_, sound := keeps.sound orderly.sound }
  intro closer calling
  rcases passed closer calling with before | now
  · exact (orderly.passed closer before).mono le_rfl stays stopped
  · exact now

theorem Orderly.registerKCPHandler (orderly : s.Orderly) (remoteAddr : Bytes) :
    (s.registerKCPHandler remoteAddr).Orderly := by
  have get_set : ∀ other id,
      (s.registerKCPHandler remoteAddr).mux.kcpHandlers.get other = some id →
        other = remoteAddr ∧ id = s.mux.registered ∨
          id < s.mux.registered ∧ s.mux.kcpHandlers.get other = some id := by
    intro other id found
    rcases GoMap.get_set_eq_some.mp found with here | ⟨_, before⟩
    · exact Or.inl here
    · exact Or.inr ⟨orderly.mapped other id before, before⟩
  have grows : s.mux.registered ≤ (s.registerKCPHandler remoteAddr).mux.registered :=
    Nat.le_succ s.mux.registered
  refine ⟨?_, ?_, ?_, ?_, ?_, (keeps_registerKCPHandler orderly remoteAddr).sound orderly.sound⟩
  · intro other id found
    rcases get_set other id found with ⟨_, rfl⟩ | ⟨earlier, _⟩
    · exact Nat.lt_succ_self s.mux.registered
    · exact Nat.lt_of_lt_of_le earlier grows
  · intro id shut
    exact Nat.lt_of_lt_of_le (orderly.shut id shut) grows
  · intro first second id here there
    rcases get_set first id here with ⟨rfl, rfl⟩ | ⟨earlier, before⟩
    · rcases get_set second _ there with ⟨rfl, _⟩ | ⟨absurdly, _⟩
      · rfl
      · exact absurd absurdly (Nat.lt_irrefl _)
    · rcases get_set second id there with ⟨_, rfl⟩ | ⟨_, also⟩
      · exact absurd earlier (Nat.lt_irrefl _)
      · exact orderly.injective first second id before also
  · intro id removed
    obtain ⟨earlier, gone⟩ := orderly.removed id removed
    refine ⟨Nat.lt_of_lt_of_le earlier grows, ?_⟩
    intro other found
    rcases get_set other id found with ⟨_, rfl⟩ | ⟨_, before⟩
    · exact Nat.lt_irrefl _ earlier
    · exact gone other before
  · intro closer calling
    exact (orderly.passed closer calling).mono grows id id

theorem Orderly.unregisterKCPHandler (orderly : s.Orderly) (remoteAddr : Bytes) :
    (s.unregisterKCPHandler remoteAddr).Orderly := by
  have sound := (keeps_unregisterKCPHandler s remoteAddr).sound orderly.sound
  unfold MuxRun.unregisterKCPHandler at sound ⊢
  split at sound
  next => exact orderly
  next id here =>
    refine ⟨?_, orderly.shut, ?_, ?_, orderly.passed, sound⟩
    · intro other id found
      exact orderly.mapped other id (GoMap.get_delete_eq_some.mp found).2
    · intro first second id one two
      exact orderly.injective first second id (GoMap.get_delete_eq_some.mp one).2
        (GoMap.get_delete_eq_some.mp two).2
    · intro gone removed
      rcases List.mem_append.mp removed with earlier | now
      · refine ⟨(orderly.removed gone earlier).1, ?_⟩
        intro other found
        exact (orderly.removed gone earlier).2 other (GoMap.get_delete_eq_some.mp found).2
      · obtain rfl := List.mem_singleton.mp now
        refine ⟨orderly.mapped remoteAddr gone here, ?_⟩
        intro other found
        obtain ⟨differs, before⟩ := GoMap.get_delete_eq_some.mp found
        exact differs (orderly.injective other remoteAddr gone before here)

theorem Orderly.safeClose (orderly : s.Orderly) (unlinked : ¬s.loans.linked conn)
    (known : ∀ id, conn = .handler id → id < s.mux.registered) : (s.safeClose conn).Orderly := by
  refine { orderly with shut := ?_, sound := (closes_safeClose unlinked).sound orderly.sound }
  intro id shut
  rcases Finset.mem_insert.mp shut with now | before
  · exact known id now.symm
  · exact orderly.shut id before

theorem targets_target (s : MuxRun) (packet : Datagram) : s.Targets (s.mux.target packet) := by
  unfold UDPMux.target
  split
  · trivial
  · split
    · trivial
    · unfold UDPMux.kcpTarget
      split
      next id found => exact ⟨packet.addr, found⟩
      next => trivial

theorem loopsMove_moveLoop (s : MuxRun) (index : Nat) (point : ReadLoopPoint)
    (readChan : GoMap VirtualConn (List Datagram)) (may : s.MayReach point) :
    s.LoopsMove { s.moveLoop index point with mux := { s.mux with readChan } } := by
  refine ⟨s.loops.set index point, readChan, s.crashed, rfl, ?_⟩
  intro loop running
  rcases List.mem_or_eq_of_mem_set running with before | rfl
  · exact Or.inl before
  · exact Or.inr may

theorem enqueuePacket_frame (m : UDPMux) (conn : VirtualConn) (packet : Datagram) :
    ∃ readChan, m.enqueuePacket conn packet = { m with readChan } := by
  unfold UDPMux.enqueuePacket
  split
  · exact ⟨_, rfl⟩
  · exact ⟨m.readChan, rfl⟩

theorem mayReach_returned (s : MuxRun) : s.MayReach .returned :=
  ⟨fun _ => Or.inr rfl, fun conn holds => absurd holds.symm (Option.some_ne_none conn)⟩

theorem mayReach_check (s : MuxRun) : s.MayReach .check :=
  ⟨fun _ => Or.inl rfl, fun conn holds => absurd holds.symm (Option.some_ne_none conn)⟩

theorem mayReach_of_running {point : ReadLoopPoint} (running : ¬s.Stopped)
    (holds : ∀ conn, point.holds = some conn → s.Targets conn) : s.MayReach point :=
  ⟨fun stopped => absurd stopped running, fun conn held => ⟨running, holds conn held⟩⟩

theorem loopsMove_readLoop (s : MuxRun) (index : Nat) (read : Option Datagram)
    (loop : ReadLoopPoint) (present : loop ∈ s.loops) : s.LoopsMove (s.readLoop index read loop) := by
  -- a loop at any point but these two shows that the mux has not stopped
  have running : loop ≠ .check → loop ≠ .returned → ¬s.Stopped := by
    intro unchecked unreturned stopped
    rcases stopped.2 loop present with same | same
    · exact unchecked same
    · exact unreturned same
  cases loop with
  | check =>
      refine loopsMove_moveLoop s index _ _ ?_
      split
      · exact mayReach_returned s
      next opened =>
        exact mayReach_of_running (fun stopped => opened stopped.1)
          fun conn held => absurd held.symm (Option.some_ne_none conn)
  | read =>
      have idle : ∀ point : ReadLoopPoint, point.holds = none → s.MayReach point := by
        intro point none
        refine mayReach_of_running (running ReadLoopPoint.noConfusion ReadLoopPoint.noConfusion) ?_
        intro conn held
        exact absurd (held.symm.trans none) (Option.some_ne_none conn)
      cases read with
      | none => exact loopsMove_moveLoop s index _ _ (idle .retry rfl)
      | some packet =>
          refine loopsMove_moveLoop s index _ _ (idle _ ?_)
          split <;> rfl
  | retry =>
      refine loopsMove_moveLoop s index _ _ ?_
      split
      · exact mayReach_returned s
      · exact mayReach_check s
  | route packet =>
      refine loopsMove_moveLoop s index _ _ (mayReach_of_running
        (running ReadLoopPoint.noConfusion ReadLoopPoint.noConfusion) ?_)
      intro conn held
      obtain rfl := Option.some.inj held
      exact targets_target s packet
  | enqueue conn packet =>
      rw [readLoop]
      split
      · exact ⟨s.loops, s.mux.readChan, true, rfl, fun _ => Or.inl⟩
      · obtain ⟨readChan, same⟩ := enqueuePacket_frame s.mux conn packet
        rw [same]
        exact loopsMove_moveLoop s index .check readChan (mayReach_check s)
  | returned => exact ⟨s.loops, s.mux.readChan, s.crashed, rfl, fun _ => Or.inl⟩

theorem closersMove_moveCloser (s : MuxRun) (index : Nat) (point : ClosePoint)
    (closed connClosed : Bool) (stays : s.closed = true → closed = true)
    (passed : ({ s.moveCloser index point with closed, connClosed }).Passed point) :
    s.ClosersMove { s.moveCloser index point with closed, connClosed } := by
  refine ⟨closed, connClosed, s.closers.set index point, s.crashed, rfl, stays, ?_⟩
  intro closer calling
  rcases List.mem_or_eq_of_mem_set calling with before | rfl
  · exact Or.inl before
  · exact Or.inr passed

theorem closersMove_refl (s : MuxRun) (crashed : Bool) : s.ClosersMove { s with crashed } :=
  ⟨s.closed, s.connClosed, s.closers, crashed, rfl, id, fun _ => Or.inl⟩

theorem close_cases (s : MuxRun) (index : Nat) (point : ClosePoint) (passed : s.Passed point) :
    s.ClosersMove (s.close index point) ∨
      ∃ conn, s.Stopped ∧ (∀ id, conn = .handler id → id < s.mux.registered) ∧
        (s.safeClose conn).ClosersMove (s.close index point) := by
  cases point with
  | select =>
      refine Or.inl (closersMove_moveCloser s index _ s.closed s.connClosed id ?_)
      split <;> trivial
  | closeChan =>
      refine Or.inl ?_
      rw [close]
      split
      · exact closersMove_refl s true
      · exact closersMove_moveCloser s index .closeConn true s.connClosed (fun _ => rfl) rfl
  | closeConn =>
      exact Or.inl (closersMove_moveCloser s index .wait s.closed true id passed)
  | wait =>
      refine Or.inl ?_
      rw [close]
      split
      next done =>
        have stopped : s.Stopped := by
          refine ⟨passed, ?_⟩
          intro loop running
          exact Or.inr (eq_of_beq (List.all_eq_true.mp done loop running))
        exact closersMove_moveCloser s index _ s.closed s.connClosed id ⟨stopped, by simp⟩
      next => exact closersMove_refl s s.crashed
  | closeQueues left =>
      cases left with
      | nil => exact Or.inl (closersMove_moveCloser s index _ s.closed s.connClosed id passed.1)
      | cons conn left =>
          refine Or.inr ⟨conn, passed.1, ?_, ?_⟩
          · rintro id rfl
            exact absurd List.mem_cons_self (passed.2 id)
          · exact closersMove_moveCloser (s.safeClose conn) index (.closeQueues left) s.closed
              s.connClosed id ⟨passed.1, fun id later => passed.2 id (List.mem_cons_of_mem conn later)⟩
  | range keys visited =>
      refine Or.inl ?_
      rw [close]
      split
      · exact closersMove_moveCloser s index .returned s.closed s.connClosed id trivial
      · exact closersMove_refl s s.crashed
  | closeHandler keys visited handler =>
      refine Or.inr ⟨.handler handler, passed.1, ?_, ?_⟩
      · intro other same
        obtain rfl := VirtualConn.handler.inj same
        exact passed.2
      · exact closersMove_moveCloser (s.safeClose (.handler handler)) index (.range keys visited)
          s.closed s.connClosed id passed.1
  | returned => exact Or.inl (closersMove_refl s s.crashed)

theorem closersMove_visit (orderly : s.Orderly) (index : Nat) (remoteAddr : Bytes)
    (point : ClosePoint) (passed : s.Passed point) :
    s.ClosersMove (s.visit index remoteAddr point) := by
  cases point with
  | range keys visited =>
      rw [visit]
      split
      · exact closersMove_refl s s.crashed
      · split
        · exact closersMove_moveCloser s index _ s.closed s.connClosed id passed
        next handler found =>
          exact closersMove_moveCloser s index _ s.closed s.connClosed id
            ⟨passed, orderly.mapped remoteAddr handler found⟩
  | select => exact closersMove_refl s s.crashed
  | closeChan => exact closersMove_refl s s.crashed
  | closeConn => exact closersMove_refl s s.crashed
  | wait => exact closersMove_refl s s.crashed
  | closeQueues left => exact closersMove_refl s s.crashed
  | closeHandler keys visited handler => exact closersMove_refl s s.crashed
  | returned => exact closersMove_refl s s.crashed

inductive Outcome (s s' : MuxRun) (event : MuxEvent) : Prop where
  | keeps (orderly : s'.Orderly) (keeps : s.loans.Keeps s'.loans) (spares : s.Spares event)
  | closes (orderly : s'.Orderly) (conn : VirtualConn) (closes : s.loans.Closes s'.loans conn)
      (spares : s.Spares event ↔ ¬s.loans.held conn)

theorem Outcome.of_loopsMove {event : MuxEvent} (orderly : s.Orderly) (moves : s.LoopsMove s')
    (spares : s.Spares event) : Outcome s s' event :=
  .keeps (orderly.of_loopsMove moves) moves.keeps spares

theorem Outcome.of_closersMove {event : MuxEvent} (orderly : s.Orderly) (moves : s.ClosersMove s')
    (spares : s.Spares event) : Outcome s s' event :=
  .keeps (orderly.of_closersMove moves) moves.keeps spares

theorem Outcome.close (orderly : s.Orderly) (index : Nat) (point : ClosePoint)
    (calling : point ∈ s.closers) : Outcome s (s.close index point) (.closeGoesOn index) := by
  rcases close_cases s index point (orderly.passed point calling) with moves | closing
  · exact .of_closersMove orderly moves trivial
  · obtain ⟨conn, stopped, known, moves⟩ := closing
    have unlinked : ¬s.loans.linked conn := fun linked => linked.1 stopped
    have closed := orderly.safeClose unlinked known
    refine .closes (closed.of_closersMove moves) conn ?_ ?_
    · exact moves.closes unlinked
    · exact ⟨fun _ => not_held_of_stopped stopped, fun _ => trivial⟩

/-- The second half of `UnregisterKCPHandler`. Nobody can look the handler up any more, but a read loop
may have done so before. -/
theorem Outcome.safeClose (orderly : s.Orderly) (running : s.crashed = false) (index id : Nat)
    (here : s.removed[index]? = some id) :
    Outcome s { s.safeClose (.handler id) with removed := s.removed.eraseIdx index }
      (.safeClose index) := by
  obtain ⟨known, gone⟩ := orderly.removed id (List.mem_of_getElem? here)
  have unlinked : ¬s.loans.linked (.handler id) := by
    rintro ⟨_, remoteAddr, found⟩
    exact gone remoteAddr found
  have closed : (s.safeClose (.handler id)).Orderly := by
    refine orderly.safeClose unlinked ?_
    rintro other same
    obtain rfl := VirtualConn.handler.inj same
    exact known
  refine .closes { closed with removed := ?_ } (.handler id) (closes_safeClose unlinked) ?_
  · intro other removed
    exact closed.removed other (List.mem_of_mem_eraseIdx removed)
  · constructor
    · rintro spares ⟨loop, present, holds⟩
      exact spares running id here loop present holds
    · intro unheld _ other same loop present holds
      obtain rfl := Option.some.inj (here.symm.trans same)
      exact unheld ⟨loop, present, holds⟩

theorem Outcome.unchanged {event : MuxEvent} (orderly : s.Orderly) (spares : s.Spares event) :
    Outcome s s event :=
  .of_closersMove orderly (closersMove_refl s s.crashed) spares

theorem Outcome.elim {Point : Type} {event : MuxEvent} {found : Option Point} {next : Point → MuxRun}
    (orderly : s.Orderly) (absent : found = none → s.Spares event)
    (present : ∀ point, found = some point → Outcome s (next point) event) :
    Outcome s (found.elim s next) event := by
  cases found with
  | none => exact .unchanged orderly (absent rfl)
  | some point => exact present point rfl

theorem perform_outcome (orderly : s.Orderly) (running : s.crashed = false) (event : MuxEvent) :
    Outcome s (s.perform event) event := by
  cases event with
  | start =>
      refine .of_loopsMove orderly ⟨_, s.mux.readChan, s.crashed, rfl, ?_⟩ trivial
      intro loop present
      rcases List.mem_append.mp present with before | new
      · exact Or.inl before
      · obtain rfl := List.mem_singleton.mp new
        exact Or.inr (mayReach_check s)
  | readLoop index read =>
      refine .elim orderly (fun _ => trivial) fun loop here => .of_loopsMove orderly ?_ trivial
      exact loopsMove_readLoop s index read loop (List.mem_of_getElem? here)
  | registerKCPHandler remoteAddr =>
      exact .keeps (orderly.registerKCPHandler remoteAddr)
        (keeps_registerKCPHandler orderly remoteAddr) trivial
  | unregisterKCPHandler remoteAddr =>
      exact .keeps (orderly.unregisterKCPHandler remoteAddr)
        (keeps_unregisterKCPHandler s remoteAddr) trivial
  | safeClose index =>
      refine .elim orderly ?_ fun id here => .safeClose orderly running index id here
      intro absent _ id here
      exact absurd (here.symm.trans absent) (Option.some_ne_none id)
  | close =>
      refine .of_closersMove orderly ⟨s.closed, s.connClosed, _, s.crashed, rfl, id, ?_⟩ trivial
      intro closer calling
      rcases List.mem_append.mp calling with before | new
      · exact Or.inl before
      · obtain rfl := List.mem_singleton.mp new
        exact Or.inr trivial
  | closeGoesOn index =>
      exact .elim orderly (fun _ => trivial) fun point here =>
        .close orderly index point (List.mem_of_getElem? here)
  | visit index remoteAddr =>
      refine .elim orderly (fun _ => trivial) fun point here => .of_closersMove orderly ?_ trivial
      exact closersMove_visit orderly index remoteAddr point
        (orderly.passed point (List.mem_of_getElem? here))
  | readFrom conn =>
      exact .of_loopsMove orderly ⟨s.loops, _, s.crashed, rfl, fun _ => Or.inl⟩ trivial

theorem step_outcome (orderly : s.Orderly) (event : MuxEvent) : Outcome s (s.step event) event := by
  unfold step
  split
  next crashed =>
    refine .unchanged orderly ?_
    cases event with
    | safeClose index => exact fun running => absurd (running.symm.trans crashed) Bool.false_ne_true
    | start => trivial
    | readLoop index read => trivial
    | registerKCPHandler remoteAddr => trivial
    | unregisterKCPHandler remoteAddr => trivial
    | close => trivial
    | closeGoesOn index => trivial
    | visit index remoteAddr => trivial
    | readFrom conn => trivial
  next running => exact perform_outcome orderly (Bool.eq_false_iff.mpr running) event

theorem Outcome.orderly {event : MuxEvent} (outcome : Outcome s s' event) : s'.Orderly := by
  cases outcome with
  | keeps orderly _ _ => exact orderly
  | closes orderly _ _ _ => exact orderly

theorem Outcome.open_iff {event : MuxEvent} (outcome : Outcome s s' event) (orderly : s.Orderly)
    (opened : s.Open) : s'.Open ↔ s.Spares event := by
  cases outcome with
  | keeps _ keeps spares => exact ⟨fun _ => spares, fun _ => keeps.safe orderly.sound opened⟩
  | closes _ conn closes spares => exact (closes.safe_iff opened).trans spares.symm

theorem orderly_newMuxRun : newMuxRun.Orderly where
  mapped _ id found := absurd found.symm (Option.some_ne_none id)
  shut _ shut := absurd shut (Finset.notMem_empty _)
  injective _ _ id found := absurd found.symm (Option.some_ne_none id)
  removed _ gone := absurd gone List.not_mem_nil
  passed _ calling := absurd calling List.not_mem_nil
  sound conn _ shut := absurd shut (Finset.notMem_empty conn)

theorem Open.sends (opened : s.Open) (event : MuxEvent) : s.SendsOpen event := by
  cases event with
  | readLoop index read =>
      intro _ conn held
      obtain ⟨loop, here, holds⟩ := Option.bind_eq_some_iff.mp held
      exact opened conn ⟨loop, List.mem_of_getElem? here, holds⟩
  | start => trivial
  | registerKCPHandler remoteAddr => trivial
  | unregisterKCPHandler remoteAddr => trivial
  | safeClose index => trivial
  | close => trivial
  | closeGoesOn index => trivial
  | visit index remoteAddr => trivial
  | readFrom conn => trivial

/-- The mux stays clear of closed queues exactly if no `UnregisterKCPHandler` closes its handler
between a read loop's lookup and its send. `Close` does no harm: it waits for the read loops. -/
theorem sends_open_iff_spares (events : List MuxEvent) :
    (Run.Throughout step Open newMuxRun events ∧ Run.Along step SendsOpen newMuxRun events) ↔
      Run.Along step Spares newMuxRun events := by
  have opened : newMuxRun.Open := fun conn _ shut => absurd shut (Finset.notMem_empty conn)
  have exactly := Run.throughout_iff_along_under (I := Orderly) newMuxRun events orderly_newMuxRun
    opened (fun s event orderly => (step_outcome orderly event).orderly)
    (fun s event orderly opened => (step_outcome orderly event).open_iff orderly opened)
  constructor
  · exact fun both => exactly.mp both.1
  · intro spares
    have throughout := exactly.mpr spares
    exact ⟨throughout, Run.along_of_throughout _ _ throughout fun s event opened => opened.sends event⟩

theorem sends_open_closing_run :
    let packet : Datagram := ⟨[9], [1]⟩
    let send : List MuxEvent :=
      [.readLoop 0 none, .readLoop 0 (some packet), .readLoop 0 none, .readLoop 0 none]
    let events : List MuxEvent := List.flatten [[.start, .registerKCPHandler [1]], send,
      [.registerKCPHandler [1]], send, [.unregisterKCPHandler [1], .safeClose 0], send,
      [.registerKCPHandler [1], .close], List.replicate 3 (.closeGoesOn 0), [.readLoop 0 none],
      List.replicate 5 (.closeGoesOn 0), [.visit 0 [1], .closeGoesOn 0, .closeGoesOn 0]]
    (Run.run step newMuxRun events).closedQueues =
        {.kcpConn, .punchConn, .tentConn, .handler 1, .handler 2} ∧
      (Run.run step newMuxRun events).closers = [.returned] ∧
      Run.Along step SendsOpen newMuxRun events := by
  intro packet send events
  have spares : Run.Along step Spares newMuxRun events := by decide +kernel
  refine ⟨?_, ?_, ((sends_open_iff_spares events).mpr spares).2⟩
  · decide +kernel
  · decide +kernel

/-- The read loop has found the handler when `UnregisterKCPHandler` removes and closes it. -/
theorem unregister_closes_held_queue :
    let events : List MuxEvent := [.start, .registerKCPHandler [1], .readLoop 0 none,
      .readLoop 0 (some ⟨[9], [1]⟩), .readLoop 0 none, .unregisterKCPHandler [1], .safeClose 0,
      .readLoop 0 none]
    ¬Run.Along step SendsOpen newMuxRun events ∧ (Run.run step newMuxRun events).crashed = true := by
  decide

end MuxRun

end Tenet
