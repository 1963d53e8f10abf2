import Tenet.Lib.Sweep
import Tenet.PendingState

/-! `GracefulStop` beside the handshakes: which records it closes, and how often the channel `closing`
is closed. -/

namespace Tenet

open Lib

inductive StopPhase where
  | listPeers
  | findPeer (left peerIDs : List Bytes)
  | setDisconnecting (record : Nat) (left peerIDs : List Bytes)
  /-- the wait, and `close(n.closing)` behind it -/
  | drain (peerIDs : List Bytes)
  | findRecord (left : List Bytes)
  | closePeer (record : Nat) (left : List Bytes)
  deriving DecidableEq, Repr

/-- The handshakes of a node, the calls of `GracefulStop` that passed their test, each with where it
stands unless it has returned, and the number of times that `closing` was closed. -/
structure Stopping where
  initiators : Initiators
  stops : List (Option StopPhase)
  closings : Nat

inductive StopEvent where
  | handshake (event : InitiatorEvent)
  | gracefulStop
  | advance (index : Nat)

def stopSection (peers : RefMap Bytes Peer) : StopPhase → RefMap Bytes Peer × Option StopPhase × Bool
  | .listPeers => (peers, some (.findPeer peers.table.keys peers.table.keys), false)
  | .findPeer [] peerIDs => (peers, some (.drain peerIDs), false)
  | .findPeer (peerID :: left) peerIDs =>
      match peers.find peerID with
      | none => (peers, some (.findPeer left peerIDs), false)
      | some record => (peers, some (.setDisconnecting record left peerIDs), false)
  | .setDisconnecting record left peerIDs =>
      (peers.modify record fun p => { p with state := .disconnecting },
        some (.findPeer left peerIDs), false)
  | .drain peerIDs => (peers, some (.findRecord peerIDs), true)
  | .findRecord [] => (peers, none, false)
  | .findRecord (peerID :: left) =>
      match peers.find peerID with
      | none => (peers, some (.findRecord left), false)
      | some record => (peers, some (.closePeer record left), false)
  | .closePeer record left =>
      (peers.modify record fun p => p.close.1, some (.findRecord left), false)

/-- The record into which a section of a handshake puts a session. -/
def CallPhase.installs (peers : RefMap Bytes Peer) : CallPhase → Option Nat
  | .addPeer _ _ => some peers.objects.length
  | .switchRecord _ record | .refreshRecord _ record => some record
  | _ => none

/-- A shutdown that stands here is still to close the record, under this identity or as the next. -/
def coveredBy (record : Nat) (peerID : Bytes) : Option StopPhase → Bool
  | some .listPeers => true
  | some (.findPeer _ peerIDs) | some (.setDisconnecting _ _ peerIDs) | some (.drain peerIDs) =>
      peerIDs.contains peerID
  | some (.findRecord left) => left.contains peerID
  | some (.closePeer next left) => left.contains peerID || next == record
  | none => false

namespace Stopping

variable (env : Env) (s : Stopping)

def peers : RefMap Bytes Peer := s.initiators.hub.shared.peers

def withPeers (peers : RefMap Bytes Peer) : Stopping :=
  { s with
    initiators := { s.initiators with
      hub := { s.initiators.hub with shared := { s.initiators.hub.shared with peers } } } }

/-- A call that finds `closing` closed returns at once. -/
def step : StopEvent → Stopping
  | .handshake event => { s with initiators := s.initiators.step env event }
  | .gracefulStop =>
      if 0 < s.closings then s else { s with stops := s.stops ++ [some .listPeers] }
  | .advance index =>
      match s.stops[index]? with
      | some (some phase) =>
          let (peers, next, closes) := stopSection s.peers phase
          { s.withPeers peers with
            stops := s.stops.set index next
            closings := if closes then s.closings + 1 else s.closings }
      | _ => s

def Quiet : Prop := ∀ call ∈ s.initiators.hub.calls, call.2 = none

/-- The channel is closed at most once, and once by the time that a shutdown is over; from then on,
when no handshake is under way, every record is disconnected and without a session. -/
structure ShutDown : Prop where
  once : s.closings ≤ 1
  closed : none ∈ s.stops → s.closings = 1
  peers : none ∈ s.stops → s.Quiet → ∀ id p, s.peers.value id = some p →
    p.state = .disconnected ∧ p.session = none

/-- A stored record into which a handshake puts a session is still to be closed by every shutdown, and
no shutdown starts between the test of another and its `close(n.closing)`. -/
def orderly : StopEvent → Bool
  | .gracefulStop => decide (0 < s.closings) || s.stops.isEmpty
  | .handshake (.hub (.advance index)) =>
      let after := (s.step env (.handshake (.hub (.advance index)))).peers
      (s.initiators.hub.phase index).all fun phase => (phase.installs s.peers).all fun record =>
        after.table.keys.all fun peerID =>
          decide (after.find peerID ≠ some record) || s.stops.all (coveredBy record peerID)
  | _ => true

end Stopping

def Peer.Over (p : Peer) : Prop := p.state = .disconnected ∧ p.session = none

section Records

variable (env : Env)

theorem step_dwindles (s : Shared) (call : HandshakeCall) (phase : CallPhase)
    (passive : phase.installs s.peers = none) :
    RefMap.Dwindles Peer.Over s.peers (s.step env call phase).1.peers := by
  cases phase with
  | addPeer p onConnected => cases passive
  | switchRecord session record => cases passive
  | refreshRecord session record => cases passive
  | linkRecord session record =>
      apply RefMap.Dwindles.modify
      intro p closed
      rcases relayLinked_eq s.node p call.remoteAddr.text with ⟨linkMode, relayTarget, linked⟩
      rw [linked]
      exact closed
  | touchRecord session record => exact RefMap.Dwindles.modify s.peers record _ fun p closed => closed
  | lookup | process | lookupPeer | checkCapacity | candidate =>
      simp only [Shared.step]
      split <;> exact RefMap.Dwindles.refl _
  | failed | dropState | reply | clearPending | recordAddr | compare | switchTables | addRelay =>
      exact RefMap.Dwindles.refl _

theorem step_renews (s : Shared) (call : HandshakeCall) (phase : CallPhase) {record : Nat}
    (installs : phase.installs s.peers = some record) :
    RefMap.Renews record s.peers (s.step env call phase).1.peers := by
  cases phase with
  | addPeer p onConnected =>
      cases installs
      exact RefMap.Renews.put s.peers p.id p
  | switchRecord session other =>
      cases installs
      exact RefMap.Renews.modify s.peers _ _
  | refreshRecord session other =>
      cases installs
      exact RefMap.Renews.modify s.peers _ _
  | _ => cases installs

theorem register_peers (m : Initiators) (index : Nat) :
    (m.register index).hub.shared.peers = m.hub.shared.peers := by
  unfold Initiators.register
  split
  · split <;> rfl
  · rfl

theorem unregister_peers (m : Initiators) (index : Nat) :
    (m.unregister index).hub.shared.peers = m.hub.shared.peers := by
  unfold Initiators.unregister
  split <;> rfl

theorem initiators_peers (m : Initiators) (event : InitiatorEvent) :
    (∃ hub, event = .hub hub) ∨ (m.step env event).hub.shared.peers = m.hub.shared.peers := by
  cases event with
  | hub event => exact Or.inl ⟨event, rfl⟩
  | registerPendingHandshakes index =>
      refine Or.inr ?_
      simp only [Initiators.step]
      split
      · rw [register_peers, register_peers]
      · rfl
  | sendFastRehandshake transport addr ephemeral now =>
      refine Or.inr ?_
      simp only [Initiators.step]
      split
      · rfl
      · rw [register_peers]
        rfl
  | dropUnsent index | expirePending index =>
      refine Or.inr ?_
      simp only [Initiators.step]
      split
      · exact unregister_peers m index
      · rfl
  | connectViaRelay relayAddr targetAddr ephemeral now =>
      exact Or.inr (register_peers (m.build .relay (.udp, relayAddr) ephemeral now) m.attempts.length)
  | connect | writeToUDP | writeTCPPacket | sendRaw | writeToRelay | cleanupStaleMappings =>
      exact Or.inr rfl

end Records

def Progress (peers : RefMap Bytes Peer) (closings : Nat) : Option StopPhase → Prop
  | some .listPeers => closings = 0
  | some (.findPeer _ peerIDs) | some (.setDisconnecting _ _ peerIDs) | some (.drain peerIDs) =>
      closings = 0 ∧ ∀ peerID record, peers.find peerID = some record → peerID ∈ peerIDs
  | some (.findRecord left) => closings = 1 ∧ peers.Swept Peer.Over left none
  | some (.closePeer record left) => closings = 1 ∧ peers.Swept Peer.Over left (some record)
  | none => closings = 1 ∧ peers.Swept Peer.Over [] none

theorem progress_dwindles {before after : RefMap Bytes Peer} {closings : Nat}
    {phase : Option StopPhase} (progress : Progress before closings phase)
    (change : RefMap.Dwindles Peer.Over before after) : Progress after closings phase := by
  have listed {peerIDs : List Bytes}
      (all : ∀ peerID record, before.find peerID = some record → peerID ∈ peerIDs) :
      ∀ peerID record, after.find peerID = some record → peerID ∈ peerIDs :=
    fun peerID record found => all peerID record (change.entries peerID record found)
  cases phase with
  | none => exact ⟨progress.1, progress.2.dwindle change⟩
  | some phase =>
      cases phase with
      | listPeers => exact progress
      | findPeer left peerIDs => exact ⟨progress.1, listed progress.2⟩
      | setDisconnecting record left peerIDs => exact ⟨progress.1, listed progress.2⟩
      | drain peerIDs => exact ⟨progress.1, listed progress.2⟩
      | findRecord left => exact ⟨progress.1, progress.2.dwindle change⟩
      | closePeer record left => exact ⟨progress.1, progress.2.dwindle change⟩

theorem progress_renews {before after : RefMap Bytes Peer} {closings : Nat}
    {phase : Option StopPhase} (progress : Progress before closings phase) {record : Nat}
    (change : RefMap.Renews record before after)
    (covered : ∀ peerID, after.find peerID = some record → coveredBy record peerID phase = true) :
    Progress after closings phase := by
  have listed {peerIDs : List Bytes}
      (all : ∀ peerID other, before.find peerID = some other → peerID ∈ peerIDs)
      (new : ∀ peerID, after.find peerID = some record → peerIDs.contains peerID = true) :
      ∀ peerID other, after.find peerID = some other → peerID ∈ peerIDs := by
    intro peerID other found
    by_cases same : other = record
    · exact List.contains_iff_mem.mp (new peerID (same ▸ found))
    · exact all peerID other (change.entries peerID other same found)
  cases phase with
  | none =>
      refine ⟨progress.1, progress.2.renew change fun peerID found => ?_⟩
      cases covered peerID found
  | some phase =>
      cases phase with
      | listPeers => exact progress
      | findPeer left peerIDs => exact ⟨progress.1, listed progress.2 covered⟩
      | setDisconnecting record left peerIDs => exact ⟨progress.1, listed progress.2 covered⟩
      | drain peerIDs => exact ⟨progress.1, listed progress.2 covered⟩
      | findRecord left =>
          exact ⟨progress.1, progress.2.renew change fun peerID found =>
            Or.inl (List.contains_iff_mem.mp (covered peerID found))⟩
      | closePeer next left =>
          refine ⟨progress.1, progress.2.renew change fun peerID found => ?_⟩
          exact (Bool.or_eq_true_iff.mp (covered peerID found)).imp List.contains_iff_mem.mp
            fun same => congrArg some (beq_iff_eq.mp same)

theorem progress_section {peers : RefMap Bytes Peer} {closings : Nat} {phase : StopPhase}
    (progress : Progress peers closings (some phase)) :
    Progress (stopSection peers phase).1
      (if (stopSection peers phase).2.2 then closings + 1 else closings)
      (stopSection peers phase).2.1 := by
  cases phase with
  | listPeers =>
      refine ⟨progress, fun peerID record found => ?_⟩
      exact (GoMap.mem_keys peers.table peerID).mpr ⟨record, found⟩
  | findPeer left peerIDs =>
      cases left with
      | nil => exact progress
      | cons peerID left =>
          cases found : peers.find peerID with
          | none =>
              simp only [stopSection, found]
              exact progress
          | some record =>
              simp only [stopSection, found]
              exact progress
  | setDisconnecting record left peerIDs => exact progress
  | drain peerIDs => exact ⟨congrArg (· + 1) progress.1, RefMap.swept_listed progress.2⟩
  | findRecord left =>
      cases left with
      | nil => exact progress
      | cons peerID left =>
          cases found : peers.find peerID with
          | none =>
              simp only [stopSection, found]
              exact ⟨progress.1, progress.2.skip found⟩
          | some record =>
              simp only [stopSection, found]
              exact ⟨progress.1, progress.2.take found⟩
  | closePeer record left => exact ⟨progress.1, progress.2.finish _ fun p => ⟨rfl, rfl⟩⟩

namespace Stopping

variable (env : Env) {s : Stopping}

def Single (s : Stopping) : Prop :=
  (s.stops = [] ∧ s.closings = 0) ∨
    ∃ phase, s.stops = [phase] ∧ Progress s.peers s.closings phase

theorem shutDown_of_single (single : s.Single) : s.ShutDown := by
  rcases single with ⟨none_yet, unclosed⟩ | ⟨phase, only, progress⟩
  · have absent : none ∉ s.stops := by
      rw [none_yet]
      exact List.not_mem_nil
    exact ⟨by omega, fun returned => absurd returned absent, fun returned => absurd returned absent⟩
  · have through (returned : none ∈ s.stops) : Progress s.peers s.closings none := by
      rw [only] at returned
      rw [List.mem_singleton.mp returned]
      exact progress
    refine ⟨?_, fun returned => (through returned).1, ?_⟩
    · cases phase with
      | none => exact Nat.le_of_eq progress.1
      | some phase =>
          cases phase with
          | listPeers => exact Nat.le_succ_of_le (Nat.le_of_eq progress)
          | findPeer left peerIDs => exact Nat.le_succ_of_le (Nat.le_of_eq progress.1)
          | setDisconnecting record left peerIDs => exact Nat.le_succ_of_le (Nat.le_of_eq progress.1)
          | drain peerIDs => exact Nat.le_succ_of_le (Nat.le_of_eq progress.1)
          | findRecord left => exact Nat.le_of_eq progress.1
          | closePeer record left => exact Nat.le_of_eq progress.1
    · intro returned _ id p stored
      exact (through returned).2.value stored

theorem handshake_progress (event : InitiatorEvent)
    (allowed : s.orderly env (.handshake event) = true)
    {phase : Option StopPhase} (only : s.stops = [phase])
    (progress : Progress s.peers s.closings phase) :
    Progress (s.step env (.handshake event)).peers s.closings phase := by
  rcases initiators_peers env s.initiators event with ⟨hub, rfl⟩ | same
  · cases hub with
    | call call => exact progress
    | removePeer peerID => exact progress_dwindles progress (RefMap.Dwindles.delete s.peers peerID)
    | advance index =>
        rcases s.initiators.hub.advance_cases env index with ⟨idle, -⟩ | ⟨call, standing, stands⟩
        · have unchanged : (s.step env (.handshake (.hub (.advance index)))).peers = s.peers := by
            simp only [peers, step, Initiators.step, idle]
          rw [unchanged]
          exact progress
        · have stepped : (s.step env (.handshake (.hub (.advance index)))).peers =
              (s.initiators.hub.shared.step env call standing).1.peers := by
            simp only [peers, step, Initiators.step, Hub.step_advance env _ index call standing stands]
          have now : s.initiators.hub.phase index = some standing := by
            rw [Hub.phase, stands, Option.bind_some]
          cases installs : standing.installs s.peers with
          | none =>
              rw [stepped]
              exact progress_dwindles progress (step_dwindles env _ call standing installs)
          | some record =>
              simp only [orderly, now, installs, only, Option.all_some, List.all_eq_true,
                List.all_cons, List.all_nil, Bool.and_true, Bool.or_eq_true, decide_eq_true_eq] at allowed
              apply progress_renews progress
              · rw [stepped]
                exact step_renews env _ call standing installs
              · intro peerID found
                have listed := (GoMap.mem_keys _ peerID).mpr ⟨record, found⟩
                exact (allowed peerID listed).resolve_left fun other => other found
  · have unchanged : (s.step env (.handshake event)).peers = s.peers := same
    rw [unchanged]
    exact progress

theorem single_step (event : StopEvent) (single : s.Single) (allowed : s.orderly env event = true) :
    (s.step env event).Single := by
  cases event with
  | handshake event =>
      rcases single with none_yet | ⟨phase, only, progress⟩
      · exact Or.inl none_yet
      · exact Or.inr ⟨phase, only, handshake_progress env event allowed only progress⟩
  | gracefulStop =>
      simp only [step]
      split
      · exact single
      · next unclosed =>
          have first : s.stops = [] := by simpa [orderly, unclosed] using allowed
          refine Or.inr ⟨some .listPeers, ?_, Nat.eq_zero_of_not_pos unclosed⟩
          simp only [first, List.nil_append]
  | advance index =>
      rcases single with ⟨none_yet, unclosed⟩ | ⟨phase, only, progress⟩
      · simp only [step, none_yet, List.getElem?_nil]
        exact Or.inl ⟨none_yet, unclosed⟩
      · cases index with
        | succ index =>
            simp only [step, only, List.getElem?_cons_succ, List.getElem?_nil]
            exact Or.inr ⟨phase, only, progress⟩
        | zero =>
            cases phase with
            | none =>
                simp only [step, only, List.getElem?_cons_zero]
                exact Or.inr ⟨none, only, progress⟩
            | some phase =>
                simp only [step, only, List.getElem?_cons_zero, List.set_cons_zero]
                exact Or.inr ⟨_, rfl, progress_section progress⟩

/-- In every run in which handshakes install sessions only where the shutdown is still to close them,
and in which no shutdown starts while another is before its `close(n.closing)`, the channel is closed
once and a shutdown that is over leaves every peer closed. -/
theorem shutDown_orderly (start : Stopping) (events : List StopEvent) (running : start.stops = [])
    (unclosed : start.closings = 0)
    (allowed : Run.Along (step env) (fun s event => s.orderly env event = true) start events) :
    Run.Throughout (step env) ShutDown start events := by
  have single := Run.throughout_keeps start events (Or.inl ⟨running, unclosed⟩) allowed
    fun s event single allowed => single_step env event single allowed
  exact Run.throughout_mono start events single fun s single => shutDown_of_single single

def leaves (s : Stopping) (id : Bytes) : Bool :=
  s.stops.any (·.isNone) && s.initiators.hub.calls.all (·.2.isNone) &&
    (s.peers.value id).any fun p => p.session.isSome

theorem not_shutDown_of_leaves {s : Stopping} (id : Bytes) (left : s.leaves id = true) :
    ¬s.ShutDown := by
  intro shutDown
  simp only [leaves, Bool.and_eq_true, List.any_eq_true, List.all_eq_true, Option.isNone_iff_eq_none,
    Option.any_eq_true] at left
  obtain ⟨⟨⟨stop, member, rfl⟩, quiet⟩, p, stored, live⟩ := left
  rw [(shutDown.peers member quiet id p stored).2] at live
  cases live

namespace Stopped

open Initiators.Connects (node peer)

def start : Stopping := ⟨⟨⟨⟨node, ∅, RefMap.put ∅ peer.id peer⟩, []⟩, []⟩, [], 0⟩

def reader (index : Nat) (addr : Bytes) (payload : Message) : List StopEvent :=
  .handshake (.hub (.call ⟨none, ⟨.udp, addr⟩, .udp, payload, [8], 0⟩)) ::
    List.replicate 12 (.handshake (.hub (.advance index)))

def third (static : Key) : Message :=
  .three (.two (.one [7]) (prologuePrefix ++ [1]) [8] node.identity.noisePublicKey) static

def inbound (index : Nat) (addr : Bytes) (static : Key) : List StopEvent :=
  reader index addr (.one [7]) ++ reader (index + 1) addr (third static)

def sections (index count : Nat) : List StopEvent := List.replicate count (.advance index)

def revived : List StopEvent :=
  reader 0 [10] (.one [7]) ++ (reader 1 [10] (third [20])).take 7 ++ [.gracefulStop] ++ sections 0 7 ++
    (reader 1 [10] (third [20])).drop 7 ++ sections 0 1

def run (events : List StopEvent) : Stopping := Run.run (Stopping.step .padded) start events

end Stopped

open Stopped in
/-- Another peer has connected before, and the known one refreshes its session during the wait. -/
theorem shutDown_orderly_after :
    let events := inbound 0 [30] [40] ++ [.gracefulStop] ++ sections 0 6 ++ inbound 2 [10] [20] ++
      sections 0 6 ++ [.gracefulStop]
    (start.stops = [] ∧ start.closings = 0) ∧
      (Stopped.run events).stops = [none] ∧ (Stopped.run events).ShutDown :=
  ⟨⟨rfl, rfl⟩, by decide +kernel, Run.throughout_run start _ (shutDown_orderly .padded start
    (inbound 0 [30] [40] ++ [.gracefulStop] ++ sections 0 6 ++ inbound 2 [10] [20] ++
      sections 0 6 ++ [.gracefulStop]) rfl rfl (by decide +kernel))⟩

open Stopped in
/-- During the wait a new peer connects, and it is not on the list. Or a handshake of the known peer is
under way when its record is closed, and gives it a session again. And two calls that have both tested
`closing` both close it. -/
theorem shutdown_leaves_peers :
    ¬(Stopped.run ([.gracefulStop] ++ sections 0 4 ++ inbound 0 [30] [40] ++ sections 0 4)).ShutDown ∧
      ¬(Stopped.run revived).ShutDown ∧
      (Stopped.run ([.gracefulStop, .gracefulStop] ++ sections 0 8 ++ sections 1 5)).closings = 2 := by
  refine ⟨not_shutDown_of_leaves (peerIDOf .padded [40]) (by decide +kernel), ?_, by decide +kernel⟩
  exact not_shutDown_of_leaves (peerIDOf .padded [20]) (by decide +kernel)

end Stopping

end Tenet
