import Tenet.Lib.Run

/-! One call of `connectContext` with its goroutines: the dial and accept goroutines of `Punch`, the
TCP and UDP workers, `awaitConnectResult`, `awaitLateTCPUpgrade` and `scheduleRelayFallback`.

Each goroutine takes its steps in its own order, and a `select` takes any case that is ready. Times are
in nanoseconds from the start of the workers. -/

namespace Tenet

/-- The connections of one `Punch`: each of its goroutines establishes at most one. -/
inductive PunchConn where
  | dialed
  | accepted
  deriving DecidableEq, Repr

inductive PuncherPhase where
  | working
  /-- has a connection and is about to send it to `resultChan` -/
  | holding
  | finished
  deriving DecidableEq, Repr

inductive TCPWorkerPhase where
  /-- inside `Punch`, waiting -/
  | punching
  /-- `Punch` has returned, with a connection or with an error -/
  | sending (conn : Option PunchConn)
  | finished
  deriving DecidableEq, Repr

inductive UDPWorkerPhase where
  | looping
  | sending
  | finished
  deriving DecidableEq, Repr

inductive ConnectResult where
  /-- without a connection it carries the error -/
  | tcp (conn : Option PunchConn)
  | udp
  deriving DecidableEq, Repr

/-- Why `awaitConnectResult` returns. -/
inductive ConnectOutcome where
  | tcp
  | udp
  /-- an error, or a connect through a relay -/
  | other
  deriving DecidableEq, Repr

inductive AwaitPhase where
  | awaiting
  | writing (conn : PunchConn)
  /-- about to return, and with it to run the deferred `punchCancel` -/
  | leaving (outcome : ConnectOutcome)
  | returned (outcome : ConnectOutcome)
  deriving DecidableEq, Repr

inductive LatePhase where
  | idle
  | awaiting
  | writing (conn : PunchConn)
  | finished
  deriving DecidableEq, Repr

inductive FallbackPhase where
  | idle
  | waiting
  | cancelled
  /-- past `DialTimeout`: whether `addrToPeer` had the address, and whether `connectViaRelay` was
  called -/
  | done (known relayed : Bool)
  deriving DecidableEq, Repr

def second : Nat := 1000000000

structure ConnectSetup where
  dialTimeout : Nat
  enableRelay : Bool
  /-- `ReconnectTimeout`, where `reconnectLoop` makes the call -/
  reconnectTimeout : Option Nat

def ConnectSetup.connectTimeout (setup : ConnectSetup) : Nat :=
  if setup.dialTimeout = 0 then 5 * second else setup.dialTimeout

structure ConnectFlow where
  now : Nat := 0
  /-- the application has cancelled the context it passed -/
  appCancelled : Bool := false
  /-- the context of the attempt is over, by its timeout or by the `cancel` of `reconnectLoop` -/
  attemptOver : Bool := false
  punchCancelled : Bool := false
  closing : Bool := false
  puncher : PunchConn → PuncherPhase := fun _ => .working
  resultChan : List PunchConn := []
  tcpWorker : TCPWorkerPhase := .punching
  udpWorker : UDPWorkerPhase := .looping
  resultCh : List ConnectResult := []
  main : AwaitPhase := .awaiting
  late : LatePhase := .idle
  lateDeadline : Nat := 0
  fallback : FallbackPhase := .idle
  fallbackDeadline : Nat := 0
  established : List PunchConn := []
  /-- those established inside the window of `awaitLateTCPUpgrade` -/
  establishedLate : List PunchConn := []
  /-- given to `handleTCP` -/
  handed : List PunchConn := []
  closed : List PunchConn := []

inductive FlowEvent where
  | tick (elapsed : Nat)
  | appCancel
  | attemptTimeout
  | loopCancel
  | close
  /-- the goroutine that cancels the workers when the node is closing -/
  | closingSeen
  /-- `DialContext` or `Accept` returns a connection -/
  | establish (conn : PunchConn)
  | giveUp (conn : PunchConn)
  | offer (conn : PunchConn)
  | closeHeld (conn : PunchConn)
  | punchTake
  | punchFail
  | workerSend
  | markerTimeout
  | udpStop
  | markerSend
  | mainTake
  | mainWrite (accepted : Bool)
  | mainLeave
  | mainReturn
  | lateTake
  | lateWrite (accepted : Bool)
  | lateLeave
  | fallbackCancel
  | fallbackFire (known : Bool)

namespace ConnectFlow

variable (setup : ConnectSetup) (s : ConnectFlow)

def ctxDone : Bool := s.appCancelled || s.attemptOver

def punchDone : Bool := s.punchCancelled || s.ctxDone

/-- The context that the TCP worker passes to `Punch` is done. -/
def tcpDone : Bool := s.punchDone || decide (10 * second ≤ s.now)

/-- The context of the two goroutines of `Punch` is done: `Punch` cancels it when it returns. -/
def puncherDone : Bool := decide (s.tcpWorker ≠ .punching) || s.tcpDone

/-- The call returns, or has returned, because the UDP marker arrived first. -/
def viaMarker : Bool := decide (s.main = .leaving .udp) || decide (s.main = .returned .udp)

def setPuncher (conn : PunchConn) (phase : PuncherPhase) : PunchConn → PuncherPhase :=
  fun other => if other = conn then phase else s.puncher other

def step : FlowEvent → ConnectFlow
  | .tick elapsed => { s with now := s.now + elapsed }
  | .appCancel => { s with appCancelled := true }
  | .attemptTimeout =>
      if setup.reconnectTimeout.any (· ≤ s.now) then { s with attemptOver := true } else s
  | .loopCancel =>
      match setup.reconnectTimeout, s.main with
      | some _, .returned _ => { s with attemptOver := true }
      | _, _ => s
  | .close => { s with closing := true }
  | .closingSeen => if s.closing then { s with punchCancelled := true } else s
  | .establish conn =>
      if s.puncher conn = .working then
        { s with
          puncher := s.setPuncher conn .holding
          established := conn :: s.established
          establishedLate :=
            if s.viaMarker ∧ s.now < s.lateDeadline then conn :: s.establishedLate
            else s.establishedLate }
      else s
  | .giveUp conn =>
      -- the accept goroutine also returns when it cannot listen
      if s.puncher conn = .working ∧ (s.puncherDone = true ∨ conn = .accepted) then
        { s with puncher := s.setPuncher conn .finished }
      else s
  | .offer conn =>
      if s.puncher conn = .holding ∧ s.resultChan.length < 2 then
        { s with puncher := s.setPuncher conn .finished, resultChan := s.resultChan ++ [conn] }
      else s
  | .closeHeld conn =>
      if s.puncher conn = .holding ∧ s.puncherDone = true then
        { s with puncher := s.setPuncher conn .finished, closed := conn :: s.closed }
      else s
  | .punchTake =>
      match s.tcpWorker, s.resultChan with
      | .punching, conn :: rest => { s with tcpWorker := .sending (some conn), resultChan := rest }
      | _, _ => s
  | .punchFail =>
      if s.tcpWorker = .punching ∧ s.tcpDone = true then { s with tcpWorker := .sending none } else s
  | .workerSend =>
      match s.tcpWorker with
      | .sending conn => { s with tcpWorker := .finished, resultCh := s.resultCh ++ [.tcp conn] }
      | _ => s
  | .markerTimeout =>
      if s.udpWorker = .looping ∧ 2 * second ≤ s.now then { s with udpWorker := .sending } else s
  | .udpStop =>
      if s.udpWorker = .looping ∧ s.punchDone = true then { s with udpWorker := .finished } else s
  | .markerSend =>
      if s.udpWorker = .sending then
        { s with udpWorker := .finished, resultCh := s.resultCh ++ [.udp] }
      else s
  | .mainTake =>
      match s.main, s.resultCh with
      | .awaiting, .tcp (some conn) :: rest => { s with main := .writing conn, resultCh := rest }
      | .awaiting, .tcp none :: rest => { s with resultCh := rest }
      | .awaiting, .udp :: rest =>
          { s with
            main := .leaving .udp
            resultCh := rest
            late := .awaiting
            lateDeadline := s.now + 10 * second
            fallback := if setup.enableRelay then .waiting else .idle
            fallbackDeadline := s.now + setup.dialTimeout }
      | _, _ => s
  | .mainWrite accepted =>
      match s.main with
      | .writing conn =>
          if accepted then { s with main := .leaving .tcp, handed := conn :: s.handed }
          else { s with main := .leaving .other, closed := conn :: s.closed }
      | _ => s
  | .mainLeave =>
      if s.main = .awaiting ∧
          (s.ctxDone = true ∨ s.closing = true ∨ setup.connectTimeout ≤ s.now) then
        { s with main := .leaving .other }
      else s
  | .mainReturn =>
      match s.main with
      | .leaving outcome => { s with main := .returned outcome, punchCancelled := true }
      | _ => s
  | .lateTake =>
      match s.late, s.resultCh with
      | .awaiting, .tcp (some conn) :: rest => { s with late := .writing conn, resultCh := rest }
      | .awaiting, _ :: rest => { s with resultCh := rest }
      | _, _ => s
  | .lateWrite accepted =>
      match s.late with
      | .writing conn =>
          if accepted then { s with late := .finished, handed := conn :: s.handed }
          else { s with late := .finished, closed := conn :: s.closed }
      | _ => s
  | .lateLeave =>
      if s.late = .awaiting ∧
          (s.closing = true ∨ s.ctxDone = true ∨ s.lateDeadline ≤ s.now) then
        { s with late := .finished }
      else s
  | .fallbackCancel =>
      if s.fallback = .waiting ∧ (s.closing = true ∨ s.ctxDone = true) then
        { s with fallback := .cancelled }
      else s
  | .fallbackFire known =>
      if s.fallback = .waiting ∧ s.fallbackDeadline ≤ s.now then
        { s with fallback := .done known (!known) }
      else s

end ConnectFlow

end Tenet
