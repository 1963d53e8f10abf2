import Tenet.Wire
import Tenet.Lib.GoMap

/-! The reconnect tasks of `node/reconnect.go`, one step for each critical section of `rm.mu`, each
`select` and each call into the node. -/

namespace Tenet

open Lib

structure ReconnectConfig where
  enabled : Bool := true
  /-- 0 retries forever. -/
  maxRetries : Int := 10

inductive ReconnectState
  | idle
  | waiting
  | connecting
  | success
  | failed
  deriving DecidableEq, Repr

/-- Times are in nanoseconds, the zero `time.Time` is `none`, an error is its text. -/
structure ReconnectEntry where
  peerID : Bytes
  addr : Bytes
  state : ReconnectState
  attempt : Nat
  maxRetries : Int
  nextRetry : Option Int
  lastError : Option Bytes
  disconnectAt : Int
  deriving DecidableEq, Repr

structure ReconnectCallbacks where
  onReconnecting : Bool := true
  onReconnected : Bool := true
  onGaveUp : Bool := true

/-- The cases of the selects of `reconnectLoop`; `proceed` is the default case or the timer. -/
inductive SelectCase
  | done
  | closing
  | proceed
  deriving DecidableEq, Repr

/-- Where a goroutine of `reconnectLoop` stands, in the order of its body. -/
inductive LoopPoint
  | top
  | checkTop
  | count
  | prepare
  | announce (delay : Int)
  | wait
  | checkWaited
  | dial
  | connect
  | recordError (err : Bytes)
  | confirm
  | checkConfirmed
  | succeed
  | giveUp
  | returned
  deriving DecidableEq, Repr

/-- What the surroundings answer to one step; each step reads the part it asks for. The delay is
the result of `calculateBackoff`. -/
structure LoopAnswer where
  select : SelectCase := .proceed
  connected : Bool := false
  connectErr : Option Bytes := none
  now : Int := 0
  delay : Int := 0

/-- What a goroutine asks, with the answer it got, and the callbacks it starts. -/
inductive LoopAction
  | select (chosen : SelectCase)
  | isPeerConnected (answer : Bool)
  | connectContext (addr : Bytes) (err : Option Bytes)
  | onReconnecting (peerID : Bytes) (attempt : Nat) (delay : Int)
  | onReconnected (peerID : Bytes) (attempts : Nat)
  | onGaveUp (peerID : Bytes) (attempts : Nat) (lastErr : Option Bytes)
  deriving DecidableEq, Repr

structure ReconnectLoop where
  entry : ReconnectEntry
  point : LoopPoint
  deriving DecidableEq, Repr

/-- The entry that `ScheduleReconnect` stores, and the goroutine it starts on it. -/
def newReconnectLoop (cfg : ReconnectConfig) (peerID addr : Bytes) (now : Int) : ReconnectLoop where
  entry :=
    { peerID, addr, state := .waiting, attempt := 0, maxRetries := cfg.maxRetries,
      nextRetry := none, lastError := none, disconnectAt := now }
  point := .top

namespace ReconnectLoop

def selected (loop : ReconnectLoop) (chosen : SelectCase) (next : LoopPoint) :
    ReconnectLoop × List LoopAction :=
  ({ loop with point := if chosen = .proceed then next else .returned }, [.select chosen])

def checked (loop : ReconnectLoop) (connected : Bool) (next : LoopPoint) :
    ReconnectLoop × List LoopAction :=
  ({ loop with point := if connected then .succeed else next }, [.isPeerConnected connected])

/-- The deletion of the entry from the table is in `ReconnectManager.runTask`. -/
def handleReconnectSuccess (callbacks : ReconnectCallbacks) (loop : ReconnectLoop) :
    ReconnectLoop × List LoopAction :=
  ({ entry := { loop.entry with state := .success }, point := .returned },
    if callbacks.onReconnected then [.onReconnected loop.entry.peerID loop.entry.attempt] else [])

def handleReconnectFailed (callbacks : ReconnectCallbacks) (loop : ReconnectLoop) :
    ReconnectLoop × List LoopAction :=
  ({ entry := { loop.entry with state := .failed }, point := .returned },
    if callbacks.onGaveUp then
      [.onGaveUp loop.entry.peerID (loop.entry.attempt - 1) loop.entry.lastError]
    else [])

def step (cfg : ReconnectConfig) (callbacks : ReconnectCallbacks) (loop : ReconnectLoop)
    (answer : LoopAnswer) : ReconnectLoop × List LoopAction :=
  match loop.point with
  | .top => loop.selected answer.select .checkTop
  | .checkTop => loop.checked answer.connected .count
  | .count =>
      let entry := { loop.entry with attempt := loop.entry.attempt + 1 }
      if 0 < cfg.maxRetries ∧ cfg.maxRetries < entry.attempt then ({ entry, point := .giveUp }, [])
      else ({ entry, point := .prepare }, [])
  | .prepare =>
      ({ entry :=
          { loop.entry with state := .waiting, nextRetry := some (answer.now + answer.delay) }
         point := .announce answer.delay }, [])
  | .announce delay =>
      ({ loop with point := .wait },
        if callbacks.onReconnecting then
          [.onReconnecting loop.entry.peerID loop.entry.attempt delay]
        else [])
  | .wait => loop.selected answer.select .checkWaited
  | .checkWaited => loop.checked answer.connected .dial
  | .dial => ({ entry := { loop.entry with state := .connecting }, point := .connect }, [])
  | .connect =>
      -- A failed connect goes back to the top, a successful one is confirmed first.
      ({ loop with point :=
          match answer.connectErr with
          | some err => .recordError err
          | none => .confirm },
        [.connectContext loop.entry.addr answer.connectErr])
  | .recordError err =>
      ({ entry := { loop.entry with lastError := some err }, point := .top }, [])
  | .confirm => loop.selected answer.select .checkConfirmed
  | .checkConfirmed => loop.checked answer.connected .top
  | .succeed => loop.handleReconnectSuccess callbacks
  | .giveUp => loop.handleReconnectFailed callbacks
  | .returned => (loop, [])

end ReconnectLoop

/-- A goroutine with its context: `cancelled` is set by its `cancelFunc`, and `withdrawn` records
that `CancelReconnect` was the caller. -/
structure ReconnectTask where
  loop : ReconnectLoop
  cancelled : Bool := false
  withdrawn : Bool := false
  deriving DecidableEq, Repr

/-- `entries` holds pointers: a task is named by its position among all tasks ever started. -/
structure ReconnectManager where
  config : ReconnectConfig
  callbacks : ReconnectCallbacks
  entries : GoMap Bytes Nat
  tasks : List ReconnectTask
  closing : Bool

def newReconnectManager (config : ReconnectConfig) (callbacks : ReconnectCallbacks) :
    ReconnectManager :=
  { config, callbacks, entries := ∅, tasks := [], closing := false }

/-- An action of a task, or the deletion of `entries[peerID]` with the entry that was there. -/
inductive TaskAction
  | loop (action : LoopAction)
  | removed (entry : Nat)
  deriving DecidableEq, Repr

structure TaskRecord where
  task : Nat
  /-- Whether `CancelReconnect` had returned for the task before the action. -/
  withdrawn : Bool
  action : TaskAction
  deriving DecidableEq, Repr

namespace ReconnectManager

def activeState : ReconnectState → Bool
  | .connecting | .waiting => true
  | _ => false

def busy (rm : ReconnectManager) (peerID : Bytes) : Bool :=
  match (rm.entries.get peerID).bind (rm.tasks[·]?) with
  | some task => activeState task.loop.entry.state
  | none => false

def scheduleReconnect (rm : ReconnectManager) (peerID addr : Bytes) (now : Int) :
    ReconnectManager :=
  if !rm.config.enabled || addr.isEmpty then rm
  else if rm.busy peerID then rm
  else
    { rm with
      entries := rm.entries.set peerID rm.tasks.length
      tasks := rm.tasks ++ [{ loop := newReconnectLoop rm.config peerID addr now }] }

def cancelReconnect (rm : ReconnectManager) (peerID : Bytes) : ReconnectManager :=
  match rm.entries.get peerID with
  | some task =>
      { rm with
        entries := rm.entries.delete peerID
        tasks := rm.tasks.modify task ({ · with cancelled := true, withdrawn := true }) }
  | none => rm

def cancelAll (rm : ReconnectManager) : ReconnectManager :=
  { rm with
    entries := ∅
    tasks := rm.tasks.mapIdx fun position task =>
      if rm.entries.get task.loop.entry.peerID = some position then { task with cancelled := true }
      else task }

/-- Whether the scheduler may let the task take the step: the default case of the first select is
for when neither channel is closed, the timers of the other two may fire at any time. -/
def allows (rm : ReconnectManager) (task : ReconnectTask) (answer : LoopAnswer) : Bool :=
  let ready : SelectCase → Bool → Bool := fun chosen timer =>
    match chosen with
    | .done => task.cancelled
    | .closing => rm.closing
    | .proceed => timer
  match task.loop.point with
  | .top => ready answer.select (!task.cancelled && !rm.closing)
  | .wait | .confirm => ready answer.select true
  | _ => true

/-- The steps that run `handleReconnectSuccess` and `handleReconnectFailed`, which delete the
entry that is stored for the peer, whichever task it belongs to. -/
def finishes : LoopPoint → Bool
  | .succeed | .giveUp => true
  | _ => false

def runTask (rm : ReconnectManager) (position : Nat) (answer : LoopAnswer) :
    ReconnectManager × List TaskRecord :=
  match rm.tasks[position]? with
  | none => (rm, [])
  | some task =>
      if !rm.allows task answer then (rm, [])
      else
        let (loop, actions) := task.loop.step rm.config rm.callbacks answer
        let record : TaskAction → TaskRecord := fun action =>
          { task := position, withdrawn := task.withdrawn, action }
        let peerID := task.loop.entry.peerID
        let deleted := if finishes task.loop.point then rm.entries.get peerID else none
        ({ rm with
            tasks := rm.tasks.set position { task with loop }
            entries :=
              if finishes task.loop.point then rm.entries.delete peerID else rm.entries },
          deleted.toList.map (fun entry => record (.removed entry)) ++
            actions.map (fun action => record (.loop action)))

end ReconnectManager

end Tenet
