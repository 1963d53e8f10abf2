import Tenet.Rehandshake
import Tenet.RelayFormat
import Tenet.Lib.RateWindow
import Tenet.Lib.Run
import Mathlib.Algebra.Order.Ring.Int
import Mathlib.Logic.Function.Iterate

/-! The throttle of the re-handshakes of one peer: the delays after failures, and how many attempts are
let through. -/

namespace Tenet

open Lib Lib.Run

section Backoff

def nextBackoff (baseBackoff maxBackoff backoff : Int) : Int :=
  min (if backoff ≤ 0 then baseBackoff else max (int64 (backoff * 2)) baseBackoff) maxBackoff

theorem recordRehandshakeFailure_eq (p : Peer) (now : Int) {baseBackoff maxBackoff : Int}
    (positive : 0 < baseBackoff) (ordered : baseBackoff ≤ maxBackoff) :
    p.recordRehandshakeFailure now baseBackoff maxBackoff =
      ({ p with
          rehandshake :=
            { p.rehandshake with
              consecutiveRehandshakeFails := p.rehandshake.consecutiveRehandshakeFails + 1
              backoff := nextBackoff baseBackoff maxBackoff p.rehandshake.backoff
              nextAttempt :=
                some (now + nextBackoff baseBackoff maxBackoff p.rehandshake.backoff) } },
        p.rehandshake.consecutiveRehandshakeFails + 1,
        nextBackoff baseBackoff maxBackoff p.rehandshake.backoff) := by
  have clamp (raised : Int) :
      (if maxBackoff > 0 ∧ raised > maxBackoff then maxBackoff else raised) = min raised maxBackoff := by
    rw [min_def]
    split_ifs <;> omega
  have base_kept : ¬ baseBackoff ≤ 0 := by omega
  have max_kept : ¬ (maxBackoff > 0 ∧ maxBackoff < baseBackoff) := by omega
  simp only [Peer.recordRehandshakeFailure, nextBackoff, if_neg base_kept, if_neg max_kept, clamp]

variable {baseBackoff maxBackoff : Int}

theorem nextBackoff_bounds (ordered : baseBackoff ≤ maxBackoff) (backoff : Int) :
    baseBackoff ≤ nextBackoff baseBackoff maxBackoff backoff ∧
      nextBackoff baseBackoff maxBackoff backoff ≤ maxBackoff := by
  refine ⟨le_min ?_ ordered, min_le_right _ _⟩
  split
  · exact le_refl baseBackoff
  · exact le_max_right _ _

theorem nextBackoff_doubles (positive : 0 < baseBackoff) (small : maxBackoff < 2 ^ 62) {backoff : Int}
    (least : baseBackoff ≤ backoff) (most : backoff ≤ maxBackoff) :
    nextBackoff baseBackoff maxBackoff backoff = min (backoff * 2) maxBackoff := by
  have exact_double : int64 (backoff * 2) = backoff * 2 := by
    apply int64_of_isInt64
    constructor <;> omega
  have running : ¬ backoff ≤ 0 := by omega
  rw [nextBackoff, if_neg running, exact_double, max_eq_left (by omega)]

/-- The delay after `failures` failures in a row. -/
def backoffAfter (baseBackoff maxBackoff : Int) (failures : Nat) : Int :=
  (nextBackoff baseBackoff maxBackoff)^[failures] 0

theorem backoffAfter_succ (baseBackoff maxBackoff : Int) (failures : Nat) :
    backoffAfter baseBackoff maxBackoff (failures + 1) =
      nextBackoff baseBackoff maxBackoff (backoffAfter baseBackoff maxBackoff failures) :=
  Function.iterate_succ_apply' ..

theorem backoffAfter_eq (positive : 0 < baseBackoff) (ordered : baseBackoff ≤ maxBackoff)
    (small : maxBackoff < 2 ^ 62) (failures : Nat) :
    backoffAfter baseBackoff maxBackoff (failures + 1) =
      min (baseBackoff * 2 ^ failures) maxBackoff := by
  induction failures with
  | zero =>
      calc
        backoffAfter baseBackoff maxBackoff 1 = min baseBackoff maxBackoff := by
          simp [backoffAfter, nextBackoff]
        _ = min (baseBackoff * 2 ^ 0) maxBackoff := by rw [pow_zero, mul_one]
  | succ failures ih =>
      have bounds := nextBackoff_bounds ordered (backoffAfter baseBackoff maxBackoff failures)
      rw [← backoffAfter_succ] at bounds
      calc
        backoffAfter baseBackoff maxBackoff (failures + 2)
            = min (backoffAfter baseBackoff maxBackoff (failures + 1) * 2) maxBackoff := by
          rw [backoffAfter_succ, nextBackoff_doubles positive small bounds.1 bounds.2]
        _ = min (min (baseBackoff * 2 ^ failures) maxBackoff * 2) maxBackoff := by rw [ih]
        _ = min (baseBackoff * 2 ^ (failures + 1)) maxBackoff := by
          rw [pow_succ, ← mul_assoc]
          omega

theorem backoffAfter_mono (positive : 0 < baseBackoff) (ordered : baseBackoff ≤ maxBackoff)
    (small : maxBackoff < 2 ^ 62) {failures later : Nat} (more : failures ≤ later) :
    backoffAfter baseBackoff maxBackoff (failures + 1) ≤
      backoffAfter baseBackoff maxBackoff (later + 1) := by
  rw [backoffAfter_eq positive ordered small, backoffAfter_eq positive ordered small]
  apply min_le_min_right
  apply mul_le_mul_of_nonneg_left _ positive.le
  exact pow_le_pow_right₀ (by omega) more

end Backoff

/-- What `node/rehandshake.go` asks of a record. -/
inductive ThrottleCall
  | reserve (now : Int)
  | failure (now : Int)
  | success (now cooldown : Int)
  deriving DecidableEq, Repr

def ThrottleCall.time : ThrottleCall → Int
  | .reserve now => now
  | .failure now => now
  | .success now _ => now

namespace Peer

def throttle (cfg : FastRehandshakeConfig) (p : Peer) : ThrottleCall → Peer
  | .reserve now => (p.reserveRehandshakeAttempt now cfg.window cfg.maxAttemptsWindow).1
  | .failure now => (p.recordRehandshakeFailure now cfg.baseBackoff cfg.maxBackoff).1
  | .success now cooldown => p.recordRehandshakeSuccess now cooldown

end Peer

section Failures

/-- The methods of a record that read or write the state of its re-handshakes. -/
inductive RecordEvent
  | throttle (call : ThrottleCall)
  | tryBeginRehandshake
  | endRehandshake
  | incDecryptFailures
  | resetDecryptFailures
  | upgradeTransport (addr : NetAddr) (conn : Option ConnId) (transport : Transport)
      (session : Session) (now : Int)
  | close

def Peer.record (cfg : FastRehandshakeConfig) (p : Peer) : RecordEvent → Peer
  | .throttle call => p.throttle cfg call
  | .tryBeginRehandshake => p.tryBeginRehandshake.getD p
  | .endRehandshake => p.endRehandshake
  | .incDecryptFailures => p.incDecryptFailures.1
  | .resetDecryptFailures => p.resetDecryptFailures
  | .upgradeTransport addr conn transport session now =>
      (p.upgradeTransport addr conn transport session now).1
  | .close => p.close.1

/-- A success, or a reset; an upgrade that a peer on TCP ignores is none. -/
def Peer.clears (p : Peer) : RecordEvent → Bool
  | .throttle (.success _ _) => true
  | .upgradeTransport _ _ transport _ _ => decide ¬(p.transport = .tcp ∧ transport ≠ .tcp)
  | .close => true
  | _ => false

def RecordEvent.isFailure : RecordEvent → Bool
  | .throttle (.failure _) => true
  | _ => false

/-- The failures in a row after the events, with `failures` of them before. -/
def failuresInRow (cfg : FastRehandshakeConfig) : Nat → Peer → List RecordEvent → Nat
  | failures, _, [] => failures
  | failures, p, event :: rest =>
      let failures :=
        if p.clears event then 0 else if event.isFailure then failures + 1 else failures
      failuresInRow cfg failures (p.record cfg event) rest

structure Peer.Failed (cfg : FastRehandshakeConfig) (p : Peer) (failures : Nat) : Prop where
  count : p.rehandshake.consecutiveRehandshakeFails = failures
  delay : p.rehandshake.backoff = backoffAfter cfg.baseBackoff cfg.maxBackoff failures

variable {cfg : FastRehandshakeConfig}

theorem reserveRehandshakeAttempt_backoff (p : Peer) (now window maxInWindow : Int) :
    (p.reserveRehandshakeAttempt now window maxInWindow).1.rehandshake.consecutiveRehandshakeFails =
        p.rehandshake.consecutiveRehandshakeFails ∧
      (p.reserveRehandshakeAttempt now window maxInWindow).1.rehandshake.backoff =
        p.rehandshake.backoff := by
  have opened : (Peer.openWindow p.rehandshake now window).consecutiveRehandshakeFails =
        p.rehandshake.consecutiveRehandshakeFails ∧
      (Peer.openWindow p.rehandshake now window).backoff = p.rehandshake.backoff := by
    unfold Peer.openWindow
    split
    · split <;> exact ⟨rfl, rfl⟩
    · exact ⟨rfl, rfl⟩
  unfold Peer.reserveRehandshakeAttempt
  split
  · exact ⟨rfl, rfl⟩
  · by_cases windowed : window > 0
    · simp only [if_pos windowed]
      split
      · exact opened
      · exact opened
    · simp only [if_neg windowed]
      split
      · exact ⟨rfl, rfl⟩
      · exact ⟨rfl, rfl⟩

theorem clears_failed (cfg : FastRehandshakeConfig) (p : Peer) (event : RecordEvent) (clear : p.clears event = true) :
    (p.record cfg event).Failed cfg 0 := by
  cases event with
  | throttle call =>
      cases call with
      | success now cooldown => exact ⟨rfl, rfl⟩
      | _ => cases clear
  | upgradeTransport addr conn transport session now =>
      have taken : ¬(p.transport = .tcp ∧ transport ≠ .tcp) := of_decide_eq_true clear
      simp only [Peer.record, Peer.upgradeTransport, if_neg taken]
      exact ⟨rfl, rfl⟩
  | close => exact ⟨rfl, rfl⟩
  | _ => cases clear

theorem record_failed (positive : 0 < cfg.baseBackoff) (ordered : cfg.baseBackoff ≤ cfg.maxBackoff)
    (p : Peer) (failures : Nat) (event : RecordEvent) (failed : p.Failed cfg failures) :
    (p.record cfg event).Failed cfg
      (if p.clears event then 0 else if event.isFailure then failures + 1 else failures) := by
  by_cases clear : p.clears event = true
  · rw [if_pos clear]
    exact clears_failed cfg p event clear
  · rw [if_neg clear]
    cases event with
    | throttle call =>
        cases call with
        | reserve now =>
            have kept := reserveRehandshakeAttempt_backoff p now cfg.window cfg.maxAttemptsWindow
            exact ⟨kept.1.trans failed.count, kept.2.trans failed.delay⟩
        | failure now =>
            simp only [Peer.record, Peer.throttle, recordRehandshakeFailure_eq p now positive ordered]
            refine ⟨?_, ?_⟩
            · exact congrArg (· + 1) failed.count
            · change nextBackoff _ _ p.rehandshake.backoff = backoffAfter _ _ (failures + 1)
              rw [backoffAfter_succ, failed.delay]
        | success now cooldown => exact absurd rfl clear
    | tryBeginRehandshake =>
        simp only [Peer.record, Peer.tryBeginRehandshake]
        split
        · exact failed
        · exact ⟨failed.count, failed.delay⟩
    | endRehandshake => exact ⟨failed.count, failed.delay⟩
    | incDecryptFailures => exact ⟨failed.count, failed.delay⟩
    | resetDecryptFailures => exact ⟨failed.count, failed.delay⟩
    | upgradeTransport addr conn transport session now =>
        have ignored : p.transport = .tcp ∧ transport ≠ .tcp := by
          by_contra taken
          exact clear (decide_eq_true taken)
        simp only [Peer.record, Peer.upgradeTransport, if_pos ignored]
        exact failed
    | close => exact absurd rfl clear

theorem run_failed (positive : 0 < cfg.baseBackoff) (ordered : cfg.baseBackoff ≤ cfg.maxBackoff)
    (p : Peer) (failures : Nat) (events : List RecordEvent) (failed : p.Failed cfg failures) :
    (run (Peer.record cfg) p events).Failed cfg (failuresInRow cfg failures p events) := by
  induction events generalizing p failures with
  | nil => exact failed
  | cons event rest ih => exact ih _ _ (record_failed positive ordered p failures event failed)

/-- The `k`-th failure in a row since a success or a reset, whatever else the record was asked for
in between, counts as the `k`-th and is answered with the `k`-th delay. -/
theorem failure_delay (cfg : FastRehandshakeConfig) (positive : 0 < cfg.baseBackoff)
    (ordered : cfg.baseBackoff ≤ cfg.maxBackoff) (p : Peer) (clearing : RecordEvent)
    (clear : p.clears clearing = true) (events : List RecordEvent) (now : Int) :
    let k := failuresInRow cfg 0 (p.record cfg clearing) events + 1
    let recorded := (run (Peer.record cfg) (p.record cfg clearing) events).recordRehandshakeFailure
      now cfg.baseBackoff cfg.maxBackoff
    recorded.2.1 = k ∧ cfg.baseBackoff ≤ recorded.2.2 ∧ recorded.2.2 ≤ cfg.maxBackoff ∧
      (cfg.maxBackoff < 2 ^ 62 →
        recorded.2.2 = min (cfg.baseBackoff * 2 ^ (k - 1)) cfg.maxBackoff ∧
        ∀ later, k ≤ later →
          recorded.2.2 ≤ min (cfg.baseBackoff * 2 ^ (later - 1)) cfg.maxBackoff) := by
  intro k recorded
  have failed := run_failed positive ordered _ 0 events (clears_failed cfg p clearing clear)
  have counted : recorded.2.1 = k := by
    simp only [recorded, k, recordRehandshakeFailure_eq _ now positive ordered, failed.count]
  have delay : recorded.2.2 = backoffAfter cfg.baseBackoff cfg.maxBackoff k := by
    simp only [recorded, k, recordRehandshakeFailure_eq _ now positive ordered, failed.delay,
      backoffAfter_succ]
  have bounds := nextBackoff_bounds ordered
    (backoffAfter cfg.baseBackoff cfg.maxBackoff (k - 1))
  rw [← backoffAfter_succ, Nat.sub_add_cancel (Nat.le_add_left 1 _), ← delay] at bounds
  refine ⟨counted, bounds.1, bounds.2, ?_⟩
  intro small
  refine ⟨?_, ?_⟩
  · calc
      recorded.2.2 = backoffAfter cfg.baseBackoff cfg.maxBackoff (k - 1 + 1) := delay
      _ = min (cfg.baseBackoff * 2 ^ (k - 1)) cfg.maxBackoff :=
        backoffAfter_eq positive ordered small (k - 1)
  · intro later more
    calc
      recorded.2.2 = backoffAfter cfg.baseBackoff cfg.maxBackoff (k - 1 + 1) := delay
      _ ≤ backoffAfter cfg.baseBackoff cfg.maxBackoff (later - 1 + 1) :=
        backoffAfter_mono positive ordered small (Nat.sub_le_sub_right more 1)
      _ = min (cfg.baseBackoff * 2 ^ (later - 1)) cfg.maxBackoff :=
        backoffAfter_eq positive ordered small (later - 1)

def unusedPeer : Peer where
  id := []
  addr := ⟨.udp, []⟩
  originalAddr := []
  conn := none
  transport := .udp
  linkMode := .p2p
  relayTarget := none
  session := none
  lastSeen := 0

/-- The third failure after a close, with the default bounds of half a second and eight seconds. -/
theorem failure_delay_third :
    let events : List RecordEvent :=
      [.throttle (.failure 10), .throttle (.reserve 20), .throttle (.failure 30)]
    failuresInRow {} 0 (unusedPeer.record {} .close) events = 2 ∧
      ((run (Peer.record {}) (unusedPeer.record {} .close) events).recordRehandshakeFailure 40
        500000000 8000000000).2.2 = 2000000000 := by
  intro events
  have third := failure_delay {} (by decide) (by decide) unusedPeer .close rfl events 40
  exact ⟨rfl, (third.2.2.2 (by decide)).1⟩

end Failures

section Gates

variable (cfg : FastRehandshakeConfig)

def ThrottleCall.isFailure : ThrottleCall → Bool
  | .failure _ => true
  | _ => false

def Peer.notBefore (p : Peer) (now : Int) : Option Int :=
  p.rehandshake.nextAttempt.filter fun next => decide (now < next)

def attempts : Peer → List ThrottleCall → List Int
  | _, [] => []
  | p, call :: rest =>
      (match call with
        | .reserve now =>
            if (p.notBefore now).isNone then [now] else []
        | _ => []) ++ attempts (p.throttle cfg call) rest

variable {cfg} (windowed : 0 < cfg.window) (limited : 0 < cfg.maxAttemptsWindow)

section Reserve

include windowed limited

end Reserve

section Pace

/-- Where the backoff stands after calls up to `time`: one more failure would not bring the next attempt
forward. -/
structure Paced (cfg : FastRehandshakeConfig) (time : Int) (p : Peer) : Prop where
  bounded : p.rehandshake.backoff = 0 ∨
    cfg.baseBackoff ≤ p.rehandshake.backoff ∧ p.rehandshake.backoff ≤ cfg.maxBackoff
  due : ∀ next, p.rehandshake.nextAttempt = some next →
    next ≤ time + nextBackoff cfg.baseBackoff cfg.maxBackoff p.rehandshake.backoff

variable {time : Int} {p : Peer}

theorem Paced.mono {later : Int} (paced : Paced cfg time p) (passed : time ≤ later) :
    Paced cfg later p := by
  refine ⟨paced.bounded, ?_⟩
  intro next set
  have := paced.due next set
  omega

section Steps

variable (positive : 0 < cfg.baseBackoff) (ordered : cfg.baseBackoff ≤ cfg.maxBackoff)
  (small : cfg.maxBackoff < 2 ^ 62)

include windowed limited

include positive ordered small

end Steps

end Pace

section Promises

variable (positive : 0 < cfg.baseBackoff) (ordered : cfg.baseBackoff ≤ cfg.maxBackoff)
  (small : cfg.maxBackoff < 2 ^ 62) {p : Peer} {calls : List ThrottleCall}
  (reset : p.rehandshake = {})
  (sorted : (calls.map ThrottleCall.time).Pairwise (· ≤ ·))

include windowed limited reset sorted

include positive ordered small

end Promises

end Gates

end Tenet
