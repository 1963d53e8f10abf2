import Tenet.Lib.Run
import Tenet.Reconnect

/-! One reconnect loop by itself, for every answer its surroundings can give: how often it dials,
how it ends and what it reports. -/

namespace Tenet.ReconnectLoop

open Lib.Run

def isConnect : LoopAction → Bool
  | .connectContext _ _ => true
  | _ => false

def connectError : LoopAction → Option Bytes
  | .connectContext _ err => err
  | _ => none

def isStop : LoopAction → Bool
  | .select chosen => chosen ≠ .proceed
  | _ => false

def isOutcome : LoopAction → Bool
  | .onReconnected _ _ | .onGaveUp _ _ _ => true
  | _ => false

def connects (actions : List LoopAction) : Nat := actions.countP isConnect

def lastConnectError (actions : List LoopAction) : Option Bytes :=
  (actions.filterMap connectError).getLast?

/-- A select of the loop took the case of the cancelled context or of the closed manager. -/
def stopped (actions : List LoopAction) : Bool := actions.any isStop

def seenConnected (actions : List LoopAction) : Bool := actions.any (· = .isPeerConnected true)

def outcomes (actions : List LoopAction) : List LoopAction := actions.filter isOutcome

@[simp] theorem connects_append (actions more : List LoopAction) :
    connects (actions ++ more) = connects actions + connects more := List.countP_append

@[simp] theorem lastConnectError_append (actions more : List LoopAction) :
    lastConnectError (actions ++ more) = (lastConnectError more).or (lastConnectError actions) := by
  simp only [lastConnectError, List.filterMap_append, List.getLast?_append]

@[simp] theorem stopped_append (actions more : List LoopAction) :
    stopped (actions ++ more) = (stopped actions || stopped more) := List.any_append

@[simp] theorem seenConnected_append (actions more : List LoopAction) :
    seenConnected (actions ++ more) = (seenConnected actions || seenConnected more) :=
  List.any_append

@[simp] theorem outcomes_append (actions more : List LoopAction) :
    outcomes (actions ++ more) = outcomes actions ++ outcomes more := List.filter_append _ _

def advance (cfg : ReconnectConfig) (callbacks : ReconnectCallbacks)
    (history : ReconnectLoop × List LoopAction) (answer : LoopAnswer) :
    ReconnectLoop × List LoopAction :=
  ((history.1.step cfg callbacks answer).1,
    history.2 ++ (history.1.step cfg callbacks answer).2)

def runLoop (cfg : ReconnectConfig) (callbacks : ReconnectCallbacks) (peerID addr : Bytes)
    (now : Int) (answers : List LoopAnswer) : ReconnectLoop × List LoopAction :=
  run (advance cfg callbacks) (newReconnectLoop cfg peerID addr now, []) answers

structure Trying (actions : List LoopAction) : Prop where
  notStopped : stopped actions = false
  notSeen : seenConnected actions = false
  silent : outcomes actions = []

inductive Ended (cfg : ReconnectConfig) (peerID : Bytes) (actions : List LoopAction) : Prop
  | reconnected (attempts : Nat) (reported : outcomes actions = [.onReconnected peerID attempts])
      (seen : seenConnected actions = true)
      (counted : attempts = connects actions ∨ attempts = connects actions + 1)
  | gaveUp
      (reported : outcomes actions =
        [.onGaveUp peerID (connects actions) (lastConnectError actions)])
      (notStopped : stopped actions = false) (notSeen : seenConnected actions = false)
      (limited : 0 < cfg.maxRetries) (exhausted : (connects actions : Int) = cfg.maxRetries)
  | stopped (reported : outcomes actions = []) (seen : stopped actions = true)

def Progress (cfg : ReconnectConfig) (peerID : Bytes) (loop : ReconnectLoop)
    (actions : List LoopAction) : Prop :=
  match loop.point with
  | .top | .checkTop | .count | .confirm | .checkConfirmed =>
      Trying actions ∧ loop.entry.attempt = connects actions ∧
        loop.entry.lastError = lastConnectError actions
  | .recordError err =>
      Trying actions ∧ loop.entry.attempt = connects actions ∧
        lastConnectError actions = some err
  | .prepare | .announce _ | .wait | .checkWaited | .dial | .connect =>
      Trying actions ∧ loop.entry.attempt = connects actions + 1 ∧
        loop.entry.lastError = lastConnectError actions ∧
        (0 < cfg.maxRetries → (loop.entry.attempt : Int) ≤ cfg.maxRetries)
  | .succeed =>
      outcomes actions = [] ∧ stopped actions = false ∧ seenConnected actions = true ∧
        (loop.entry.attempt = connects actions ∨ loop.entry.attempt = connects actions + 1)
  | .giveUp =>
      Trying actions ∧ loop.entry.attempt = connects actions + 1 ∧
        loop.entry.lastError = lastConnectError actions ∧ 0 < cfg.maxRetries ∧
        (connects actions : Int) = cfg.maxRetries
  | .returned => Ended cfg peerID actions

structure Inv (cfg : ReconnectConfig) (peerID : Bytes)
    (history : ReconnectLoop × List LoopAction) : Prop where
  peer : history.1.entry.peerID = peerID
  bounded : 0 < cfg.maxRetries → (connects history.2 : Int) ≤ cfg.maxRetries
  progress : Progress cfg peerID history.1 history.2

section Step

variable {cfg : ReconnectConfig} {callbacks : ReconnectCallbacks} {peerID : Bytes}
variable {entry : ReconnectEntry} {actions : List LoopAction}

/-- Actions that leave what `Progress` reads of the history as it was. -/
structure Neutral (more : List LoopAction) : Prop where
  connects : connects more = 0
  lastConnectError : lastConnectError more = none
  stopped : stopped more = false
  seenConnected : seenConnected more = false
  outcomes : outcomes more = []

theorem trying_append {more : List LoopAction} (neutral : Neutral more) (trying : Trying actions) :
    Trying (actions ++ more) where
  notStopped := by rw [stopped_append, trying.notStopped, neutral.stopped]; rfl
  notSeen := by rw [seenConnected_append, trying.notSeen, neutral.seenConnected]; rfl
  silent := by rw [outcomes_append, trying.silent, neutral.outcomes]; rfl

theorem progress_append {more : List LoopAction} {point : LoopPoint} (neutral : Neutral more)
    (running : point ≠ .returned) (progress : Progress cfg peerID ⟨entry, point⟩ actions) :
    Progress cfg peerID ⟨entry, point⟩ (actions ++ more) := by
  have counts : connects (actions ++ more) = connects actions := by
    rw [connects_append, neutral.connects, Nat.add_zero]
  have errors : lastConnectError (actions ++ more) = lastConnectError actions := by
    rw [lastConnectError_append, neutral.lastConnectError, Option.none_or]
  have tries : Trying actions → Trying (actions ++ more) := trying_append neutral
  cases point with
  | returned => exact absurd rfl running
  | succeed =>
      obtain ⟨silent, notStopped, seen, counted⟩ := progress
      refine ⟨?_, ?_, ?_, by rwa [counts]⟩
      · rw [outcomes_append, silent, neutral.outcomes, List.append_nil]
      · rw [stopped_append, notStopped, neutral.stopped, Bool.or_self]
      · rw [seenConnected_append, seen, Bool.true_or]
  | _ =>
      obtain ⟨trying, known⟩ := progress
      refine ⟨tries trying, ?_⟩
      rw [counts, errors]
      exact known

theorem neutral_nil : Neutral [] := ⟨rfl, rfl, rfl, rfl, rfl⟩

theorem progress_selected {point : LoopPoint} (next : LoopPoint) (chosen : SelectCase)
    (trying : Trying actions)
    (running : next ≠ .returned) (moves : Progress cfg peerID ⟨entry, next⟩ actions) :
    Progress cfg peerID (selected ⟨entry, point⟩ chosen next).1
      (actions ++ (selected ⟨entry, point⟩ chosen next).2) := by
  by_cases proceeds : chosen = .proceed
  · subst proceeds
    exact progress_append ⟨rfl, rfl, rfl, rfl, rfl⟩ running moves
  · have stops : stopped [.select chosen] = true := by simp [stopped, isStop, proceeds]
    simp only [selected, if_neg proceeds]
    apply Ended.stopped
    · rw [outcomes_append, trying.silent]
      rfl
    · rw [stopped_append, stops, Bool.or_true]

theorem progress_checked {point : LoopPoint} (next : LoopPoint) (connected : Bool)
    (trying : Trying actions)
    (counted : entry.attempt = connects actions ∨ entry.attempt = connects actions + 1)
    (running : next ≠ .returned) (moves : Progress cfg peerID ⟨entry, next⟩ actions) :
    Progress cfg peerID (checked ⟨entry, point⟩ connected next).1
      (actions ++ (checked ⟨entry, point⟩ connected next).2) := by
  cases connected with
  | false => exact progress_append ⟨rfl, rfl, rfl, rfl, rfl⟩ running moves
  | true =>
      refine ⟨?_, ?_, ?_, ?_⟩
      · rw [outcomes_append, trying.silent]
        rfl
      · rw [stopped_append, trying.notStopped]
        rfl
      · rw [seenConnected_append]
        exact Bool.or_true _
      · rw [connects_append]
        exact counted

theorem progress_count (attempted : entry.attempt = connects actions)
    (bounded : 0 < cfg.maxRetries → (connects actions : Int) ≤ cfg.maxRetries)
    (trying : Trying actions) (failed : entry.lastError = lastConnectError actions)
    (answer : LoopAnswer) :
    Progress cfg peerID (step cfg callbacks ⟨entry, .count⟩ answer).1 actions := by
  by_cases limit : 0 < cfg.maxRetries ∧ cfg.maxRetries < (entry.attempt + 1 : Nat)
  · simp only [step, if_pos limit]
    refine ⟨trying, by rw [attempted], failed, limit.1, ?_⟩
    have atMost := bounded limit.1
    have beyond := limit.2
    omega
  · simp only [step, if_neg limit]
    refine ⟨trying, by rw [attempted], failed, fun limited => ?_⟩
    exact Int.not_lt.mp fun beyond => limit ⟨limited, beyond⟩

theorem progress_connect (attempted : entry.attempt = connects actions + 1)
    (trying : Trying actions) (failed : entry.lastError = lastConnectError actions)
    (answer : LoopAnswer) :
    Progress cfg peerID (step cfg callbacks ⟨entry, .connect⟩ answer).1
      (actions ++ (step cfg callbacks ⟨entry, .connect⟩ answer).2) := by
  have still : Trying (actions ++ [.connectContext entry.addr answer.connectErr]) :=
    ⟨by rw [stopped_append, trying.notStopped]; rfl,
      by rw [seenConnected_append, trying.notSeen]; rfl,
      by rw [outcomes_append, trying.silent]; rfl⟩
  have counted : entry.attempt =
      connects (actions ++ [.connectContext entry.addr answer.connectErr]) := by
    rw [connects_append, attempted]
    rfl
  simp only [step]
  cases outcome : answer.connectErr with
  | some err =>
      rw [outcome] at still counted
      refine ⟨still, counted, ?_⟩
      rw [lastConnectError_append]
      rfl
  | none =>
      rw [outcome] at still counted
      refine ⟨still, counted, ?_⟩
      rw [lastConnectError_append]
      exact failed

theorem progress_succeed (reconnected : callbacks.onReconnected = true)
    (silent : outcomes actions = []) (seen : seenConnected actions = true)
    (counted : entry.attempt = connects actions ∨ entry.attempt = connects actions + 1) :
    Ended cfg entry.peerID
      (actions ++ (handleReconnectSuccess callbacks ⟨entry, .succeed⟩).2) := by
  simp only [handleReconnectSuccess, if_pos reconnected]
  apply Ended.reconnected entry.attempt
  · rw [outcomes_append, silent]
    rfl
  · rw [seenConnected_append, seen, Bool.true_or]
  · rw [connects_append]
    exact counted

theorem progress_giveUp (gaveUp : callbacks.onGaveUp = true) (trying : Trying actions)
    (attempted : entry.attempt = connects actions + 1)
    (failed : entry.lastError = lastConnectError actions) (limited : 0 < cfg.maxRetries)
    (exhausted : (connects actions : Int) = cfg.maxRetries) :
    Ended cfg entry.peerID (actions ++ (handleReconnectFailed callbacks ⟨entry, .giveUp⟩).2) := by
  have attempts : entry.attempt - 1 = connects actions := by omega
  simp only [handleReconnectFailed, if_pos gaveUp, attempts, failed]
  apply Ended.gaveUp
  · rw [outcomes_append, trying.silent, connects_append, lastConnectError_append]
    rfl
  · rw [stopped_append, trying.notStopped]
    rfl
  · rw [seenConnected_append, trying.notSeen]
    rfl
  · exact limited
  · rw [connects_append]
    exact exhausted

theorem progress_step (reconnected : callbacks.onReconnected = true)
    (gaveUp : callbacks.onGaveUp = true) (loop : ReconnectLoop) (answer : LoopAnswer)
    (bounded : 0 < cfg.maxRetries → (connects actions : Int) ≤ cfg.maxRetries)
    (progress : Progress cfg loop.entry.peerID loop actions) :
    Progress cfg loop.entry.peerID (loop.step cfg callbacks answer).1
      (actions ++ (loop.step cfg callbacks answer).2) := by
  obtain ⟨entry, point⟩ := loop
  cases point with
  | top => exact progress_selected .checkTop answer.select progress.1 nofun progress
  | wait => exact progress_selected .checkWaited answer.select progress.1 nofun progress
  | confirm => exact progress_selected .checkConfirmed answer.select progress.1 nofun progress
  | checkTop =>
      exact progress_checked .count answer.connected progress.1 (Or.inl progress.2.1) nofun progress
  | checkWaited =>
      exact progress_checked .dial answer.connected progress.1 (Or.inr progress.2.1) nofun progress
  | checkConfirmed =>
      exact progress_checked .top answer.connected progress.1 (Or.inl progress.2.1) nofun progress
  | count =>
      obtain ⟨trying, attempted, failed⟩ := progress
      have moves : Progress cfg entry.peerID (step cfg callbacks ⟨entry, .count⟩ answer).1 actions :=
        progress_count attempted bounded trying failed answer
      have quiet : (step cfg callbacks ⟨entry, .count⟩ answer).2 = [] := by
        simp only [step]
        split <;> rfl
      rw [quiet, List.append_nil]
      exact moves
  | prepare =>
      simp only [step, List.append_nil]
      exact progress
  | announce delay =>
      have neutral : Neutral (step cfg callbacks ⟨entry, .announce delay⟩ answer).2 := by
        simp only [step]
        split
        · exact ⟨rfl, rfl, rfl, rfl, rfl⟩
        · exact neutral_nil
      have waiting : Progress cfg entry.peerID ⟨entry, .wait⟩ actions := progress
      exact progress_append neutral nofun waiting
  | dial =>
      simp only [step, List.append_nil]
      exact progress
  | connect =>
      obtain ⟨trying, attempted, failed, _⟩ := progress
      exact progress_connect attempted trying failed answer
  | recordError err =>
      obtain ⟨trying, attempted, failed⟩ := progress
      simp only [step, List.append_nil]
      exact ⟨trying, attempted, failed.symm⟩
  | succeed =>
      obtain ⟨silent, _, seen, counted⟩ := progress
      exact progress_succeed reconnected silent seen counted
  | giveUp =>
      obtain ⟨trying, attempted, failed, limited, exhausted⟩ := progress
      exact progress_giveUp gaveUp trying attempted failed limited exhausted
  | returned =>
      simp only [step, List.append_nil]
      exact progress

theorem step_peerID (loop : ReconnectLoop) (answer : LoopAnswer) :
    (loop.step cfg callbacks answer).1.entry.peerID = loop.entry.peerID := by
  obtain ⟨entry, point⟩ := loop
  cases point with
  | count =>
      simp only [step]
      split <;> rfl
  | _ => rfl

theorem connects_step (loop : ReconnectLoop) (answer : LoopAnswer)
    (bounded : 0 < cfg.maxRetries → (connects actions : Int) ≤ cfg.maxRetries)
    (progress : Progress cfg peerID loop actions) (limited : 0 < cfg.maxRetries) :
    (connects (actions ++ (loop.step cfg callbacks answer).2) : Int) ≤ cfg.maxRetries := by
  have before := bounded limited
  obtain ⟨entry, point⟩ := loop
  rw [connects_append]
  cases point with
  | connect =>
      obtain ⟨_, attempted, _, within⟩ := progress
      have room : (entry.attempt : Int) ≤ cfg.maxRetries := within limited
      have one : connects (step cfg callbacks ⟨entry, .connect⟩ answer).2 = 1 := rfl
      simp only at attempted
      omega
  | count =>
      have none : connects (step cfg callbacks ⟨entry, .count⟩ answer).2 = 0 := by
        simp only [step]
        split <;> rfl
      omega
  | announce delay =>
      have none : connects (step cfg callbacks ⟨entry, .announce delay⟩ answer).2 = 0 := by
        simp only [step]
        split <;> rfl
      omega
  | succeed =>
      have none : connects (step cfg callbacks ⟨entry, .succeed⟩ answer).2 = 0 := by
        simp only [step, handleReconnectSuccess]
        split <;> rfl
      omega
  | giveUp =>
      have none : connects (step cfg callbacks ⟨entry, .giveUp⟩ answer).2 = 0 := by
        simp only [step, handleReconnectFailed]
        split <;> rfl
      omega
  | _ => exact before

theorem inv_step (reconnected : callbacks.onReconnected = true)
    (gaveUp : callbacks.onGaveUp = true) (history : ReconnectLoop × List LoopAction)
    (answer : LoopAnswer) (inv : Inv cfg peerID history) :
    Inv cfg peerID (advance cfg callbacks history answer) := by
  obtain ⟨peer, bounded, progress⟩ := inv
  subst peer
  exact
    { peer := step_peerID history.1 answer
      bounded := connects_step history.1 answer bounded progress
      progress := progress_step reconnected gaveUp history.1 answer bounded progress }

theorem inv_runLoop (reconnected : callbacks.onReconnected = true)
    (gaveUp : callbacks.onGaveUp = true) (peerID addr : Bytes) (now : Int)
    (answers : List LoopAnswer) :
    Inv cfg peerID (runLoop cfg callbacks peerID addr now answers) := by
  apply run_invariant
  · exact ⟨rfl, fun limited => Int.le_of_lt limited, ⟨rfl, rfl, rfl⟩, rfl, rfl⟩
  · exact fun history answer => inv_step reconnected gaveUp history answer

/-- What is left of an iteration; a new one starts at `prepare`, after the attempt is counted. -/
def rank : LoopPoint → Nat
  | .prepare => 12
  | .announce _ => 11
  | .wait => 10
  | .checkWaited => 9
  | .dial => 8
  | .connect => 7
  | .recordError _ | .confirm => 6
  | .checkConfirmed => 5
  | .top => 4
  | .checkTop => 3
  | .count => 2
  | .succeed | .giveUp => 1
  | .returned => 0

def stepsLeft (cfg : ReconnectConfig) (loop : ReconnectLoop) : Nat :=
  16 * (cfg.maxRetries.toNat + 1 - loop.entry.attempt) + rank loop.point

theorem stepsLeft_step (limited : 0 < cfg.maxRetries) (loop : ReconnectLoop) (answer : LoopAnswer)
    (bounded : 0 < cfg.maxRetries → (connects actions : Int) ≤ cfg.maxRetries)
    (progress : Progress cfg peerID loop actions) (running : loop.point ≠ .returned) :
    stepsLeft cfg (loop.step cfg callbacks answer).1 < stepsLeft cfg loop := by
  obtain ⟨entry, point⟩ := loop
  cases point with
  | returned => exact absurd rfl running
  | count =>
      have within := bounded limited
      have attempted : entry.attempt = connects actions := progress.2.1
      simp only [step]
      split <;> simp only [stepsLeft, rank] <;> omega
  | connect =>
      simp only [step]
      split <;> simp only [stepsLeft, rank] <;> omega
  | _ =>
      simp only [step, selected, checked, handleReconnectSuccess, handleReconnectFailed]
      try split
      all_goals simp only [stepsLeft, rank]; omega

theorem returned_run (history : ReconnectLoop × List LoopAction) (answers : List LoopAnswer)
    (ended : history.1.point = .returned) :
    (run (advance cfg callbacks) history answers).1.point = .returned := by
  have stays : ∀ (reached : ReconnectLoop × List LoopAction) (answer : LoopAnswer),
      reached.1.point = .returned → (advance cfg callbacks reached answer).1.point = .returned := by
    intro reached answer ended
    simp only [advance, step, ended]
  exact run_invariant (Q := fun reached => reached.1.point = .returned) history answers ended stays

theorem returned_or_stepsLeft (reconnected : callbacks.onReconnected = true)
    (gaveUp : callbacks.onGaveUp = true) (limited : 0 < cfg.maxRetries)
    (history : ReconnectLoop × List LoopAction) (inv : Inv cfg peerID history)
    (answers : List LoopAnswer) :
    (run (advance cfg callbacks) history answers).1.point = .returned ∨
      stepsLeft cfg (run (advance cfg callbacks) history answers).1 + answers.length ≤
        stepsLeft cfg history.1 := by
  induction answers generalizing history with
  | nil => exact Or.inr le_rfl
  | cons answer rest ih =>
      by_cases ended : history.1.point = .returned
      · exact Or.inl (returned_run history (answer :: rest) ended)
      · have next := inv_step reconnected gaveUp history answer inv
        have fewer : stepsLeft cfg (advance cfg callbacks history answer).1 <
            stepsLeft cfg history.1 :=
          stepsLeft_step limited history.1 answer inv.bounded inv.progress ended
        apply (ih (advance cfg callbacks history answer) next).imp_right
        intro left
        simp only [run_cons, List.length_cons]
        omega

theorem runLoop_returns (reconnected : callbacks.onReconnected = true)
    (gaveUp : callbacks.onGaveUp = true) (limited : 0 < cfg.maxRetries) (peerID addr : Bytes)
    (now : Int) (answers : List LoopAnswer)
    (enough : 16 * (cfg.maxRetries.toNat + 2) ≤ answers.length) :
    (runLoop cfg callbacks peerID addr now answers).1.point = .returned := by
  have start : stepsLeft cfg (newReconnectLoop cfg peerID addr now) =
      16 * (cfg.maxRetries.toNat + 1) + 4 := rfl
  have inv : Inv cfg peerID (runLoop cfg callbacks peerID addr now []) :=
    inv_runLoop reconnected gaveUp peerID addr now []
  rcases returned_or_stepsLeft reconnected gaveUp limited _ inv answers with ended | left
  · exact ended
  · rw [show (runLoop cfg callbacks peerID addr now []).1 = newReconnectLoop cfg peerID addr now
      from rfl, start] at left
    omega

end Step

section Report

variable {cfg : ReconnectConfig} {peerID : Bytes} {history : ReconnectLoop × List LoopAction}

theorem mem_outcomes {actions : List LoopAction} {action : LoopAction}
    (outcome : isOutcome action = true) : action ∈ outcomes actions ↔ action ∈ actions := by
  simp only [outcomes, List.mem_filter, outcome, and_true]

theorem unended (inv : Inv cfg peerID history) (running : history.1.point ≠ .returned) :
    outcomes history.2 = [] ∧ stopped history.2 = false := by
  obtain ⟨⟨entry, point⟩, actions⟩ := history
  have progress := inv.progress
  cases point with
  | returned => exact absurd rfl running
  | succeed => exact ⟨progress.1, progress.2.1⟩
  | _ => exact ⟨progress.1.silent, progress.1.notStopped⟩

theorem ended (inv : Inv cfg peerID history) (returned : history.1.point = .returned) :
    Ended cfg peerID history.2 := by
  have progress := inv.progress
  rwa [Progress, returned] at progress

theorem ended_of_outcome (inv : Inv cfg peerID history) {action : LoopAction}
    (outcome : isOutcome action = true) (started : action ∈ history.2) :
    history.1.point = .returned := by
  by_contra running
  have none := (unended inv running).1
  rw [← mem_outcomes outcome, none] at started
  exact List.not_mem_nil started

theorem returned_iff (inv : Inv cfg peerID history) :
    history.1.point = .returned ↔
      (∃ attempts, outcomes history.2 = [.onReconnected peerID attempts]) ∨
      (∃ attempts err, outcomes history.2 = [.onGaveUp peerID attempts err]) ∨
      (outcomes history.2 = [] ∧ stopped history.2 = true) := by
  constructor
  · intro returned
    cases ended inv returned with
    | reconnected attempts reported => exact Or.inl ⟨attempts, reported⟩
    | gaveUp reported => exact Or.inr (Or.inl ⟨_, _, reported⟩)
    | stopped reported seen => exact Or.inr (Or.inr ⟨reported, seen⟩)
  · intro ending
    by_contra running
    obtain ⟨silent, notStopped⟩ := unended inv running
    simp [silent, notStopped] at ending

theorem gaveUp_reported (inv : Inv cfg peerID history) {id : Bytes} {attempts : Nat}
    {err : Option Bytes} (started : .onGaveUp id attempts err ∈ history.2) :
    id = peerID ∧ attempts = connects history.2 ∧ err = lastConnectError history.2 ∧
      stopped history.2 = false ∧ seenConnected history.2 = false ∧ 0 < cfg.maxRetries ∧
      (connects history.2 : Int) = cfg.maxRetries := by
  have returned := ended_of_outcome inv rfl started
  rw [← mem_outcomes rfl] at started
  cases ended inv returned with
  | reconnected _ reported => simp [reported] at started
  | stopped reported => simp [reported] at started
  | gaveUp reported notStopped notSeen limited exhausted =>
      simp only [reported, List.mem_singleton, LoopAction.onGaveUp.injEq] at started
      exact ⟨started.1, started.2.1, started.2.2, notStopped, notSeen, limited, exhausted⟩

theorem reconnected_reported (inv : Inv cfg peerID history) {id : Bytes} {attempts : Nat}
    (started : .onReconnected id attempts ∈ history.2) :
    id = peerID ∧ (connects history.2 = attempts ∨ connects history.2 + 1 = attempts) := by
  have returned := ended_of_outcome inv rfl started
  rw [← mem_outcomes rfl] at started
  cases ended inv returned with
  | gaveUp reported => simp [reported] at started
  | stopped reported => simp [reported] at started
  | reconnected counted reported seen attempted =>
      simp only [reported, List.mem_singleton, LoopAction.onReconnected.injEq] at started
      obtain ⟨samePeer, sameCount⟩ := started
      subst sameCount
      exact ⟨samePeer, attempted.imp Eq.symm Eq.symm⟩

theorem gaveUp_iff (inv : Inv cfg peerID history) :
    (∃ attempts err, .onGaveUp peerID attempts err ∈ history.2) ↔
      history.1.point = .returned ∧ 0 < cfg.maxRetries ∧
      (connects history.2 : Int) = cfg.maxRetries ∧ stopped history.2 = false ∧
      seenConnected history.2 = false := by
  constructor
  · rintro ⟨attempts, err, started⟩
    obtain ⟨_, _, _, notStopped, notSeen, limited, exhausted⟩ := gaveUp_reported inv started
    exact ⟨ended_of_outcome inv rfl started, limited, exhausted, notStopped, notSeen⟩
  · rintro ⟨returned, _, _, notStopped, notSeen⟩
    cases ended inv returned with
    | reconnected _ _ seen => simp [seen] at notSeen
    | stopped _ seen => simp [seen] at notStopped
    | gaveUp reported =>
        have started : .onGaveUp peerID (connects history.2) (lastConnectError history.2) ∈
            outcomes history.2 := by
          rw [reported]
          exact List.mem_singleton_self _
        exact ⟨_, _, (mem_outcomes rfl).mp started⟩

/-- What a loop has done and reported by the time it was given `steps` answers. -/
structure Report (cfg : ReconnectConfig) (peerID : Bytes) (steps : Nat)
    (history : ReconnectLoop × List LoopAction) : Prop where
  atMost : 0 < cfg.maxRetries → (connects history.2 : Int) ≤ cfg.maxRetries
  returns : 0 < cfg.maxRetries → 16 * (cfg.maxRetries.toNat + 2) ≤ steps →
    history.1.point = .returned
  /-- It returns in one of three ways: one callback, the other one, or none after a stop. -/
  oneEnding : history.1.point = .returned ↔
    (∃ attempts, outcomes history.2 = [.onReconnected peerID attempts]) ∨
    (∃ attempts err, outcomes history.2 = [.onGaveUp peerID attempts err]) ∨
    (outcomes history.2 = [] ∧ stopped history.2 = true)
  gaveUp_iff : (∃ attempts err, .onGaveUp peerID attempts err ∈ history.2) ↔
    history.1.point = .returned ∧ 0 < cfg.maxRetries ∧
    (connects history.2 : Int) = cfg.maxRetries ∧ stopped history.2 = false ∧
    seenConnected history.2 = false
  gaveUp : ∀ (id : Bytes) (attempts : Nat) (err : Option Bytes),
    .onGaveUp id attempts err ∈ history.2 →
      id = peerID ∧ (attempts : Int) = cfg.maxRetries ∧ err = lastConnectError history.2
  reconnected : ∀ id attempts, .onReconnected id attempts ∈ history.2 →
    id = peerID ∧ (connects history.2 = attempts ∨ connects history.2 + 1 = attempts)
  forever : cfg.maxRetries = 0 → ∀ id attempts err, .onGaveUp id attempts err ∉ history.2

/-- However its surroundings answer, a reconnect loop keeps to its limit and reports truly. -/
theorem reconnectLoop_report (cfg : ReconnectConfig) (callbacks : ReconnectCallbacks)
    (reconnected : callbacks.onReconnected = true) (gaveUp : callbacks.onGaveUp = true)
    (peerID addr : Bytes) (now : Int) (answers : List LoopAnswer) :
    Report cfg peerID answers.length (runLoop cfg callbacks peerID addr now answers) := by
  have inv : Inv cfg peerID (runLoop cfg callbacks peerID addr now answers) :=
    inv_runLoop reconnected gaveUp peerID addr now answers
  exact
    { atMost := inv.bounded
      returns := fun limited enough =>
        runLoop_returns reconnected gaveUp limited peerID addr now answers enough
      oneEnding := returned_iff inv
      gaveUp_iff := ReconnectLoop.gaveUp_iff inv
      gaveUp := by
        intro id attempts err started
        obtain ⟨peer, counted, failed, _, _, _, exhausted⟩ := gaveUp_reported inv started
        exact ⟨peer, by rw [counted, exhausted], failed⟩
      reconnected := fun id attempts started => reconnected_reported inv started
      forever := by
        intro unlimited id attempts err started
        obtain ⟨_, _, _, _, _, limited, _⟩ := gaveUp_reported inv started
        omega }

/-- Two refused connects and a limit of two: the loop gives up after them. -/
theorem reconnectLoop_report_refused :
    .onGaveUp [7] 2 (some [9]) ∈
        (runLoop { maxRetries := 2 } {} [7] [8] 0 (List.replicate 64 { connectErr := some [9] })).2 ∧
      Report { maxRetries := 2 } [7] 64
        (runLoop { maxRetries := 2 } {} [7] [8] 0
          (List.replicate 64 { connectErr := some [9] })) :=
  ⟨by decide, reconnectLoop_report { maxRetries := 2 } {} rfl rfl [7] [8] 0
    (List.replicate 64 { connectErr := some [9] })⟩

end Report

end Tenet.ReconnectLoop
