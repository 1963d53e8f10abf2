import Tenet.ReconnectLoop

/-! The reconnect tasks of all peers, interleaved with the calls that schedule and cancel them.
A finishing loop deletes what is stored for its peer, whether or not it was cancelled before. -/

namespace Tenet.ReconnectTasks

open Lib.Run
open ReconnectLoop (isOutcome outcomes)
open ReconnectManager (finishes activeState)

inductive Event
  | schedule (peerID addr : Bytes) (now : Int)
  | cancel (peerID : Bytes)
  | cancelAll
  | run (position : Nat) (answer : LoopAnswer)

structure State where
  rm : ReconnectManager
  records : List TaskRecord

def step (state : State) : Event → State
  | .schedule peerID addr now => { state with rm := state.rm.scheduleReconnect peerID addr now }
  | .cancel peerID => { state with rm := state.rm.cancelReconnect peerID }
  | .cancelAll => { state with rm := state.rm.cancelAll }
  | .run position answer =>
      { rm := (state.rm.runTask position answer).1
        records := state.records ++ (state.rm.runTask position answer).2 }

def initial (config : ReconnectConfig) (callbacks : ReconnectCallbacks) : State where
  rm := newReconnectManager config callbacks
  records := []

structure Live (rm : ReconnectManager) (position : Nat) (task : ReconnectTask) : Prop where
  started : rm.tasks[position]? = some task
  uncancelled : task.cancelled = false
  running : task.loop.point ≠ .returned

def peerOf (task : ReconnectTask) : Bytes := task.loop.entry.peerID

structure Tracked (state : State) : Prop where
  oneLoop : ∀ position other task otherTask, Live state.rm position task →
    Live state.rm other otherTask → peerOf task = peerOf otherTask → position = other
  stored : ∀ position task, Live state.rm position task →
    state.rm.entries.get (peerOf task) = some position
  /-- No task that `CancelReconnect` ended reports an outcome after it. -/
  silent : ∀ record ∈ state.records, record.withdrawn = true →
    ∀ action, record.action = .loop action → isOutcome action = false
  /-- Nor does it remove the entry of another task. -/
  ownEntry : ∀ record ∈ state.records, record.withdrawn = true →
    ∀ entry, record.action = .removed entry → entry = record.task

def reports (callbacks : ReconnectCallbacks) : LoopPoint → Bool
  | .succeed => callbacks.onReconnected
  | .giveUp => callbacks.onGaveUp
  | _ => false

/-- A loop whose context was cancelled finishes only when nothing is stored for its peer any more
and, if `CancelReconnect` cancelled it, the callback it would start is not set. -/
def Unhurried (state : State) : Event → Prop
  | .run position _ => ∀ task ∈ state.rm.tasks[position]?, finishes task.loop.point = true →
      task.cancelled = true → state.rm.entries.get (peerOf task) = none ∧
        (task.withdrawn = true → reports state.rm.callbacks task.loop.point = false)
  | _ => True

structure Sound (rm : ReconnectManager) : Prop where
  notClosing : rm.closing = false
  entries : ∀ peerID position, rm.entries.get peerID = some position →
    ∃ task, Live rm position task ∧ peerOf task = peerID ∧
      activeState task.loop.entry.state = true
  withdrawn : ∀ (position : Nat) task, rm.tasks[position]? = some task → task.withdrawn = true →
    task.cancelled = true

section Loop

variable {cfg : ReconnectConfig} {callbacks : ReconnectCallbacks}

theorem step_active (loop : ReconnectLoop) (answer : LoopAnswer)
    (unfinished : finishes loop.point = false) (active : activeState loop.entry.state = true) :
    activeState (loop.step cfg callbacks answer).1.entry.state = true := by
  obtain ⟨entry, point⟩ := loop
  cases point with
  | succeed => cases unfinished
  | giveUp => cases unfinished
  | count =>
      simp only [ReconnectLoop.step]
      split <;> exact active
  | prepare => rfl
  | dial => rfl
  | _ => exact active

theorem step_silent (loop : ReconnectLoop) (answer : LoopAnswer)
    (unfinished : finishes loop.point = false) :
    outcomes (loop.step cfg callbacks answer).2 = [] := by
  obtain ⟨entry, point⟩ := loop
  cases point with
  | succeed => cases unfinished
  | giveUp => cases unfinished
  | count =>
      simp only [ReconnectLoop.step]
      split <;> rfl
  | announce delay =>
      simp only [ReconnectLoop.step]
      split <;> rfl
  | _ => rfl

theorem step_finished (loop : ReconnectLoop) (answer : LoopAnswer)
    (finished : finishes loop.point = true) :
    (loop.step cfg callbacks answer).1.point = .returned ∧
      (outcomes (loop.step cfg callbacks answer).2 = [] ↔
        reports callbacks loop.point = false) := by
  obtain ⟨entry, point⟩ := loop
  cases point with
  | succeed =>
      refine ⟨rfl, ?_⟩
      simp only [ReconnectLoop.step, ReconnectLoop.handleReconnectSuccess, reports]
      cases callbacks.onReconnected <;> simp [outcomes, isOutcome]
  | giveUp =>
      refine ⟨rfl, ?_⟩
      simp only [ReconnectLoop.step, ReconnectLoop.handleReconnectFailed, reports]
      cases callbacks.onGaveUp <;> simp [outcomes, isOutcome]
  | _ => cases finished

theorem step_running {rm : ReconnectManager} {task : ReconnectTask} {answer : LoopAnswer}
    (allowed : rm.allows task answer = true) (notClosing : rm.closing = false)
    (uncancelled : task.cancelled = false) (running : task.loop.point ≠ .returned)
    (unfinished : finishes task.loop.point = false) :
    (task.loop.step cfg callbacks answer).1.point ≠ .returned := by
  obtain ⟨⟨entry, point⟩, cancelled, withdrawn⟩ := task
  simp only at uncancelled
  subst uncancelled
  have proceeds : point = .top ∨ point = .wait ∨ point = .confirm → answer.select = .proceed := by
    rintro (rfl | rfl | rfl) <;> cases chosen : answer.select <;>
      simp_all [ReconnectManager.allows]
  cases point with
  | succeed => cases unfinished
  | giveUp => cases unfinished
  | returned => exact absurd rfl running
  | top => simp [ReconnectLoop.step, ReconnectLoop.selected, proceeds]
  | wait => simp [ReconnectLoop.step, ReconnectLoop.selected, proceeds]
  | confirm => simp [ReconnectLoop.step, ReconnectLoop.selected, proceeds]
  | checkTop => cases seen : answer.connected <;> simp [ReconnectLoop.step, ReconnectLoop.checked, seen]
  | checkWaited =>
      cases seen : answer.connected <;> simp [ReconnectLoop.step, ReconnectLoop.checked, seen]
  | checkConfirmed =>
      cases seen : answer.connected <;> simp [ReconnectLoop.step, ReconnectLoop.checked, seen]
  | count =>
      simp only [ReconnectLoop.step]
      split <;> simp
  | connect => cases failed : answer.connectErr <;> simp [ReconnectLoop.step, failed]
  | _ => simp [ReconnectLoop.step]

end Loop

section Schedule

variable {rm : ReconnectManager} {peerID addr : Bytes} {now : Int}

theorem unstored_of_idle (sound : Sound rm) (idle : rm.busy peerID = false) :
    rm.entries.get peerID = none := by
  cases found : rm.entries.get peerID with
  | none => rfl
  | some position =>
      obtain ⟨task, live, _, active⟩ := sound.entries peerID position found
      simp [ReconnectManager.busy, found, live.started, active] at idle

def scheduled (rm : ReconnectManager) (peerID addr : Bytes) (now : Int) : ReconnectManager :=
  { rm with
    entries := rm.entries.set peerID rm.tasks.length
    tasks := rm.tasks ++ [{ loop := newReconnectLoop rm.config peerID addr now }] }

theorem scheduleReconnect_cases (sound : Sound rm) (peerID addr : Bytes) (now : Int) :
    rm.scheduleReconnect peerID addr now = rm ∨
      rm.entries.get peerID = none ∧
        rm.scheduleReconnect peerID addr now = scheduled rm peerID addr now := by
  simp only [ReconnectManager.scheduleReconnect]
  split
  · exact Or.inl rfl
  · split
    · exact Or.inl rfl
    · next idle => exact Or.inr ⟨unstored_of_idle sound (Bool.not_eq_true _ ▸ idle), rfl⟩

theorem started_scheduled {position : Nat} {task : ReconnectTask} :
    (scheduled rm peerID addr now).tasks[position]? = some task ↔
      rm.tasks[position]? = some task ∨
        position = rm.tasks.length ∧
          task = { loop := newReconnectLoop rm.config peerID addr now } := by
  simp only [scheduled]
  grind

theorem live_scheduled {position : Nat} {task : ReconnectTask} :
    Live (scheduled rm peerID addr now) position task ↔
      Live rm position task ∨
        position = rm.tasks.length ∧
          task = { loop := newReconnectLoop rm.config peerID addr now } := by
  constructor
  · rintro ⟨started, uncancelled, running⟩
    exact (started_scheduled.mp started).imp (⟨·, uncancelled, running⟩) id
  · rintro (⟨started, uncancelled, running⟩ | ⟨last, fresh⟩)
    · exact ⟨started_scheduled.mpr (Or.inl started), uncancelled, running⟩
    · subst fresh
      exact ⟨started_scheduled.mpr (Or.inr ⟨last, rfl⟩), rfl, nofun⟩

theorem sound_scheduled (sound : Sound rm) : Sound (scheduled rm peerID addr now) where
  notClosing := sound.notClosing
  entries := by
    intro other position found
    rcases Lib.GoMap.get_set_eq_some.mp found with ⟨same, rfl⟩ | ⟨_, before⟩
    · exact ⟨_, live_scheduled.mpr (Or.inr ⟨rfl, rfl⟩), same.symm, rfl⟩
    · obtain ⟨task, live, peer, active⟩ := sound.entries other position before
      exact ⟨task, live_scheduled.mpr (Or.inl live), peer, active⟩
  withdrawn := by
    intro position task started ended
    rcases started_scheduled.mp started with before | ⟨_, fresh⟩
    · exact sound.withdrawn position task before ended
    · rw [fresh] at ended
      cases ended

end Schedule

section Cancel

variable {rm : ReconnectManager} {peerID : Bytes}

def withdraw (rm : ReconnectManager) (peerID : Bytes) (position : Nat) : ReconnectManager :=
  { rm with
    entries := rm.entries.delete peerID
    tasks := rm.tasks.modify position ({ · with cancelled := true, withdrawn := true }) }

theorem cancelReconnect_cases (rm : ReconnectManager) (peerID : Bytes) :
    rm.cancelReconnect peerID = rm ∨
      ∃ position, rm.entries.get peerID = some position ∧
        rm.cancelReconnect peerID = withdraw rm peerID position := by
  cases found : rm.entries.get peerID with
  | none => exact Or.inl (by simp only [ReconnectManager.cancelReconnect, found])
  | some position =>
      exact Or.inr ⟨position, rfl, by simp only [ReconnectManager.cancelReconnect, found, withdraw]⟩

theorem started_withdraw {position other : Nat} (different : other ≠ position) :
    (withdraw rm peerID position).tasks[other]? = rm.tasks[other]? :=
  List.getElem?_modify_ne _ _ (Ne.symm different)

theorem cancelled_withdraw {position : Nat} {task : ReconnectTask}
    (started : (withdraw rm peerID position).tasks[position]? = some task) :
    task.cancelled = true := by
  cases found : rm.tasks[position]? with
  | none => simp [withdraw, found] at started
  | some before =>
      simp only [withdraw, List.getElem?_modify_eq, found] at started
      cases started
      rfl

theorem live_withdraw {position other : Nat} {task : ReconnectTask} :
    Live (withdraw rm peerID position) other task ↔ other ≠ position ∧ Live rm other task := by
  constructor
  · rintro ⟨started, uncancelled, running⟩
    by_cases same : other = position
    · subst same
      rw [cancelled_withdraw started] at uncancelled
      cases uncancelled
    · exact ⟨same, started_withdraw same ▸ started, uncancelled, running⟩
  · rintro ⟨different, started, uncancelled, running⟩
    exact ⟨(started_withdraw different).trans started, uncancelled, running⟩

theorem sound_withdraw {position : Nat} (sound : Sound rm)
    (found : rm.entries.get peerID = some position) : Sound (withdraw rm peerID position) where
  notClosing := sound.notClosing
  entries := by
    intro other stored kept
    obtain ⟨different, before⟩ := Lib.GoMap.get_delete_eq_some.mp kept
    obtain ⟨task, live, peer, active⟩ := sound.entries other stored before
    refine ⟨task, live_withdraw.mpr ⟨?_, live⟩, peer, active⟩
    rintro rfl
    obtain ⟨same, liveToo, peerToo, _⟩ := sound.entries peerID stored found
    have agree : task = same := Option.some.inj (live.started.symm.trans liveToo.started)
    exact different (by rw [← peer, ← peerToo, agree])
  withdrawn := by
    intro other task started ended
    by_cases same : other = position
    · subst same
      exact cancelled_withdraw started
    · rw [started_withdraw same] at started
      exact sound.withdrawn other task started ended

theorem started_cancelAll {position : Nat} {task : ReconnectTask}
    (started : rm.cancelAll.tasks[position]? = some task) :
    ∃ before, rm.tasks[position]? = some before ∧
      task = if rm.entries.get (peerOf before) = some position then { before with cancelled := true }
        else before := by
  simp only [ReconnectManager.cancelAll, List.getElem?_mapIdx, Option.map_eq_some_iff] at started
  obtain ⟨before, found, made⟩ := started
  exact ⟨before, found, made.symm⟩

theorem sound_cancelAll (sound : Sound rm) : Sound rm.cancelAll where
  notClosing := sound.notClosing
  entries := by
    intro other position found
    simp [ReconnectManager.cancelAll] at found
  withdrawn := by
    intro position task started ended
    obtain ⟨before, found, made⟩ := started_cancelAll started
    subst made
    split
    · rfl
    · next kept =>
        rw [if_neg kept] at ended
        exact sound.withdrawn position before found ended

end Cancel

section Run

variable {rm : ReconnectManager} {position : Nat} {task : ReconnectTask} {answer : LoopAnswer}

def stepped (rm : ReconnectManager) (task : ReconnectTask) (answer : LoopAnswer) : ReconnectTask :=
  { task with loop := (task.loop.step rm.config rm.callbacks answer).1 }

def ran (rm : ReconnectManager) (position : Nat) (task : ReconnectTask) (answer : LoopAnswer) :
    ReconnectManager :=
  { rm with
    tasks := rm.tasks.set position (stepped rm task answer)
    entries :=
      if finishes task.loop.point then rm.entries.delete (peerOf task) else rm.entries }

def recordsOf (rm : ReconnectManager) (position : Nat) (task : ReconnectTask)
    (answer : LoopAnswer) : List TaskRecord :=
  (if finishes task.loop.point then rm.entries.get (peerOf task) else none).toList.map
      (fun entry => ⟨position, task.withdrawn, .removed entry⟩) ++
    (task.loop.step rm.config rm.callbacks answer).2.map
      (fun action => ⟨position, task.withdrawn, .loop action⟩)

theorem runTask_blocked (blocked : ∀ task ∈ rm.tasks[position]?, rm.allows task answer = false) :
    rm.runTask position answer = (rm, []) := by
  cases found : rm.tasks[position]? with
  | none => simp only [ReconnectManager.runTask, found]
  | some task =>
      have refused : rm.allows task answer = false := blocked task found
      simp only [ReconnectManager.runTask, found, refused, Bool.not_false, if_true]

theorem runTask_ran (found : rm.tasks[position]? = some task)
    (allowed : rm.allows task answer = true) :
    rm.runTask position answer =
      (ran rm position task answer, recordsOf rm position task answer) := by
  simp only [ReconnectManager.runTask, found, allowed, Bool.not_true, Bool.false_eq_true, if_false]
  rfl

theorem allows_of_finishes (finished : finishes task.loop.point = true) :
    rm.allows task answer = true := by
  cases point : task.loop.point with
  | succeed => simp only [ReconnectManager.allows, point]
  | giveUp => simp only [ReconnectManager.allows, point]
  | _ =>
      rw [point] at finished
      cases finished

theorem started_ran_other {other : Nat} (different : other ≠ position) :
    (ran rm position task answer).tasks[other]? = rm.tasks[other]? :=
  List.getElem?_set_ne (Ne.symm different)

theorem started_ran_self (found : rm.tasks[position]? = some task) :
    (ran rm position task answer).tasks[position]? = some (stepped rm task answer) := by
  obtain ⟨inside, _⟩ := List.getElem?_eq_some_iff.mp found
  exact List.getElem?_set_self inside

theorem live_ran_other {other : Nat} {otherTask : ReconnectTask} (different : other ≠ position) :
    Live (ran rm position task answer) other otherTask ↔ Live rm other otherTask := by
  constructor
  · rintro ⟨started, uncancelled, running⟩
    exact ⟨(started_ran_other different).symm.trans started, uncancelled, running⟩
  · rintro ⟨started, uncancelled, running⟩
    exact ⟨(started_ran_other different).trans started, uncancelled, running⟩

theorem live_of_live_stepped (found : rm.tasks[position]? = some task)
    {after : ReconnectTask} (live : Live (ran rm position task answer) position after) :
    Live rm position task ∧ after = stepped rm task answer ∧
      finishes task.loop.point = false := by
  have made : after = stepped rm task answer :=
    Option.some.inj (live.started.symm.trans (started_ran_self found))
  subst made
  refine ⟨⟨found, live.uncancelled, ?_⟩, rfl, ?_⟩
  · intro returned
    apply live.running
    simp only [stepped, ReconnectLoop.step, returned]
  · by_contra finished
    exact live.running (step_finished task.loop answer (Bool.not_eq_false _ ▸ finished)).1

theorem live_stepped (sound : Sound rm) (live : Live rm position task)
    (allowed : rm.allows task answer = true) (unfinished : finishes task.loop.point = false) :
    Live (ran rm position task answer) position (stepped rm task answer) where
  started := started_ran_self live.started
  uncancelled := live.uncancelled
  running := step_running allowed sound.notClosing live.uncancelled live.running unfinished

theorem peerOf_stepped : peerOf (stepped rm task answer) = peerOf task :=
  ReconnectLoop.step_peerID task.loop answer

theorem sound_ran (sound : Sound rm) (found : rm.tasks[position]? = some task)
    (allowed : rm.allows task answer = true) : Sound (ran rm position task answer) where
  notClosing := sound.notClosing
  entries := by
    intro peerID other kept
    have before : rm.entries.get peerID = some other ∧
        (finishes task.loop.point = true → peerID ≠ peerOf task) := by
      cases finished : finishes task.loop.point with
      | false => simpa [ran, finished] using kept
      | true =>
          simp only [ran, finished, if_true] at kept
          obtain ⟨different, earlier⟩ := Lib.GoMap.get_delete_eq_some.mp kept
          exact ⟨earlier, fun _ => different⟩
    obtain ⟨otherTask, live, peer, active⟩ := sound.entries peerID other before.1
    by_cases same : other = position
    · subst same
      have agree : otherTask = task := Option.some.inj (live.started.symm.trans found)
      subst agree
      have unfinished : finishes otherTask.loop.point = false := by
        by_contra finished
        exact before.2 (Bool.not_eq_false _ ▸ finished) peer.symm
      exact ⟨_, live_stepped sound live allowed unfinished, peerOf_stepped.trans peer,
        step_active otherTask.loop answer unfinished active⟩
    · exact ⟨otherTask, (live_ran_other same).mpr live, peer, active⟩
  withdrawn := by
    intro other otherTask started ended
    by_cases same : other = position
    · subst same
      have made : otherTask = stepped rm task answer :=
        Option.some.inj (started.symm.trans (started_ran_self found))
      subst made
      exact sound.withdrawn other task found ended
    · exact sound.withdrawn other otherTask ((started_ran_other same).symm.trans started) ended

end Run

theorem sound_step (state : State) (event : Event) (sound : Sound state.rm) :
    Sound (step state event).rm := by
  cases event with
  | schedule peerID addr now =>
      simp only [step]
      rcases scheduleReconnect_cases sound peerID addr now with same | ⟨_, made⟩
      · rwa [same]
      · rw [made]
        exact sound_scheduled sound
  | cancel peerID =>
      simp only [step]
      rcases cancelReconnect_cases state.rm peerID with same | ⟨position, found, made⟩
      · rwa [same]
      · rw [made]
        exact sound_withdraw sound found
  | cancelAll => exact sound_cancelAll sound
  | run position answer =>
      simp only [step]
      by_cases allowed : ∃ task, state.rm.tasks[position]? = some task ∧
          state.rm.allows task answer = true
      · obtain ⟨task, found, allowed⟩ := allowed
        rw [runTask_ran found allowed]
        exact sound_ran sound found allowed
      · have blocked : ∀ task ∈ state.rm.tasks[position]?, state.rm.allows task answer = false :=
          fun task found => Bool.not_eq_true _ ▸ fun yes => allowed ⟨task, found, yes⟩
        rwa [runTask_blocked blocked]

section Exact

variable {state : State}

/-- Where every live loop is stored, no peer has two. -/
theorem tracked_of_stored {rm : ReconnectManager} {records : List TaskRecord}
    (stored : ∀ position task, Live rm position task →
      rm.entries.get (peerOf task) = some position)
    (silent : ∀ record ∈ records, record.withdrawn = true →
      ∀ action, record.action = .loop action → isOutcome action = false)
    (ownEntry : ∀ record ∈ records, record.withdrawn = true →
      ∀ entry, record.action = .removed entry → entry = record.task) :
    Tracked ⟨rm, records⟩ where
  oneLoop := by
    intro position other task otherTask live liveToo same
    have here := stored position task live
    rw [same, stored other otherTask liveToo] at here
    exact (Option.some.inj here).symm
  stored := stored
  silent := silent
  ownEntry := ownEntry

theorem tracked_schedule (sound : Sound state.rm) (tracked : Tracked state) (peerID addr : Bytes)
    (now : Int) : Tracked (step state (.schedule peerID addr now)) := by
  simp only [step]
  rcases scheduleReconnect_cases sound peerID addr now with same | ⟨unstored, made⟩
  · rwa [same]
  · rw [made]
    refine tracked_of_stored (fun position task live => ?_) tracked.silent tracked.ownEntry
    simp only [scheduled, Lib.GoMap.get_set]
    rcases live_scheduled.mp live with before | ⟨last, fresh⟩
    · have kept := tracked.stored position task before
      have different : peerOf task ≠ peerID := by
        intro same
        rw [same, unstored] at kept
        cases kept
      rw [if_neg different, kept]
    · subst fresh
      rw [last]
      exact if_pos rfl

theorem tracked_cancel (tracked : Tracked state) (peerID : Bytes) :
    Tracked (step state (.cancel peerID)) := by
  simp only [step]
  rcases cancelReconnect_cases state.rm peerID with same | ⟨position, found, made⟩
  · rwa [same]
  · rw [made]
    refine tracked_of_stored (fun other task live => ?_) tracked.silent tracked.ownEntry
    obtain ⟨different, before⟩ := live_withdraw.mp live
    have kept := tracked.stored other task before
    have otherPeer : peerOf task ≠ peerID := by
      intro same
      rw [same, found] at kept
      exact different (Option.some.inj kept).symm
    simp only [withdraw, Lib.GoMap.get_delete, if_neg otherPeer, kept]

theorem tracked_cancelAll (tracked : Tracked state) : Tracked (step state .cancelAll) := by
  refine tracked_of_stored (fun position task live => ?_) tracked.silent tracked.ownEntry
  exfalso
  obtain ⟨before, found, made⟩ := started_cancelAll live.started
  by_cases kept : state.rm.entries.get (peerOf before) = some position
  · have uncancelled := live.uncancelled
    rw [made, if_pos kept] at uncancelled
    cases uncancelled
  · rw [if_neg kept] at made
    subst made
    exact kept (tracked.stored position task ⟨found, live.uncancelled, live.running⟩)

section RunStep

variable {position : Nat} {task : ReconnectTask} {answer : LoopAnswer}

theorem silent_of_outcomes {actions : List LoopAction} (none : outcomes actions = [])
    {action : LoopAction} (started : action ∈ actions) : isOutcome action = false := by
  have kept := List.filter_eq_nil_iff.mp none action started
  exact Bool.not_eq_true _ ▸ kept

theorem tracked_unfinished (tracked : Tracked state)
    (found : state.rm.tasks[position]? = some task)
    (unfinished : finishes task.loop.point = false) :
    Tracked ⟨ran state.rm position task answer,
      state.records ++ recordsOf state.rm position task answer⟩ := by
  have entries : (ran state.rm position task answer).entries = state.rm.entries := by
    simp only [ran, unfinished, Bool.false_eq_true, if_false]
  have records : recordsOf state.rm position task answer =
      (task.loop.step state.rm.config state.rm.callbacks answer).2.map
        (fun action => ⟨position, task.withdrawn, .loop action⟩) := by
    simp only [recordsOf, unfinished, Bool.false_eq_true, if_false]
    rfl
  refine tracked_of_stored (fun other otherTask live => ?_) ?_ ?_
  · rw [entries]
    by_cases same : other = position
    · subst same
      obtain ⟨before, made, _⟩ := live_of_live_stepped found live
      rw [made, peerOf_stepped]
      exact tracked.stored other task before
    · exact tracked.stored other otherTask ((live_ran_other same).mp live)
  · intro record listed withdrawn action acted
    rcases List.mem_append.mp listed with old | new
    · exact tracked.silent record old withdrawn action acted
    · rw [records, List.mem_map] at new
      obtain ⟨made, started, rfl⟩ := new
      cases acted
      exact silent_of_outcomes (step_silent task.loop answer unfinished) started
  · intro record listed withdrawn entry removed
    rcases List.mem_append.mp listed with old | new
    · exact tracked.ownEntry record old withdrawn entry removed
    · rw [records, List.mem_map] at new
      obtain ⟨_, _, rfl⟩ := new
      cases removed

theorem stored_finished (tracked : Tracked state)
    (found : state.rm.tasks[position]? = some task) (finished : finishes task.loop.point = true)
    (ownOrNone : ∀ other, state.rm.entries.get (peerOf task) = some other → other = position)
    (other : Nat) (otherTask : ReconnectTask)
    (live : Live (ran state.rm position task answer) other otherTask) :
    (ran state.rm position task answer).entries.get (peerOf otherTask) = some other := by
  have different : other ≠ position := by
    rintro rfl
    have unfinished := (live_of_live_stepped found live).2.2
    rw [finished] at unfinished
    cases unfinished
  have kept := tracked.stored other otherTask ((live_ran_other different).mp live)
  have otherPeer : peerOf otherTask ≠ peerOf task := by
    intro same
    rw [same] at kept
    exact different (ownOrNone other kept)
  simp only [ran, finished, if_true, Lib.GoMap.get_delete, if_neg otherPeer, kept]

theorem mem_recordsOf_finished {record : TaskRecord} (finished : finishes task.loop.point = true) :
    record ∈ recordsOf state.rm position task answer ↔
      (∃ entry, state.rm.entries.get (peerOf task) = some entry ∧
        record = ⟨position, task.withdrawn, .removed entry⟩) ∨
      ∃ action ∈ (task.loop.step state.rm.config state.rm.callbacks answer).2,
        record = ⟨position, task.withdrawn, .loop action⟩ := by
  simp only [recordsOf, finished, if_true, List.mem_append, List.mem_map, Option.mem_toList]
  simp only [eq_comm]

theorem tracked_finished_iff (sound : Sound state.rm) (tracked : Tracked state)
    (found : state.rm.tasks[position]? = some task) (finished : finishes task.loop.point = true) :
    Tracked ⟨ran state.rm position task answer,
        state.records ++ recordsOf state.rm position task answer⟩ ↔
      (task.cancelled = true → state.rm.entries.get (peerOf task) = none ∧
        (task.withdrawn = true → reports state.rm.callbacks task.loop.point = false)) := by
  have reported : outcomes (task.loop.step state.rm.config state.rm.callbacks answer).2 = [] ↔
      reports state.rm.callbacks task.loop.point = false :=
    (step_finished task.loop answer finished).2
  constructor
  · intro after cancelled
    constructor
    · cases stored : state.rm.entries.get (peerOf task) with
      | none => rfl
      | some other =>
          -- The entry belongs to a live loop, and the deletion leaves that loop unstored.
          obtain ⟨otherTask, live, peer, _⟩ := sound.entries (peerOf task) other stored
          have different : other ≠ position := by
            rintro rfl
            have agree : otherTask = task := Option.some.inj (live.started.symm.trans found)
            rw [← agree, live.uncancelled] at cancelled
            cases cancelled
          have kept := after.stored other otherTask ((live_ran_other different).mpr live)
          simp [ran, finished, peer] at kept
    · intro withdrawn
      rw [← reported, outcomes, List.filter_eq_nil_iff]
      intro action started
      have listed : ⟨position, task.withdrawn, .loop action⟩ ∈
          recordsOf state.rm position task answer :=
        (mem_recordsOf_finished finished).mpr (Or.inr ⟨action, started, rfl⟩)
      have quiet := after.silent _ (List.mem_append_right _ listed) withdrawn action rfl
      exact Bool.not_eq_true _ ▸ quiet
  · intro harmless
    have ownOrNone : ∀ other, state.rm.entries.get (peerOf task) = some other →
        other = position := by
      intro other stored
      cases cancelled : task.cancelled with
      | true =>
          rw [(harmless cancelled).1] at stored
          cases stored
      | false =>
          have running : task.loop.point ≠ .returned := by
            intro returned
            rw [returned] at finished
            cases finished
          have own := tracked.stored position task ⟨found, cancelled, running⟩
          exact Option.some.inj (stored.symm.trans own)
    refine tracked_of_stored (stored_finished tracked found finished ownOrNone) ?_ ?_
    · intro record listed withdrawn action acted
      rcases List.mem_append.mp listed with old | new
      · exact tracked.silent record old withdrawn action acted
      · rcases (mem_recordsOf_finished finished).mp new with ⟨entry, _, made⟩ | ⟨made, started, rfl⟩
        · rw [made] at acted
          cases acted
        · cases acted
          have cancelled := sound.withdrawn position task found withdrawn
          exact silent_of_outcomes (reported.mpr ((harmless cancelled).2 withdrawn)) started
    · intro record listed withdrawn entry removed
      rcases List.mem_append.mp listed with old | new
      · exact tracked.ownEntry record old withdrawn entry removed
      · rcases (mem_recordsOf_finished finished).mp new with ⟨gone, stored, rfl⟩ | ⟨_, _, rfl⟩
        · cases removed
          exact ownOrNone entry stored
        · cases removed

theorem tracked_run_iff (sound : Sound state.rm) (tracked : Tracked state) (position : Nat)
    (answer : LoopAnswer) :
    Tracked (step state (.run position answer)) ↔ Unhurried state (.run position answer) := by
  simp only [step, Unhurried]
  cases found : state.rm.tasks[position]? with
  | none =>
      rw [runTask_blocked (by simp [found]), List.append_nil]
      simp [tracked]
  | some task =>
      simp only [Option.mem_some_iff, forall_eq']
      cases finished : finishes task.loop.point with
      | true =>
          rw [runTask_ran found (allows_of_finishes finished)]
          simp only [true_implies]
          exact tracked_finished_iff sound tracked found finished
      | false =>
          simp only [Bool.false_eq_true, false_implies, iff_true]
          cases allowed : state.rm.allows task answer with
          | true =>
              rw [runTask_ran found allowed]
              exact tracked_unfinished tracked found finished
          | false =>
              rw [runTask_blocked (by simp [found, allowed]), List.append_nil]
              exact tracked

end RunStep

theorem tracked_step_iff (state : State) (event : Event) (sound : Sound state.rm)
    (tracked : Tracked state) : Tracked (step state event) ↔ Unhurried state event := by
  cases event with
  | schedule peerID addr now =>
      exact iff_of_true (tracked_schedule sound tracked peerID addr now) trivial
  | cancel peerID => exact iff_of_true (tracked_cancel tracked peerID) trivial
  | cancelAll => exact iff_of_true (tracked_cancelAll tracked) trivial
  | run position answer => exact tracked_run_iff sound tracked position answer

end Exact

theorem sound_initial (config : ReconnectConfig) (callbacks : ReconnectCallbacks) :
    Sound (initial config callbacks).rm where
  notClosing := rfl
  entries := by
    intro peerID position found
    simp [initial, newReconnectManager] at found
  withdrawn := by
    intro position task started
    simp [initial, newReconnectManager] at started

theorem tracked_initial (config : ReconnectConfig) (callbacks : ReconnectCallbacks) :
    Tracked (initial config callbacks) := by
  refine tracked_of_stored (fun position task live => ?_) nofun nofun
  have started := live.started
  simp [newReconnectManager] at started

/-- Every peer has at most one live loop, stored under its name, and the cancelled loops stay
silent, in exactly the runs in which no cancelled loop finishes over a successor or a callback. -/
theorem tracked_iff_unhurried (config : ReconnectConfig) (callbacks : ReconnectCallbacks)
    (events : List Event) :
    Throughout step Tracked (initial config callbacks) events ↔
      Along step Unhurried (initial config callbacks) events :=
  throughout_iff_along_under (I := fun state => Sound state.rm) _ events
    (sound_initial config callbacks) (tracked_initial config callbacks) sound_step tracked_step_iff

/-- A loop finds its peer connected, is cancelled and replaced, and only then finishes: the entry
it deletes is that of its successor, which goes on unstored. -/
theorem cancelled_loop_unstores_successor :
    ¬Tracked (run step (initial {} {})
      [.schedule [7] [8] 0, .run 0 {}, .run 0 { connected := true }, .cancel [7],
        .schedule [7] [8] 1, .run 0 {}]) := by
  intro tracked
  have stored := tracked.stored 1 { loop := newReconnectLoop {} [7] [8] 1 } ⟨rfl, rfl, nofun⟩
  revert stored
  decide

end Tenet.ReconnectTasks
