import Tenet.Lib.Deadlines
import Tenet.Lib.Run
import Tenet.Wire

/-! The throttle of the connects that discovery starts: `discoveryConnectSeen`, which keeps an address
from being tried again within the cooldown, and the semaphore that bounds the connects in progress. -/

namespace Tenet

open Lib

def discoveryConnectConcurrencyLimit : Nat := 8

def discoveryConnectCooldown : Int := 10000000000

def discoveryConnectPruneThreshold : Nat := 256
def discoveryConnectSeenHardLimit : Nat := 1024

def discoveryConnectKey (peerID addr : Bytes) : Bytes := peerID ++ 0x7C :: addr

def pruneDiscoveryConnectSeenLocked (seen : GoMap Bytes Int) (now : Int) : GoMap Bytes Int :=
  Deadlines.prune seen now

def trimDiscoveryConnectSeenLocked (order : GoMap.Iteration Bytes Int) (seen : GoMap Bytes Int)
    (targetSize : Int) : GoMap Bytes Int :=
  Deadlines.trim order seen targetSize.toNat

def prunedAtThreshold (seen : GoMap Bytes Int) (now : Int) : GoMap Bytes Int :=
  if seen.len > discoveryConnectPruneThreshold then pruneDiscoveryConnectSeenLocked seen now else seen

def roomForEntry (order : GoMap.Iteration Bytes Int) (seen : GoMap Bytes Int) (now : Int) :
    GoMap Bytes Int :=
  if seen.len ≥ discoveryConnectSeenHardLimit then
    let pruned := pruneDiscoveryConnectSeenLocked seen now
    if pruned.len ≥ discoveryConnectSeenHardLimit then
      trimDiscoveryConnectSeenLocked order pruned (discoveryConnectSeenHardLimit - 1)
    else pruned
  else seen

/-- The locked part of `tryBeginDiscoveryConnect`, and whether the call goes on to the semaphore. -/
def lockDiscoveryConnect (order : GoMap.Iteration Bytes Int) (seen : GoMap Bytes Int) (key : Bytes)
    (now : Int) : GoMap Bytes Int × Bool :=
  let seen := prunedAtThreshold seen now
  if (Deadlines.live seen now key).isSome then (seen, false)
  else ((roomForEntry order seen now).set key (now + discoveryConnectCooldown), true)

/-- The `select` on the semaphore, which holds that many tokens; `none` is its default case. -/
def acquireDiscoveryConnect (sem : Nat) : Option Nat :=
  if sem < discoveryConnectConcurrencyLimit then some (sem + 1) else none

def endDiscoveryConnect (sem : Nat) : Nat := sem - 1

def tryBeginDiscoveryConnect (order : GoMap.Iteration Bytes Int) (seen : GoMap Bytes Int) (sem : Nat)
    (peerID addr : Bytes) (now : Int) : GoMap Bytes Int × Nat × Bool :=
  let key := discoveryConnectKey peerID addr
  match lockDiscoveryConnect order seen key now with
  | (seen, false) => (seen, sem, false)
  | (seen, true) =>
      match acquireDiscoveryConnect sem with
      | some sem => (seen, sem, true)
      | none => (seen.delete key, sem, false)

section Locked

variable (order : GoMap.Iteration Bytes Int) (seen : GoMap Bytes Int) (now : Int)

theorem prunedAtThreshold_live (key : Bytes) :
    Deadlines.live (prunedAtThreshold seen now) now key = Deadlines.live seen now key := by
  unfold prunedAtThreshold
  split
  · exact Deadlines.live_prune seen now key
  · rfl

theorem prunedAtThreshold_len : (prunedAtThreshold seen now).len ≤ seen.len := by
  unfold prunedAtThreshold
  split
  · exact Deadlines.len_prune_le seen now
  · exact Nat.le_refl _

theorem roomForEntry_len : (roomForEntry order seen now).len < discoveryConnectSeenHardLimit := by
  unfold roomForEntry
  split
  · dsimp only
    split
    · exact Nat.lt_of_le_of_lt (Deadlines.len_trim_le order _ _) (by decide)
    · next small => exact Nat.lt_of_not_le small
  · next small => exact Nat.lt_of_not_le small

theorem roomForEntry_live (few : (Deadlines.prune seen now).len < discoveryConnectSeenHardLimit)
    (key : Bytes) :
    Deadlines.live (roomForEntry order (prunedAtThreshold seen now) now) now key =
      Deadlines.live seen now key := by
  have pruned : (Deadlines.prune (prunedAtThreshold seen now) now).len <
      discoveryConnectSeenHardLimit := by
    unfold prunedAtThreshold
    split
    · exact (Deadlines.len_prune_prune seen now).trans_lt few
    · exact few
  unfold roomForEntry
  split
  · dsimp only
    rw [pruneDiscoveryConnectSeenLocked, if_neg (Nat.not_le.mpr pruned)]
    exact (Deadlines.live_prune _ now key).trans (prunedAtThreshold_live seen now key)
  · exact prunedAtThreshold_live seen now key

theorem roomForEntry_loses (many : discoveryConnectSeenHardLimit ≤ (Deadlines.prune seen now).len) :
    ∃ key deadline, Deadlines.live seen now key = some deadline ∧
      (roomForEntry order (prunedAtThreshold seen now) now).get key = none := by
  have large : seen.len > discoveryConnectPruneThreshold :=
    Nat.lt_of_lt_of_le (by decide) (many.trans (Deadlines.len_prune_le seen now))
  have again : discoveryConnectSeenHardLimit ≤
      (Deadlines.prune (Deadlines.prune seen now) now).len := by
    rwa [Deadlines.len_prune_prune]
  rcases Deadlines.trim_loses order (Deadlines.prune (Deadlines.prune seen now) now) 1023
    (Nat.lt_of_lt_of_le (by decide) again) with ⟨key, deadline, stored, lost⟩
  refine ⟨key, deadline, ?_, ?_⟩
  · rwa [Deadlines.get_prune, Deadlines.live_prune] at stored
  · rw [prunedAtThreshold, if_pos large, roomForEntry, pruneDiscoveryConnectSeenLocked, if_pos many]
    dsimp only
    rw [pruneDiscoveryConnectSeenLocked, if_pos again]
    exact lost

theorem lockDiscoveryConnect_cases (key : Bytes) :
    (lockDiscoveryConnect order seen key now = (prunedAtThreshold seen now, false) ∧
        (Deadlines.live seen now key).isSome = true) ∨
      (lockDiscoveryConnect order seen key now =
          ((roomForEntry order (prunedAtThreshold seen now) now).set key
            (now + discoveryConnectCooldown), true) ∧
        Deadlines.live seen now key = none) := by
  rw [lockDiscoveryConnect, prunedAtThreshold_live]
  cases Deadlines.live seen now key with
  | none => exact Or.inr ⟨rfl, rfl⟩
  | some deadline => exact Or.inl ⟨rfl, rfl⟩

end Locked

def SameUnexpired (now : Int) (before after : GoMap Bytes Int) : Prop :=
  ∀ key, Deadlines.live after now key = Deadlines.live before now key

theorem tryBegin_refused (order : GoMap.Iteration Bytes Int) (seen : GoMap Bytes Int) (sem : Nat)
    (peerID addr : Bytes) (now : Int)
    (refused : (tryBeginDiscoveryConnect order seen sem peerID addr now).2.2 = false) :
    let key := discoveryConnectKey peerID addr
    let after := (tryBeginDiscoveryConnect order seen sem peerID addr now).1
    ((Deadlines.live seen now key).isSome = true ∧ after = prunedAtThreshold seen now) ∨
      (Deadlines.live seen now key = none ∧
        ∀ other, after.get other = if other = key then none
          else (roomForEntry order (prunedAtThreshold seen now) now).get other) := by
  intro key after
  rcases lockDiscoveryConnect_cases order seen now key with ⟨locked, live⟩ | ⟨locked, expired⟩
  · refine Or.inl ⟨live, ?_⟩
    simp only [after, tryBeginDiscoveryConnect, show discoveryConnectKey peerID addr = key from rfl,
      locked]
  · refine Or.inr ⟨expired, ?_⟩
    simp only [tryBeginDiscoveryConnect, show discoveryConnectKey peerID addr = key from rfl,
      locked] at refused
    simp only [after, tryBeginDiscoveryConnect, show discoveryConnectKey peerID addr = key from rfl,
      locked]
    cases acquired : acquireDiscoveryConnect sem with
    | some sem =>
        rw [acquired] at refused
        cases refused
    | none =>
        intro other
        rw [GoMap.get_delete_set, GoMap.get_delete]

theorem refused_loses (order : GoMap.Iteration Bytes Int) (seen : GoMap Bytes Int) (sem : Nat)
    (peerID addr : Bytes) (now : Int)
    (refused : (tryBeginDiscoveryConnect order seen sem peerID addr now).2.2 = false)
    (many : discoveryConnectSeenHardLimit ≤ (Deadlines.prune seen now).len)
    (expired : Deadlines.live seen now (discoveryConnectKey peerID addr) = none) :
    ¬SameUnexpired now seen (tryBeginDiscoveryConnect order seen sem peerID addr now).1 := by
  intro same
  rcases tryBegin_refused order seen sem peerID addr now refused with ⟨live, _⟩ | ⟨_, after⟩
  · rw [expired] at live
    cases live
  · rcases roomForEntry_loses order seen now many with ⟨key, deadline, stored, lost⟩
    have gone : Deadlines.live (tryBeginDiscoveryConnect order seen sem peerID addr now).1 now key =
        none := by
      rw [Deadlines.live, after, lost, ite_self]
      rfl
    rw [same, stored] at gone
    cases gone

/-- A refused call keeps the entries that have not expired exactly if there are fewer of them than the
hard limit, or its own key is among them. -/
theorem refused_noop_iff (order : GoMap.Iteration Bytes Int) (seen : GoMap Bytes Int) (sem : Nat)
    (peerID addr : Bytes) (now : Int)
    (refused : (tryBeginDiscoveryConnect order seen sem peerID addr now).2.2 = false) :
    SameUnexpired now seen (tryBeginDiscoveryConnect order seen sem peerID addr now).1 ↔
      (Deadlines.prune seen now).len < discoveryConnectSeenHardLimit ∨
        (Deadlines.live seen now (discoveryConnectKey peerID addr)).isSome = true := by
  constructor
  · intro same
    by_contra neither
    rcases not_or.mp neither with ⟨many, absent⟩
    exact refused_loses order seen sem peerID addr now refused (Nat.le_of_not_lt many)
      (Option.not_isSome_iff_eq_none.mp absent) same
  · intro allowed
    rcases tryBegin_refused order seen sem peerID addr now refused with
      ⟨_, after⟩ | ⟨expired, after⟩
    · rw [after]
      exact prunedAtThreshold_live seen now
    · have few := allowed.resolve_right (by simp [expired])
      intro key
      by_cases own : key = discoveryConnectKey peerID addr
      · rw [own, expired, Deadlines.live, after, if_pos rfl]
        rfl
      · rw [Deadlines.live, after, if_neg own]
        exact roomForEntry_live order seen now few key

/-- Two other entries that have not expired. -/
def otherEntries : GoMap Bytes Int := ((∅ : GoMap Bytes Int).set [7] 5).set [8] 9

theorem refused_noop_iff_full :
    (tryBeginDiscoveryConnect .plain otherEntries 8 [1] [2] 0).2.2 = false ∧
      SameUnexpired 0 otherEntries (tryBeginDiscoveryConnect .plain otherEntries 8 [1] [2] 0).1 :=
  ⟨by decide +kernel,
    (refused_noop_iff .plain otherEntries 8 [1] [2] 0 (by decide +kernel)).mpr
      (Or.inl (by decide +kernel))⟩

namespace Crowded

def key (position : Nat) : Bytes := [UInt8.ofNat (position / 256), UInt8.ofNat position]

theorem keys_distinct : ((List.range 1024).map key).Nodup := by
  refine List.Nodup.map_on ?_ List.nodup_range
  intro one first other second same
  have bytes := congrArg (List.map UInt8.toNat) same
  simp only [key, List.map_cons, List.map_nil, UInt8.toNat_ofNat', List.cons.injEq, and_true] at bytes
  rw [List.mem_range] at first second
  omega

def seen : GoMap Bytes Int :=
  ⟨(List.range 1024).map fun position => ⟨key position, 1⟩, by
    rw [List.NodupKeys, List.keys, List.map_map]
    exact keys_distinct⟩

end Crowded

theorem refused_call_trims :
    (tryBeginDiscoveryConnect .plain Crowded.seen 8 [9] [9] 0).2.2 = false ∧
      ¬SameUnexpired 0 Crowded.seen (tryBeginDiscoveryConnect .plain Crowded.seen 8 [9] [9] 0).1 := by
  have refused : (tryBeginDiscoveryConnect .plain Crowded.seen 8 [9] [9] 0).2.2 = false := by
    decide +kernel
  exact ⟨refused, refused_loses .plain Crowded.seen 8 [9] [9] 0 refused (by decide +kernel)
    (by decide +kernel)⟩

inductive ConnectPoint where
  | acquire
  | rollback
  | refused
  | admitted
  | ended
  deriving DecidableEq, Repr

structure ConnectAttempt where
  key : Bytes
  time : Int
  point : ConnectPoint
  deriving DecidableEq, Repr

/-- The throttle with the calls that passed their locked part, in that order. `admitted` are the keys
and times of the admitted ones in the order of admission, `ended` counts those whose connect is over. -/
structure DiscoveryThrottle where
  clock : Int
  seen : GoMap Bytes Int
  sem : Nat
  attempts : List ConnectAttempt
  admitted : List (Bytes × Int)
  ended : Nat

inductive DiscoveryEvent where
  | wait (duration : Nat)
  | lock (peerID addr : Bytes) (order : GoMap.Iteration Bytes Int)
  | acquire (index : Nat)
  | rollback (index : Nat)
  | endDiscoveryConnect (index : Nat)

namespace DiscoveryThrottle

def start : DiscoveryThrottle := ⟨0, ∅, 0, [], [], 0⟩

variable (s : DiscoveryThrottle)

def move (index : Nat) (a : ConnectAttempt) (point : ConnectPoint) : DiscoveryThrottle :=
  { s with attempts := s.attempts.set index { a with point } }

def acquire (index : Nat) (a : ConnectAttempt) : DiscoveryThrottle :=
  match acquireDiscoveryConnect s.sem with
  | some sem =>
      { s.move index a .admitted with sem, admitted := s.admitted ++ [(a.key, a.time)] }
  | none => s.move index a .rollback

def step : DiscoveryEvent → DiscoveryThrottle
  | .wait duration => { s with clock := s.clock + duration }
  | .lock peerID addr order =>
      let key := discoveryConnectKey peerID addr
      match lockDiscoveryConnect order s.seen key s.clock with
      | (seen, false) => { s with seen }
      | (seen, true) => { s with seen, attempts := s.attempts ++ [⟨key, s.clock, .acquire⟩] }
  | .acquire index =>
      match s.attempts[index]? with
      | some a => if a.point = .acquire then s.acquire index a else s
      | none => s
  | .rollback index =>
      match s.attempts[index]? with
      | some a =>
          if a.point = .rollback then
            { s.move index a .refused with seen := s.seen.delete a.key }
          else s
      | none => s
  | .endDiscoveryConnect index =>
      match s.attempts[index]? with
      | some a =>
          if a.point = .admitted then
            { s.move index a .ended with sem := Tenet.endDiscoveryConnect s.sem, ended := s.ended + 1 }
          else s
      | none => s

theorem run_alone (peerID addr : Bytes) (order : GoMap.Iteration Bytes Int) :
    let after := Run.run step s
      [.lock peerID addr order, .acquire s.attempts.length, .rollback s.attempts.length]
    let call := tryBeginDiscoveryConnect order s.seen s.sem peerID addr s.clock
    after.seen = call.1 ∧ after.sem = call.2.1 ∧ after.admitted = s.admitted ++
      if call.2.2 then [(discoveryConnectKey peerID addr, s.clock)] else [] := by
  rcases locked : lockDiscoveryConnect order s.seen (discoveryConnectKey peerID addr) s.clock with
    ⟨seen, _ | _⟩
  · simp [Run.run, step, tryBeginDiscoveryConnect, locked]
  · cases taken : acquireDiscoveryConnect s.sem with
    | none => simp [Run.run, step, tryBeginDiscoveryConnect, locked, acquire, taken, move]
    | some sem => simp [Run.run, step, tryBeginDiscoveryConnect, locked, acquire, taken, move]

def inProgress : Nat := s.attempts.countP fun a => decide (a.point = .admitted)

structure Bounded : Prop where
  few : s.seen.len ≤ discoveryConnectSeenHardLimit
  slots : s.inProgress ≤ discoveryConnectConcurrencyLimit
  counted : s.sem + s.ended = s.admitted.length

/-- A key that a call admitted at some time is not admitted again within the cooldown. -/
def Deduped : Prop :=
  s.admitted.Pairwise fun earlier later =>
    earlier.1 = later.1 → earlier.2 + discoveryConnectCooldown ≤ later.2

/-- There is room for every entry that has not expired, and a call is through with the semaphore and
its rollback before its own entry expires. -/
def Prompt : DiscoveryEvent → Prop
  | .lock _ _ _ => (Deadlines.prune s.seen s.clock).len < discoveryConnectSeenHardLimit
  | .acquire index => ∀ a ∈ s.attempts[index]?, a.point = .acquire →
      s.clock < a.time + discoveryConnectCooldown
  | .rollback index => ∀ a ∈ s.attempts[index]?, a.point = .rollback →
      s.clock < a.time + discoveryConnectCooldown
  | .wait _ | .endDiscoveryConnect _ => True

def PromptAcquire : DiscoveryEvent → Prop
  | .lock _ _ _ => (Deadlines.prune s.seen s.clock).len < discoveryConnectSeenHardLimit
  | .acquire index => ∀ a ∈ s.attempts[index]?, a.point = .acquire →
      s.clock ≤ a.time + discoveryConnectCooldown
  | .rollback _ | .wait _ | .endDiscoveryConnect _ => True

instance decidablePrompt : (event : DiscoveryEvent) → Decidable (s.Prompt event)
  | .lock _ _ _ => inferInstanceAs (Decidable (_ < _))
  | .acquire index => inferInstanceAs (Decidable (∀ a ∈ s.attempts[index]?, a.point = .acquire →
      s.clock < a.time + discoveryConnectCooldown))
  | .rollback index => inferInstanceAs (Decidable (∀ a ∈ s.attempts[index]?, a.point = .rollback →
      s.clock < a.time + discoveryConnectCooldown))
  | .wait _ | .endDiscoveryConnect _ => inferInstanceAs (Decidable True)

instance decidablePromptAcquire : (event : DiscoveryEvent) → Decidable (s.PromptAcquire event)
  | .lock _ _ _ => inferInstanceAs (Decidable (_ < _))
  | .acquire index => inferInstanceAs (Decidable (∀ a ∈ s.attempts[index]?, a.point = .acquire →
      s.clock ≤ a.time + discoveryConnectCooldown))
  | .rollback _ | .wait _ | .endDiscoveryConnect _ => inferInstanceAs (Decidable True)

variable {s}

theorem step_cases (event : DiscoveryEvent) :
    s.step event = s ∨
      (∃ duration, event = .wait duration ∧ s.step event = { s with clock := s.clock + duration }) ∨
      (∃ peerID addr order, event = .lock peerID addr order ∧
        ((s.step event = { s with seen := prunedAtThreshold s.seen s.clock }) ∨
          (Deadlines.live s.seen s.clock (discoveryConnectKey peerID addr) = none ∧
            s.step event = { s with
              seen := (roomForEntry order (prunedAtThreshold s.seen s.clock) s.clock).set
                (discoveryConnectKey peerID addr) (s.clock + discoveryConnectCooldown)
              attempts := s.attempts ++
                [⟨discoveryConnectKey peerID addr, s.clock, .acquire⟩] }))) ∨
      ∃ index a, s.attempts[index]? = some a ∧
        ((event = .acquire index ∧ a.point = .acquire ∧
            ((s.sem < discoveryConnectConcurrencyLimit ∧ s.step event =
                { s.move index a .admitted with
                  sem := s.sem + 1, admitted := s.admitted ++ [(a.key, a.time)] }) ∨
              s.step event = s.move index a .rollback)) ∨
          (event = .rollback index ∧ a.point = .rollback ∧
            s.step event = { s.move index a .refused with seen := s.seen.delete a.key }) ∨
          (event = .endDiscoveryConnect index ∧ a.point = .admitted ∧
            s.step event = { s.move index a .ended with sem := s.sem - 1, ended := s.ended + 1 })) := by
  cases event with
  | wait duration => exact Or.inr (Or.inl ⟨duration, rfl, rfl⟩)
  | lock peerID addr order =>
      refine Or.inr (Or.inr (Or.inl ⟨peerID, addr, order, rfl, ?_⟩))
      rcases lockDiscoveryConnect_cases order s.seen s.clock (discoveryConnectKey peerID addr) with
        ⟨locked, _⟩ | ⟨locked, expired⟩
      · exact Or.inl (by simp only [step, locked])
      · exact Or.inr ⟨expired, by simp only [step, locked]⟩
  | acquire index =>
      cases found : s.attempts[index]? with
      | none => exact Or.inl (by simp only [step, found])
      | some a =>
          by_cases stands : a.point = .acquire
          · refine Or.inr (Or.inr (Or.inr ⟨index, a, found, Or.inl ⟨rfl, stands, ?_⟩⟩))
            simp only [step, found, stands, if_true, acquire, acquireDiscoveryConnect]
            by_cases free : s.sem < discoveryConnectConcurrencyLimit
            · exact Or.inl ⟨free, by simp only [if_pos free]⟩
            · exact Or.inr (by simp only [if_neg free])
          · exact Or.inl (by simp only [step, found, if_neg stands])
  | rollback index =>
      cases found : s.attempts[index]? with
      | none => exact Or.inl (by simp only [step, found])
      | some a =>
          by_cases stands : a.point = .rollback
          · exact Or.inr (Or.inr (Or.inr ⟨index, a, found, Or.inr (Or.inl ⟨rfl, stands, by
              simp only [step, found, stands, if_true]⟩)⟩))
          · exact Or.inl (by simp only [step, found, if_neg stands])
  | endDiscoveryConnect index =>
      cases found : s.attempts[index]? with
      | none => exact Or.inl (by simp only [step, found])
      | some a =>
          by_cases stands : a.point = .admitted
          · exact Or.inr (Or.inr (Or.inr ⟨index, a, found, Or.inr (Or.inr ⟨rfl, stands, by
              simp only [step, found, stands, if_true, Tenet.endDiscoveryConnect]⟩)⟩))
          · exact Or.inl (by simp only [step, found, if_neg stands])

structure Accounted (s : DiscoveryThrottle) : Prop where
  few : s.seen.len ≤ discoveryConnectSeenHardLimit
  slots : s.sem ≤ discoveryConnectConcurrencyLimit
  holds : s.inProgress = s.sem
  counted : s.sem + s.ended = s.admitted.length

theorem inProgress_move {index : Nat} {a : ConnectAttempt} (found : s.attempts[index]? = some a)
    (point : ConnectPoint) :
    (s.move index a point).inProgress + (if a.point = .admitted then 1 else 0) =
      s.inProgress + (if point = .admitted then 1 else 0) := by
  obtain ⟨inside, rfl⟩ := List.getElem?_eq_some_iff.mp found
  have counted : (s.move index s.attempts[index] point).inProgress = s.inProgress -
      (if s.attempts[index].point = .admitted then 1 else 0) +
        (if point = .admitted then 1 else 0) := by
    simp only [move, inProgress, List.countP_set inside, decide_eq_true_eq]
  have least : s.attempts[index].point = .admitted → 0 < s.inProgress := by
    intro admitted
    exact List.countP_pos_iff.mpr ⟨_, List.getElem_mem inside, decide_eq_true admitted⟩
  rw [counted]
  split
  · next admitted =>
      have positive := least admitted
      omega
  · omega

theorem accounted_step (event : DiscoveryEvent) (accounted : s.Accounted) :
    (s.step event).Accounted := by
  rcases s.step_cases event with same | ⟨_, _, same⟩ | ⟨peerID, addr, order, _, locked⟩ |
    ⟨index, a, found, acquired | ⟨_, stands, same⟩ | ⟨_, stands, same⟩⟩
  · rwa [same]
  · rw [same]
    exact ⟨accounted.few, accounted.slots, accounted.holds, accounted.counted⟩
  · rcases locked with same | ⟨_, same⟩
    · rw [same]
      exact ⟨(prunedAtThreshold_len s.seen s.clock).trans accounted.few, accounted.slots,
        accounted.holds, accounted.counted⟩
    · rw [same]
      refine ⟨?_, accounted.slots, ?_, accounted.counted⟩
      · exact (GoMap.len_set_le _ _ _).trans (roomForEntry_len order _ s.clock)
      · rw [inProgress, List.countP_append]
        exact accounted.holds
  · rcases acquired with ⟨_, stands, ⟨free, same⟩ | same⟩
    · have moved := inProgress_move found .admitted
      rw [stands, if_neg nofun, if_pos rfl, accounted.holds] at moved
      rw [same]
      refine ⟨accounted.few, free, moved, ?_⟩
      have counted := accounted.counted
      simp only [move, List.length_append, List.length_singleton]
      omega
    · have moved := inProgress_move found .rollback
      rw [stands, if_neg nofun, if_neg nofun, accounted.holds] at moved
      rw [same]
      exact ⟨accounted.few, accounted.slots, moved, accounted.counted⟩
  · have moved := inProgress_move found .refused
    rw [stands, if_neg nofun, if_neg nofun, accounted.holds] at moved
    rw [same]
    exact ⟨(GoMap.len_delete_le _ _).trans accounted.few, accounted.slots, moved, accounted.counted⟩
  · have moved := inProgress_move found .ended
    rw [stands, if_pos rfl, if_neg nofun, accounted.holds] at moved
    have slots := accounted.slots
    have counted := accounted.counted
    rw [same]
    refine ⟨accounted.few, (Nat.sub_le _ _).trans slots, ?_, ?_⟩
    · simp only [inProgress] at moved ⊢
      omega
    · simp only [move]
      omega

theorem bounded_of_accounted (accounted : s.Accounted) : s.Bounded :=
  ⟨accounted.few, accounted.holds ▸ accounted.slots, accounted.counted⟩

/-- The attempts that were not refused keep their keys from one another: while the cooldown of one
lasts, the map holds its entry, so no other passes the locked part. -/
structure Spaced (s : DiscoveryThrottle) : Prop where
  past : ∀ a ∈ s.attempts, a.time ≤ s.clock
  guarded : ∀ a ∈ s.attempts, a.point ≠ .refused → s.clock < a.time + discoveryConnectCooldown →
    s.seen.get a.key = some (a.time + discoveryConnectCooldown)
  apart : ∀ (first second : Nat) (a b : ConnectAttempt), first < second → s.attempts[first]? = some a →
    s.attempts[second]? = some b → a.point ≠ .refused → b.point ≠ .refused → a.key = b.key →
      a.time + discoveryConnectCooldown ≤ b.time
  logged : ∀ entry ∈ s.admitted, ∃ (index : Nat) (a : ConnectAttempt),
    s.attempts[index]? = some a ∧ (a.point = .admitted ∨ a.point = .ended) ∧ (a.key, a.time) = entry
  deduped : s.Deduped

theorem Spaced.alone (spaced : s.Spaced) {index other : Nat} {a b : ConnectAttempt}
    (found : s.attempts[index]? = some a) (present : s.attempts[other]? = some b)
    (differs : other ≠ index) (holds : a.point ≠ .refused) (keeps : b.point ≠ .refused)
    (same : b.key = a.key) (early : s.clock < a.time + discoveryConnectCooldown) :
    b.time + discoveryConnectCooldown ≤ a.time := by
  rcases Nat.lt_or_gt_of_ne differs with before | after
  · exact spaced.apart other index b a before present found keeps holds same
  · have later := spaced.apart index other a b after found present holds keeps same.symm
    have past := spaced.past b (List.mem_of_getElem? present)
    omega

theorem getElem?_move {index : Nat} {a : ConnectAttempt} (found : s.attempts[index]? = some a)
    (point : ConnectPoint) (other : Nat) :
    (s.move index a point).attempts[other]? =
      if other = index then some { a with point } else s.attempts[other]? := by
  have inside := (List.getElem?_eq_some_iff.mp found).1
  rw [move, List.getElem?_set]
  by_cases same : other = index
  · rw [if_pos same, if_pos same.symm, if_pos inside]
  · rw [if_neg same, if_neg (Ne.symm same)]

theorem move_origin {index other : Nat} {a b : ConnectAttempt} {point : ConnectPoint}
    (found : s.attempts[index]? = some a) (going : a.point ≠ .refused)
    (present : (s.move index a point).attempts[other]? = some b) :
    ∃ before, s.attempts[other]? = some before ∧ before.key = b.key ∧ before.time = b.time ∧
      (b.point ≠ .refused → before.point ≠ .refused) := by
  rw [getElem?_move found] at present
  split at present
  · next same =>
      cases present
      exact ⟨a, same ▸ found, rfl, rfl, fun _ => going⟩
  · exact ⟨b, present, rfl, rfl, id⟩

theorem spaced_move (spaced : s.Spaced) {index : Nat} {a : ConnectAttempt} (point : ConnectPoint)
    (found : s.attempts[index]? = some a) (going : a.point ≠ .refused)
    (kept : a.point = .admitted ∨ a.point = .ended → point = .admitted ∨ point = .ended) :
    (s.move index a point).Spaced := by
  refine ⟨?_, ?_, ?_, ?_, spaced.deduped⟩
  · intro b member
    obtain ⟨other, present⟩ := List.mem_iff_getElem?.mp member
    rcases move_origin found going present with ⟨before, stood, _, time, _⟩
    rw [← time]
    exact spaced.past before (List.mem_of_getElem? stood)
  · intro b member holds early
    obtain ⟨other, present⟩ := List.mem_iff_getElem?.mp member
    rcases move_origin found going present with ⟨before, stood, key, time, held⟩
    rw [← time] at early ⊢
    rw [← key]
    exact spaced.guarded before (List.mem_of_getElem? stood) (held holds) early
  · intro first second b c less one two holds keeps same
    rcases move_origin found going one with ⟨b', stood, key, time, held⟩
    rcases move_origin found going two with ⟨c', stood', key', time', held'⟩
    rw [← time, ← time']
    exact spaced.apart first second b' c' less stood stood' (held holds) (held' keeps)
      (key.trans (same.trans key'.symm))
  · intro entry member
    rcases spaced.logged entry member with ⟨other, b, present, through, same⟩
    by_cases here : other = index
    · rw [here, found] at present
      cases present
      exact ⟨index, { a with point }, by rw [getElem?_move found, if_pos rfl], kept through, same⟩
    · exact ⟨other, b, by rw [getElem?_move found, if_neg here]; exact present, through, same⟩

theorem get_of_sameUnexpired {before after : GoMap Bytes Int} {now deadline : Int} {key : Bytes}
    (same : SameUnexpired now before after) (stored : before.get key = some deadline)
    (ahead : now < deadline) : after.get key = some deadline := by
  have live := (Deadlines.live_eq_some before now key deadline).mpr ⟨stored, ahead⟩
  rw [← same key] at live
  exact ((Deadlines.live_eq_some after now key deadline).mp live).1

theorem spaced_seen (spaced : s.Spaced) {seen : GoMap Bytes Int}
    (same : SameUnexpired s.clock s.seen seen) : Spaced { s with seen } where
  past := spaced.past
  guarded a member holds early :=
    get_of_sameUnexpired same (spaced.guarded a member holds early) early
  apart := spaced.apart
  logged := spaced.logged
  deduped := spaced.deduped

theorem spaced_lock (spaced : s.Spaced) {seen : GoMap Bytes Int} {key : Bytes}
    (same : SameUnexpired s.clock s.seen seen) (expired : Deadlines.live s.seen s.clock key = none) :
    Spaced { s with
      seen := seen.set key (s.clock + discoveryConnectCooldown)
      attempts := s.attempts ++ [⟨key, s.clock, .acquire⟩] } := by
  have cooled (a : ConnectAttempt) (member : a ∈ s.attempts) (holds : a.point ≠ .refused)
      (own : a.key = key) : a.time + discoveryConnectCooldown ≤ s.clock := by
    by_contra early
    have stored := spaced.guarded a member holds (Int.lt_of_not_ge early)
    have live := (Deadlines.live_eq_some _ _ _ _).mpr ⟨stored, Int.lt_of_not_ge early⟩
    rw [own, expired] at live
    cases live
  refine ⟨?_, ?_, ?_, ?_, spaced.deduped⟩
  · intro a member
    rcases List.mem_append.mp member with before | new
    · exact spaced.past a before
    · obtain rfl := List.mem_singleton.mp new
      exact Int.le_refl _
  · intro a member holds early
    rw [GoMap.get_set]
    rcases List.mem_append.mp member with before | new
    · have other : a.key ≠ key := fun own => absurd (cooled a before holds own) (Int.not_le.mpr early)
      rw [if_neg other]
      exact get_of_sameUnexpired same (spaced.guarded a before holds early) early
    · rw [List.mem_singleton.mp new, if_pos rfl]
  · intro first second a b less one two holds keeps shared
    have inside := (List.getElem?_eq_some_iff.mp two).1
    rw [List.length_append, List.length_singleton] at inside
    rw [List.getElem?_append_left (by omega)] at one
    rw [List.getElem?_append] at two
    split at two
    · exact spaced.apart first second a b less one two holds keeps shared
    · have new := List.mem_singleton.mp (List.mem_of_getElem? two)
      rw [new] at shared ⊢
      exact cooled a (List.mem_of_getElem? one) holds shared
  · intro entry member
    rcases spaced.logged entry member with ⟨index, a, present, through, logged⟩
    exact ⟨index, a, List.getElem?_append_left (List.getElem?_eq_some_iff.mp present).1 ▸ present,
      through, logged⟩

theorem spaced_admit (spaced : s.Spaced) {index : Nat} {a : ConnectAttempt} (sem : Nat)
    (found : s.attempts[index]? = some a) (stands : a.point = .acquire)
    (prompt : s.clock < a.time + discoveryConnectCooldown) :
    Spaced { s.move index a .admitted with sem, admitted := s.admitted ++ [(a.key, a.time)] } := by
  have moved := spaced_move spaced .admitted found (by simp [stands]) fun _ => Or.inl rfl
  refine ⟨moved.past, moved.guarded, moved.apart, ?_, ?_⟩
  · intro entry member
    rcases List.mem_append.mp member with before | new
    · exact moved.logged entry before
    · refine ⟨index, { a with point := .admitted }, ?_, Or.inl rfl, (List.mem_singleton.mp new).symm⟩
      exact (getElem?_move found .admitted index).trans (if_pos rfl)
  · refine List.pairwise_append.mpr ⟨spaced.deduped, List.pairwise_singleton _ _, ?_⟩
    intro entry before new member same
    rw [List.mem_singleton.mp member] at same ⊢
    rcases spaced.logged entry before with ⟨other, b, present, through, rfl⟩
    have differs : other ≠ index := by
      rintro rfl
      rw [found] at present
      cases present
      simp [stands] at through
    refine spaced.alone found present differs (by simp [stands]) ?_ same prompt
    rcases through with through | through <;> simp [through]

theorem spaced_rollback (spaced : s.Spaced) {index : Nat} {a : ConnectAttempt}
    (found : s.attempts[index]? = some a) (stands : a.point = .rollback)
    (prompt : s.clock < a.time + discoveryConnectCooldown) :
    Spaced { s.move index a .refused with seen := s.seen.delete a.key } := by
  have going : a.point ≠ .refused := by simp [stands]
  have moved := spaced_move spaced .refused found going (by simp [stands])
  refine ⟨moved.past, ?_, moved.apart, moved.logged, moved.deduped⟩
  intro b member holds early
  obtain ⟨other, present⟩ := List.mem_iff_getElem?.mp member
  have here := (getElem?_move found .refused other).symm.trans present
  split at here
  · cases here
    exact absurd rfl holds
  · next differs =>
      have foreign : b.key ≠ a.key := by
        intro same
        have away := spaced.alone found here differs going holds same prompt
        have past := spaced.past a (List.mem_of_getElem? found)
        have now : s.clock < b.time + discoveryConnectCooldown := early
        omega
      rw [GoMap.get_delete, if_neg foreign]
      exact moved.guarded b member holds early

theorem spaced_step (event : DiscoveryEvent) (spaced : s.Spaced) (prompt : s.Prompt event) :
    (s.step event).Spaced := by
  rcases s.step_cases event with same | ⟨duration, _, same⟩ | ⟨peerID, addr, order, rfl, locked⟩ |
    ⟨index, a, found, ⟨rfl, stands, acquired⟩ | ⟨rfl, stands, same⟩ | ⟨_, stands, same⟩⟩
  · rwa [same]
  · rw [same]
    refine ⟨?_, ?_, spaced.apart, spaced.logged, spaced.deduped⟩
    · intro a member
      have past := spaced.past a member
      simp only
      omega
    · intro a member holds early
      exact spaced.guarded a member holds (by simp only at early; omega)
  · rcases locked with same | ⟨expired, same⟩
    · rw [same]
      exact spaced_seen spaced (prunedAtThreshold_live s.seen s.clock)
    · rw [same]
      exact spaced_lock spaced (roomForEntry_live order s.seen s.clock prompt) expired
  · have early := prompt a found stands
    rcases acquired with ⟨_, same⟩ | same
    · rw [same]
      exact spaced_admit spaced (s.sem + 1) found stands early
    · rw [same]
      exact spaced_move spaced .rollback found (by simp [stands]) (by simp [stands])
  · rw [same]
    exact spaced_rollback spaced found stands (prompt a found stands)
  · have moved := spaced_move spaced .ended found (by simp [stands]) fun _ => Or.inr rfl
    rw [same]
    exact ⟨moved.past, moved.guarded, moved.apart, moved.logged, moved.deduped⟩

theorem start_accounted : start.Accounted := ⟨Nat.zero_le _, Nat.zero_le _, rfl, rfl⟩

theorem start_spaced : start.Spaced :=
  ⟨fun _ member => absurd member List.not_mem_nil, fun _ member => absurd member List.not_mem_nil,
    fun _ _ _ _ _ present => absurd present (by simp [start]),
    fun _ member => absurd member List.not_mem_nil, List.Pairwise.nil⟩

/-- In every run the map, the connects in progress and the semaphore stay within their bounds. If
every call is through before its entry expires and there is room for what has not expired, a key is not
admitted again within the cooldown. -/
theorem discovery_admission (events : List DiscoveryEvent) :
    Run.Throughout step Bounded start events ∧
      (Run.Along step Prompt start events → Run.Throughout step Deduped start events) := by
  constructor
  · have accounted := Run.throughout_invariant start events start_accounted
      fun s event accounted => accounted_step (s := s) event accounted
    exact Run.throughout_mono start events accounted fun _ => bounded_of_accounted
  · intro prompt
    have spaced := Run.throughout_keeps start events start_spaced prompt
      fun s event spaced allowed => spaced_step (s := s) event spaced allowed
    exact Run.throughout_mono start events spaced fun _ spaced => spaced.deduped

def spacedOut : List DiscoveryEvent :=
  [.lock [1] [2] .plain, .acquire 0, .wait 10000000000, .lock [1] [2] .plain, .acquire 1]

theorem discovery_admission_again :
    (Run.run step start spacedOut).admitted = [([1, 0x7C, 2], 0), ([1, 0x7C, 2], 10000000000)] ∧
      Run.Along step Prompt start spacedOut ∧ Run.Throughout step Deduped start spacedOut :=
  ⟨by decide +kernel, by decide +kernel, (discovery_admission spacedOut).2 (by decide +kernel)⟩

def lateRollback : List DiscoveryEvent :=
  ((List.range 8).flatMap fun slot => [.lock [UInt8.ofNat slot] [] .plain, .acquire slot]) ++
    [.lock [9] [] .plain, .acquire 8, .wait 10000000000, .endDiscoveryConnect 0,
      .lock [9] [] .plain, .acquire 9, .rollback 8, .endDiscoveryConnect 1, .lock [9] [] .plain,
      .acquire 10]

/-- The late rollback deletes the entry of the admitted call, and the address is admitted twice at the
same time. -/
theorem late_rollback_readmits :
    Run.Along step PromptAcquire start lateRollback ∧
      ¬(Run.run step start lateRollback).Deduped := by
  refine ⟨by decide +kernel, ?_⟩
  rw [Deduped]
  decide +kernel

end DiscoveryThrottle

end Tenet
