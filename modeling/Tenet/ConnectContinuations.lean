import Tenet.ConnectFlow

/-! What `awaitConnectResult` leaves running when the UDP marker arrives first: the TCP worker with
`awaitLateTCPUpgrade`, and the relay fallback. -/

namespace Tenet

open Lib Run

namespace ConnectFlow

variable (setup : ConnectSetup) (s : ConnectFlow)

/-- What is left running after a marker is not cut off, unless the node is closing or the application
has cancelled its context. -/
structure Continues : Prop where
  worker : s.tcpWorker = .punching → s.now < s.lateDeadline → s.tcpDone = false
  upgrade : s.late = .finished → ∀ conn ∈ s.establishedLate, conn ∈ s.handed
  relay : setup.enableRelay = true →
    (s.fallback = .waiting ∧ s.ctxDone = false) ∨ ∃ known, s.fallback = .done known (!known)

def Outlives : Prop :=
  s.viaMarker = true → s.closing = false → s.appCancelled = false → s.Continues setup

/-- `Punch` has returned, the worker has sent its result and both goroutines have ended. -/
def punchOver : Bool :=
  decide (s.tcpWorker = .finished) && decide (s.puncher .dialed = .finished) &&
    decide (s.puncher .accepted = .finished)

/-- The marker is taken only when the punch is over. -/
def overBefore : FlowEvent → Bool
  | .mainTake => decide (s.resultCh.head? ≠ some .udp) || s.punchOver
  | _ => true

/-- The marker is taken in an attempt that has not timed out, and the attempt of a `reconnectLoop` does
not end while the relay fallback waits. -/
def lasting : FlowEvent → Bool
  | .mainTake => decide (s.resultCh.head? ≠ some .udp) || !s.attemptOver
  | .attemptTimeout | .loopCancel =>
      setup.reconnectTimeout.isNone || decide (s.fallback ≠ .waiting)
  | _ => true

structure PunchGone : Prop where
  none_late : s.establishedLate = []
  punch : s.viaMarker = true → s.punchOver = true

/-- After a marker the relay fallback waits in an attempt that lasts, or is through. -/
def RelayKept : Prop :=
  s.viaMarker = true → setup.enableRelay = true → s.closing = false → s.appCancelled = false →
    (s.fallback = .waiting ∧ s.ctxDone = false) ∨ ∃ known, s.fallback = .done known (!known)

variable {setup s}

theorem outlives_of_kept (gone : s.PunchGone) (kept : s.RelayKept setup) : s.Outlives setup := by
  intro marker staying active
  have ended := gone.punch marker
  constructor
  · intro punching
    rw [punchOver, punching] at ended
    cases ended
  · intro _ conn member
    rw [gone.none_late] at member
    cases member
  · intro enabled
    exact kept marker enabled staying active

section Punch

theorem not_over_of_puncher (conn : PunchConn) (running : s.puncher conn ≠ .finished) :
    s.punchOver = false := by
  cases conn <;> simp [punchOver, running]

theorem not_over_of_worker (running : s.tcpWorker ≠ .finished) : s.punchOver = false := by
  simp [punchOver, running]

theorem gone_unmarked (none_late : s.establishedLate = []) (unmarked : s.viaMarker = false) :
    s.PunchGone where
  none_late := none_late
  punch marker := by
    rw [unmarked] at marker
    cases marker

theorem PunchGone.punchStep {t : ConnectFlow} (gone : s.PunchGone) (running : s.punchOver = false)
    (none_late : s.viaMarker = false → t.establishedLate = s.establishedLate) (main : t.main = s.main) :
    t.PunchGone := by
  have unmarked : s.viaMarker = false := by
    by_contra marker
    have ended := gone.punch (Bool.not_eq_false _ ▸ marker)
    rw [running] at ended
    cases ended
  apply gone_unmarked
  · rw [none_late unmarked]
    exact gone.none_late
  · rw [viaMarker, main]
    exact unmarked

theorem PunchGone.same {t : ConnectFlow} (gone : s.PunchGone)
    (none_late : t.establishedLate = s.establishedLate) (marker : t.viaMarker = s.viaMarker)
    (ended : t.punchOver = s.punchOver) : t.PunchGone where
  none_late := by
    rw [none_late]
    exact gone.none_late
  punch := by
    rw [marker, ended]
    exact gone.punch

theorem gone_step (gone : s.PunchGone) (event : FlowEvent) (before : s.overBefore event = true) :
    (s.step setup event).PunchGone := by
  cases event with
  | tick | appCancel | close => exact gone.same rfl rfl rfl
  | attemptTimeout | loopCancel | closingSeen | markerTimeout | udpStop | markerSend | lateTake
  | lateLeave | fallbackCancel | fallbackFire =>
      simp only [step]
      split <;> exact gone.same rfl rfl rfl
  | establish conn =>
      simp only [step]
      split
      · next working =>
          have running : s.punchOver = false := not_over_of_puncher conn (by simp [working])
          refine gone.punchStep running (fun unmarked => ?_) rfl
          simp [unmarked]
      · exact gone
  | giveUp conn | offer conn | closeHeld conn =>
      simp only [step]
      split
      · next there =>
          have running : s.punchOver = false := not_over_of_puncher conn (by simp [there.1])
          exact gone.punchStep running (fun _ => rfl) rfl
      · exact gone
  | punchTake =>
      simp only [step]
      split
      · next punching _ =>
          exact gone.punchStep (not_over_of_worker (by simp [punching])) (fun _ => rfl) rfl
      · exact gone
  | punchFail =>
      simp only [step]
      split
      · next there =>
          exact gone.punchStep (not_over_of_worker (by simp [there.1])) (fun _ => rfl) rfl
      · exact gone
  | workerSend =>
      simp only [step]
      split
      · next sending =>
          exact gone.punchStep (not_over_of_worker (by simp [sending])) (fun _ => rfl) rfl
      · exact gone
  | mainTake =>
      simp only [step]
      split
      · exact gone_unmarked gone.none_late rfl
      · exact gone.same rfl rfl rfl
      · next rest awaiting results =>
          have ended : s.punchOver = true := by simpa [overBefore, results] using before
          exact ⟨gone.none_late, fun _ => ended⟩
      · exact gone
  | mainWrite accepted =>
      simp only [step]
      split
      · split <;> exact gone_unmarked gone.none_late rfl
      · exact gone
  | mainLeave =>
      simp only [step]
      split
      · exact gone_unmarked gone.none_late rfl
      · exact gone
  | mainReturn =>
      simp only [step]
      split
      · next outcome leaving =>
          refine gone.same rfl ?_ rfl
          cases outcome <;> simp [viaMarker, leaving]
      · exact gone
  | lateWrite accepted =>
      simp only [step]
      split
      · split <;> exact gone.same rfl rfl rfl
      · exact gone

end Punch

section Relay

theorem kept_unmarked (unmarked : s.viaMarker = false) : s.RelayKept setup := by
  intro marker
  rw [unmarked] at marker
  cases marker

theorem RelayKept.same {t : ConnectFlow} (kept : s.RelayKept setup) (marker : t.viaMarker = s.viaMarker)
    (closing : t.closing = s.closing) (appCancelled : t.appCancelled = s.appCancelled)
    (fallback : t.fallback = s.fallback) (attemptOver : t.attemptOver = s.attemptOver) :
    t.RelayKept setup := by
  rw [RelayKept, marker, closing, appCancelled, fallback, ctxDone, appCancelled, attemptOver]
  exact kept

theorem RelayKept.attemptEnds (kept : s.RelayKept setup) (through : s.fallback ≠ .waiting) :
    RelayKept setup { s with attemptOver := true } := by
  intro marked enabled staying active
  rcases kept marked enabled staying active with ⟨waiting, _⟩ | through
  · contradiction
  · exact Or.inr through

theorem kept_mainTake (kept : s.RelayKept setup) (lasting : s.lasting setup .mainTake = true) :
    (s.step setup .mainTake).RelayKept setup := by
  simp only [step]
  split
  · exact kept_unmarked rfl
  · exact kept.same rfl rfl rfl rfl rfl
  · next rest awaiting results =>
      have lasts : s.attemptOver = false := by simpa [ConnectFlow.lasting, results] using lasting
      intro _ enabled _ active
      left
      constructor
      · exact if_pos enabled
      · calc
          (s.appCancelled || s.attemptOver) = (false || false) := by rw [lasts, active]
          _ = false := rfl
  · exact kept

theorem kept_fallbackCancel (kept : s.RelayKept setup) :
    (s.step setup .fallbackCancel).RelayKept setup := by
  simp only [step]
  split
  · next cancelled =>
      intro marked enabled staying active
      rcases kept marked enabled staying active with ⟨_, lasts⟩ | ⟨known, through⟩
      · rcases cancelled.2 with closing | done
        · exact absurd (staying.symm.trans closing) (by simp)
        · exact absurd (lasts.symm.trans done) (by simp)
      · rw [cancelled.1] at through
        cases through
  · exact kept

theorem kept_step (kept : s.RelayKept setup) (event : FlowEvent)
    (lasting : s.lasting setup event = true) : (s.step setup event).RelayKept setup := by
  cases event with
  | tick => exact kept.same rfl rfl rfl rfl rfl
  | appCancel =>
      intro _ _ _ active
      cases active
  | close =>
      intro _ _ staying
      cases staying
  | closingSeen | markerTimeout | udpStop | markerSend | lateTake | lateLeave | establish | giveUp
  | offer | closeHeld | punchTake | punchFail | workerSend =>
      simp only [step]
      split <;> exact kept.same rfl rfl rfl rfl rfl
  | attemptTimeout =>
      simp only [step]
      split
      · next expired =>
          apply kept.attemptEnds
          cases timeout : setup.reconnectTimeout with
          | none => simp [timeout] at expired
          | some limit => simpa [ConnectFlow.lasting, timeout] using lasting
      · exact kept
  | loopCancel =>
      simp only [step]
      split
      · next limit outcome timeout returned =>
          apply kept.attemptEnds
          simpa [ConnectFlow.lasting, timeout] using lasting
      · exact kept
  | mainTake => exact kept_mainTake kept lasting
  | mainWrite accepted =>
      simp only [step]
      split
      · split <;> exact kept_unmarked rfl
      · exact kept
  | mainLeave =>
      simp only [step]
      split
      · exact kept_unmarked rfl
      · exact kept
  | mainReturn =>
      simp only [step]
      split
      · next outcome leaving =>
          refine kept.same ?_ rfl rfl rfl rfl
          cases outcome <;> simp [viaMarker, leaving]
      · exact kept
  | lateWrite accepted =>
      simp only [step]
      split
      · split <;> exact kept.same rfl rfl rfl rfl rfl
      · exact kept
  | fallbackCancel => exact kept_fallbackCancel kept
  | fallbackFire known =>
      simp only [step]
      split
      · exact fun _ _ _ _ => Or.inr ⟨known, rfl⟩
      · exact kept

theorem attemptOver_step (direct : setup.reconnectTimeout = none) (event : FlowEvent) :
    (s.step setup event).attemptOver = s.attemptOver := by
  cases event <;> simp only [step, direct]
  case attemptTimeout => rfl
  all_goals repeat' split
  all_goals rfl

theorem relayKept_direct (direct : setup.reconnectTimeout = none) (events : List FlowEvent) :
    Throughout (step setup) (fun s => s.RelayKept setup) {} events := by
  have kept : Throughout (step setup) (fun s => s.attemptOver = false ∧ s.RelayKept setup) {} events := by
    apply throughout_invariant
    · exact ⟨rfl, kept_unmarked rfl⟩
    · rintro s event ⟨lasts, kept⟩
      constructor
      · rw [attemptOver_step direct]
        exact lasts
      · apply kept_step kept event
        cases event <;> simp [lasting, direct, lasts]
  exact throughout_mono _ events kept fun s both => both.2

end Relay

/-- In every run in which a marker is taken only when the punch is over, and the attempt outlasts the
relay fallback, what the call leaves running is not cut off. -/
theorem continuations_outlive (setup : ConnectSetup) (events : List FlowEvent)
    (ended : Along (step setup) (fun s event => s.overBefore event = true) {} events)
    (lasting : Along (step setup) (fun s event => s.lasting setup event = true) {} events) :
    Throughout (step setup) (fun s => s.Outlives setup) {} events := by
  have kept : Throughout (step setup) (fun s => s.PunchGone ∧ s.RelayKept setup) {} events := by
    apply throughout_keeps _ events _ (along_and _ _ ended lasting)
    · rintro s event ⟨gone, kept⟩ ⟨before, lasts⟩
      exact ⟨gone_step gone event before, kept_step kept event lasts⟩
    · exact ⟨gone_unmarked rfl rfl, kept_unmarked rfl⟩
  exact throughout_mono _ events kept fun s both => outlives_of_kept both.1 both.2

namespace Marker

def direct : ConnectSetup := ⟨5 * second, true, none⟩

def fromLoop : ConnectSetup := ⟨5 * second, true, some (30 * second)⟩

def punchedBefore : List FlowEvent :=
  [.establish .dialed, .offer .dialed, .punchTake, .giveUp .accepted, .tick (2 * second), .markerTimeout,
    .markerSend, .workerSend, .mainTake, .mainReturn, .lateTake, .lateWrite true, .tick (5 * second),
    .fallbackFire false]

theorem punched_before_outlive :
    Along (step direct) (fun s event => s.overBefore event = true) {} punchedBefore ∧
      Along (step direct) (fun s event => s.lasting direct event = true) {} punchedBefore ∧
      Throughout (step direct) (fun s => s.Outlives direct) {} punchedBefore :=
  ⟨by decide, by decide, continuations_outlive direct punchedBefore (by decide) (by decide)⟩

/-- The marker arrives while the TCP worker is in `Punch`, and the call returns. -/
def marked : List FlowEvent :=
  [.tick (2 * second), .markerTimeout, .markerSend, .mainTake, .mainReturn]

def dialedLate : List FlowEvent :=
  marked ++ [.tick second, .establish .dialed, .closeHeld .dialed, .giveUp .accepted, .punchFail,
    .workerSend, .lateTake, .tick (9 * second), .lateLeave]

/-- `reconnectLoop` cancels the attempt as soon as the call has returned. -/
def loopReturns : List FlowEvent := marked ++ [.loopCancel, .fallbackCancel, .tick (5 * second)]

theorem continuations_cut_off :
    (let s := run (step direct) {} marked
     s.viaMarker = true ∧ s.closing = false ∧ s.appCancelled = false ∧ s.tcpWorker = .punching ∧
      s.now < s.lateDeadline ∧ s.tcpDone = true ∧ ¬ s.Outlives direct) ∧
    (let s := run (step direct) {} dialedLate
     s.viaMarker = true ∧ s.closing = false ∧ s.appCancelled = false ∧ s.establishedLate = [.dialed] ∧
      s.late = .finished ∧ s.handed = [] ∧ s.closed = [.dialed]) ∧
    (let s := run (step fromLoop) {} loopReturns
     s.viaMarker = true ∧ s.closing = false ∧ s.appCancelled = false ∧
      s.fallbackDeadline ≤ s.now ∧ s.fallback = .cancelled) := by
  refine ⟨?_, by decide, by decide⟩
  refine ⟨by decide, by decide, by decide, by decide, by decide, by decide, fun outlives => ?_⟩
  have running := (outlives (by decide) (by decide) (by decide)).worker (by decide) (by decide)
  revert running
  decide

end Marker

end ConnectFlow

end Tenet
