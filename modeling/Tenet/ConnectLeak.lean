import Tenet.ConnectFlow

/-! What becomes of the TCP connections of one connect. -/

namespace Tenet

open Lib Run

def TCPWorkerPhase.carried : TCPWorkerPhase → List PunchConn
  | .sending (some conn) => [conn]
  | _ => []

def AwaitPhase.carried : AwaitPhase → List PunchConn
  | .writing conn => [conn]
  | _ => []

def LatePhase.carried : LatePhase → List PunchConn
  | .writing conn => [conn]
  | _ => []

def ConnectResult.conn : ConnectResult → Option PunchConn
  | .tcp conn => conn
  | .udp => none

namespace ConnectFlow

variable (setup : ConnectSetup) (s : ConnectFlow)

def posted : List PunchConn := s.resultCh.filterMap ConnectResult.conn

def punched : List PunchConn :=
  s.tcpWorker.carried ++ s.posted ++ s.main.carried ++ s.late.carried ++ s.handed

/-- How often a connection is in the hands of a goroutine of `Punch` or in `resultChan`. -/
def unpunched (conn : PunchConn) : Nat :=
  (if s.puncher conn = .holding then 1 else 0) + s.resultChan.count conn

/-- Every connection that was established is in one place: it is held, in a channel, handed to
`handleTCP` or closed. `Punch` returns one at most. -/
structure Accounted : Prop where
  places : ∀ conn, s.established.count conn =
    s.unpunched conn + s.punched.count conn + s.closed.count conn
  fresh : ∀ conn, s.puncher conn = .working → s.established.count conn = 0
  once : ∀ conn, s.established.count conn ≤ 1
  none_yet : s.tcpWorker = .punching → s.punched = []
  one : s.punched.length ≤ 1
  success : s.main = .leaving .tcp ∨ s.main = .returned .tcp → s.handed.length = 1
  waiting : s.main = .awaiting → s.late = .idle

variable {s}

theorem count_punched (conn : PunchConn) : s.punched.count conn =
    s.tcpWorker.carried.count conn + s.posted.count conn + s.main.carried.count conn +
      s.late.carried.count conn + s.handed.count conn := by
  simp only [punched, List.count_append]

theorem length_punched : s.punched.length =
    s.tcpWorker.carried.length + s.posted.length + s.main.carried.length + s.late.carried.length +
      s.handed.length := by
  simp only [punched, List.length_append]

theorem Accounted.moved {t : ConnectFlow} (accounted : s.Accounted) (puncher : t.puncher = s.puncher)
    (resultChan : t.resultChan = s.resultChan) (established : t.established = s.established)
    (closed : t.closed = s.closed) (punched : ∀ conn, t.punched.count conn = s.punched.count conn)
    (returned : t.tcpWorker = .punching → s.tcpWorker = .punching)
    (success : t.main = .leaving .tcp ∨ t.main = .returned .tcp → t.handed.length = 1)
    (waiting : t.main = .awaiting → t.late = .idle) : t.Accounted where
  places conn := by
    rw [established, closed, punched, unpunched, puncher, resultChan]
    exact accounted.places conn
  fresh conn working := by
    rw [established]
    exact accounted.fresh conn (puncher ▸ working)
  once conn := by
    rw [established]
    exact accounted.once conn
  none_yet punching := by
    have same := List.perm_iff_count.mpr punched
    rw [accounted.none_yet (returned punching)] at same
    exact same.eq_nil
  one := by
    rw [(List.perm_iff_count.mpr punched).length_eq]
    exact accounted.one
  success := success
  waiting := waiting

theorem Accounted.dropped {t : ConnectFlow} (accounted : s.Accounted) (conn : PunchConn)
    (puncher : t.puncher = s.puncher) (resultChan : t.resultChan = s.resultChan)
    (established : t.established = s.established) (closed : t.closed = conn :: s.closed)
    (punched : ∀ other, (conn :: t.punched).count other = s.punched.count other)
    (returned : t.tcpWorker = s.tcpWorker)
    (success : t.main = .leaving .tcp ∨ t.main = .returned .tcp → t.handed.length = 1)
    (waiting : t.main = .awaiting → t.late = .idle) : t.Accounted where
  places other := by
    have before := accounted.places other
    rw [← punched, List.count_cons] at before
    rw [established, closed, unpunched, puncher, resultChan, List.count_cons, before, unpunched]
    omega
  fresh other working := by
    rw [established]
    exact accounted.fresh other (puncher ▸ working)
  once other := by
    rw [established]
    exact accounted.once other
  none_yet punching := by
    have same := List.perm_iff_count.mpr punched
    rw [accounted.none_yet (returned ▸ punching)] at same
    cases same.eq_nil
  one := by
    have one := accounted.one
    rw [← (List.perm_iff_count.mpr punched).length_eq, List.length_cons] at one
    omega
  success := success
  waiting := waiting

theorem Accounted.puncherStep {t : ConnectFlow} (accounted : s.Accounted)
    (places : ∀ conn, t.established.count conn + (s.unpunched conn + s.closed.count conn) =
      s.established.count conn + (t.unpunched conn + t.closed.count conn))
    (fresh : ∀ conn, t.puncher conn = .working → t.established.count conn = 0)
    (once : ∀ conn, t.established.count conn ≤ 1) (punched : t.punched = s.punched)
    (tcpWorker : t.tcpWorker = s.tcpWorker) (main : t.main = s.main) (late : t.late = s.late)
    (handed : t.handed = s.handed) : t.Accounted where
  places conn := by
    have before := accounted.places conn
    have now := places conn
    rw [punched]
    omega
  fresh := fresh
  once := once
  none_yet punching := by
    rw [punched]
    exact accounted.none_yet (tcpWorker ▸ punching)
  one := by
    rw [punched]
    exact accounted.one
  success := by
    rw [main, handed]
    exact accounted.success
  waiting := by
    rw [main, late]
    exact accounted.waiting

theorem Accounted.unmoved {t : ConnectFlow} (accounted : s.Accounted) (puncher : t.puncher = s.puncher)
    (resultChan : t.resultChan = s.resultChan) (established : t.established = s.established)
    (closed : t.closed = s.closed) (tcpWorker : t.tcpWorker = s.tcpWorker)
    (posted : t.posted = s.posted) (main : t.main = s.main) (late : t.late = s.late)
    (handed : t.handed = s.handed) : t.Accounted := by
  have punched : t.punched = s.punched := by
    rw [ConnectFlow.punched, tcpWorker, posted, main, late, handed]
    rfl
  refine accounted.moved puncher resultChan established closed (fun _ => by rw [punched]) ?_ ?_ ?_
  · rw [tcpWorker]
    exact id
  · rw [main, handed]
    exact accounted.success
  · rw [main, late]
    exact accounted.waiting

theorem Accounted.handed_nil (accounted : s.Accounted) {conn : PunchConn}
    (carries : s.main = .writing conn) : s.handed = [] := by
  have one := accounted.one
  rw [length_punched, carries] at one
  exact List.length_eq_zero_iff.mp (by simp only [AwaitPhase.carried, List.length_singleton] at one; omega)

theorem Accounted.posted_nil (accounted : s.Accounted)
    (carries : 1 ≤ s.main.carried.length + s.late.carried.length) : s.posted = [] := by
  have one := accounted.one
  rw [length_punched] at one
  exact List.length_eq_zero_iff.mp (by omega)

theorem Accounted.posted_rest (accounted : s.Accounted) {conn : PunchConn} {rest : List ConnectResult}
    (results : s.resultCh = .tcp (some conn) :: rest) : rest.filterMap ConnectResult.conn = [] := by
  have posted : s.posted = conn :: rest.filterMap ConnectResult.conn := by
    simp only [ConnectFlow.posted, results, List.filterMap_cons, ConnectResult.conn]
  have one := accounted.one
  rw [length_punched, posted, List.length_cons] at one
  exact List.length_eq_zero_iff.mp (by omega)

theorem Accounted.not_awaiting (accounted : s.Accounted) (armed : s.late ≠ .idle) :
    s.main ≠ .awaiting :=
  fun awaiting => armed (accounted.waiting awaiting)

theorem posted_cons {result : ConnectResult} {rest : List ConnectResult}
    (empty : ∀ conn, result = .tcp (some conn) → False) (results : s.resultCh = result :: rest) :
    s.posted = rest.filterMap ConnectResult.conn := by
  have none : result.conn = none := by
    cases result with
    | tcp conn =>
        cases conn with
        | none => rfl
        | some conn => exact (empty conn rfl).elim
    | udp => rfl
  simp only [posted, results, List.filterMap_cons, none]

theorem accounted_mainTake (accounted : s.Accounted) : (s.step setup .mainTake).Accounted := by
  simp only [step]
  split
  · next conn rest main results =>
      refine accounted.moved rfl rfl rfl rfl ?_ id (by simp) (by simp)
      intro other
      simp only [count_punched, posted, results, main, AwaitPhase.carried, List.filterMap_cons,
        ConnectResult.conn, List.count_cons, List.count_nil]
      omega
  · next rest main results =>
      refine accounted.unmoved rfl rfl rfl rfl rfl ?_ rfl rfl rfl
      simp only [posted, results, List.filterMap_cons, ConnectResult.conn]
  · next rest main results =>
      refine accounted.moved rfl rfl rfl rfl ?_ id (by simp) (by simp)
      intro other
      simp only [count_punched, posted, results, main, AwaitPhase.carried, accounted.waiting main,
        LatePhase.carried, List.filterMap_cons, ConnectResult.conn]
  · exact accounted

theorem accounted_lateTake (accounted : s.Accounted) : (s.step setup .lateTake).Accounted := by
  simp only [step]
  split
  · next conn rest late results =>
      have armed := accounted.not_awaiting (by simp [late])
      refine accounted.moved rfl rfl rfl rfl ?_ id accounted.success (absurd · armed)
      intro other
      simp only [count_punched, posted, results, late, LatePhase.carried, List.filterMap_cons,
        ConnectResult.conn, List.count_cons, List.count_nil]
      omega
  · next result rest other late results =>
      refine accounted.unmoved rfl rfl rfl rfl rfl ?_ rfl rfl rfl
      exact (posted_cons other results).symm
  · exact accounted

theorem accounted_mainWrite (accounted : s.Accounted) (accepted : Bool) :
    (s.step setup (.mainWrite accepted)).Accounted := by
  simp only [step]
  split
  · next conn main =>
      split
      · refine accounted.moved rfl rfl rfl rfl ?_ id ?_ (by simp)
        · intro other
          simp only [count_punched, posted, main, AwaitPhase.carried, List.count_cons, List.count_nil]
          omega
        · intro _
          rw [accounted.handed_nil main]
          rfl
      · refine accounted.dropped conn rfl rfl rfl rfl ?_ rfl (by simp) (by simp)
        intro other
        simp only [List.count_cons, count_punched, posted, main, AwaitPhase.carried, List.count_nil]
        omega
  · exact accounted

theorem accounted_lateWrite (accounted : s.Accounted) (accepted : Bool) :
    (s.step setup (.lateWrite accepted)).Accounted := by
  simp only [step]
  split
  · next conn late =>
      have armed := accounted.not_awaiting (by simp [late])
      split
      · refine accounted.moved rfl rfl rfl rfl ?_ id ?_ (absurd · armed)
        · intro other
          simp only [count_punched, posted, late, LatePhase.carried, List.count_cons, List.count_nil]
          omega
        · intro succeeded
          have handed := accounted.success succeeded
          have one := accounted.one
          rw [length_punched, late] at one
          simp only [LatePhase.carried, List.length_singleton] at one
          omega
      · refine accounted.dropped conn rfl rfl rfl rfl ?_ rfl accounted.success
          (absurd · armed)
        intro other
        simp only [List.count_cons, count_punched, posted, late, LatePhase.carried, List.count_nil]
        omega
  · exact accounted

theorem accounted_establish (accounted : s.Accounted) (conn : PunchConn) :
    (s.step setup (.establish conn)).Accounted := by
  simp only [step]
  split
  · next working =>
      have new := accounted.fresh conn working
      refine accounted.puncherStep ?_ ?_ ?_ rfl rfl rfl rfl rfl
      · intro other
        by_cases same : other = conn
        · subst same
          simp only [unpunched, setPuncher, working, List.count_cons_self, if_true, reduceCtorEq,
            if_false]
          omega
        · simp only [unpunched, setPuncher, same, if_false, List.count_cons_of_ne (Ne.symm same)]
      · intro other phase
        by_cases same : other = conn
        · simp [setPuncher, same] at phase
        · rw [List.count_cons_of_ne (Ne.symm same)]
          exact accounted.fresh other (by simpa [setPuncher, same] using phase)
      · intro other
        by_cases same : other = conn
        · rw [same, List.count_cons_self]
          omega
        · rw [List.count_cons_of_ne (Ne.symm same)]
          exact accounted.once other
  · exact accounted

theorem accounted_puncherEnds {t : ConnectFlow} (accounted : s.Accounted) (conn : PunchConn)
    (puncher : t.puncher = s.setPuncher conn .finished)
    (established : t.established = s.established)
    (place : ∀ other, t.resultChan.count other + t.closed.count other =
      s.resultChan.count other + s.closed.count other +
        if conn = other ∧ s.puncher conn = .holding then 1 else 0)
    (punched : t.punched = s.punched) (tcpWorker : t.tcpWorker = s.tcpWorker)
    (main : t.main = s.main) (late : t.late = s.late) (handed : t.handed = s.handed) :
    t.Accounted := by
  refine accounted.puncherStep ?_ ?_ ?_ punched tcpWorker main late handed
  · intro other
    have moves := place other
    by_cases same : other = conn
    · subst same
      simp only [true_and] at moves
      simp only [unpunched, puncher, setPuncher, established, if_true, reduceCtorEq, if_false]
      omega
    · simp only [Ne.symm same, false_and, if_false] at moves
      simp only [unpunched, puncher, setPuncher, established, same, if_false]
      omega
  · intro other working
    rw [established]
    by_cases same : other = conn
    · simp [puncher, setPuncher, same] at working
    · exact accounted.fresh other (by simpa [puncher, setPuncher, same] using working)
  · rw [established]
    exact accounted.once

theorem accounted_punchTake (accounted : s.Accounted) : (s.step setup .punchTake).Accounted := by
  simp only [step]
  split
  · next conn rest punching queued =>
      have punched : ({ s with tcpWorker := .sending (some conn), resultChan := rest } :
          ConnectFlow).punched = conn :: s.punched := by
        simp only [ConnectFlow.punched, punching, TCPWorkerPhase.carried]
        rfl
      constructor
      · intro other
        have before := accounted.places other
        simp only [unpunched, queued, List.count_cons] at before
        simp only [punched, unpunched, List.count_cons]
        omega
      · exact accounted.fresh
      · exact accounted.once
      · intro returned
        cases returned
      · rw [punched, accounted.none_yet punching]
        exact Nat.le_refl 1
      · exact accounted.success
      · exact accounted.waiting
  · exact accounted

theorem accounted_workerSend (accounted : s.Accounted) : (s.step setup .workerSend).Accounted := by
  simp only [step]
  split
  · next conn sending =>
      refine accounted.moved rfl rfl rfl rfl ?_ (fun returned => by cases returned)
        accounted.success accounted.waiting
      intro other
      simp only [count_punched, posted, sending, List.filterMap_append, List.count_append]
      cases conn <;>
        simp only [TCPWorkerPhase.carried, List.filterMap_cons, ConnectResult.conn,
          List.filterMap_nil, List.count_nil] <;>
        omega
  · exact accounted

theorem accounted_step (accounted : s.Accounted) (event : FlowEvent) :
    (s.step setup event).Accounted := by
  cases event with
  | tick | appCancel | close => exact accounted.unmoved rfl rfl rfl rfl rfl rfl rfl rfl rfl
  | attemptTimeout | loopCancel | closingSeen | markerTimeout | udpStop | fallbackCancel
  | fallbackFire =>
      simp only [step]
      split <;> exact accounted.unmoved rfl rfl rfl rfl rfl rfl rfl rfl rfl
  | establish conn => exact accounted_establish setup accounted conn
  | giveUp conn =>
      simp only [step]
      split
      · next working =>
          refine accounted_puncherEnds accounted conn rfl rfl (fun other => ?_) rfl rfl rfl rfl rfl
          simp [working.1]
      · exact accounted
  | offer conn =>
      simp only [step]
      split
      · next holding =>
          refine accounted_puncherEnds accounted conn rfl rfl (fun other => ?_) rfl rfl rfl rfl rfl
          simp only [List.count_append, holding.1, and_true, List.count_singleton, beq_iff_eq]
          omega
      · exact accounted
  | closeHeld conn =>
      simp only [step]
      split
      · next holding =>
          refine accounted_puncherEnds accounted conn rfl rfl (fun other => ?_) rfl rfl rfl rfl rfl
          simp only [List.count_cons, holding.1, and_true, beq_iff_eq]
          omega
      · exact accounted
  | punchTake => exact accounted_punchTake setup accounted
  | punchFail =>
      simp only [step]
      split
      · next punching =>
          refine accounted.moved rfl rfl rfl rfl ?_ (fun returned => by cases returned)
            accounted.success accounted.waiting
          intro other
          simp only [count_punched, posted, punching.1, TCPWorkerPhase.carried]
      · exact accounted
  | workerSend => exact accounted_workerSend setup accounted
  | markerSend =>
      simp only [step]
      split
      · refine accounted.unmoved rfl rfl rfl rfl rfl ?_ rfl rfl rfl
        simp [posted, ConnectResult.conn]
      · exact accounted
  | mainTake => exact accounted_mainTake setup accounted
  | mainWrite accepted => exact accounted_mainWrite setup accounted accepted
  | mainLeave =>
      simp only [step]
      split
      · next awaiting =>
          refine accounted.moved rfl rfl rfl rfl ?_ id (by simp) (by simp)
          intro other
          simp only [count_punched, posted, awaiting.1, AwaitPhase.carried]
      · exact accounted
  | mainReturn =>
      simp only [step]
      split
      · next outcome leaving =>
          refine accounted.moved rfl rfl rfl rfl ?_ id ?_ (by simp)
          · intro other
            simp only [count_punched, posted, leaving, AwaitPhase.carried]
          · intro succeeded
            apply accounted.success
            simpa [leaving] using succeeded
      · exact accounted
  | lateTake => exact accounted_lateTake setup accounted
  | lateWrite accepted => exact accounted_lateWrite setup accounted accepted
  | lateLeave =>
      simp only [step]
      split
      · next awaiting =>
          have armed := accounted.not_awaiting (by simp [awaiting.1])
          refine accounted.moved rfl rfl rfl rfl ?_ id accounted.success (absurd · armed)
          intro other
          simp only [count_punched, posted, awaiting.1, LatePhase.carried]
      · exact accounted

structure Finished (s : ConnectFlow) : Prop where
  punchers : ∀ conn, s.puncher conn = .finished
  tcpWorker : s.tcpWorker = .finished
  udpWorker : s.udpWorker = .finished
  main : ∃ outcome, s.main = .returned outcome
  late : s.late = .idle ∨ s.late = .finished

/-- No connection is left in a channel: each was either handed to `handleTCP` or closed, and one was
handed where the connect succeeded over TCP. -/
structure Settled (s : ConnectFlow) : Prop where
  resultChan : s.resultChan = []
  resultCh : s.posted = []
  each : ∀ conn ∈ s.established, (conn ∈ s.handed ∧ conn ∉ s.closed) ∨ (conn ∈ s.closed ∧ conn ∉ s.handed)
  handed : s.handed.length ≤ 1
  success : s.main = .returned .tcp → s.handed.length = 1

/-- A goroutine of `Punch` sends its connection only while `Punch` waits for it, and `Punch` returns
leaving none behind; the TCP worker sends a connection only while somebody waits for it, and the last
to wait leaves none behind. -/
def tidy (s : ConnectFlow) : FlowEvent → Bool
  | .offer _ => decide (s.tcpWorker = .punching)
  | .punchTake => decide (s.resultChan.length ≤ 1)
  | .punchFail => decide (s.resultChan = [])
  | .workerSend =>
      decide (s.tcpWorker.carried = []) || decide (s.main = .awaiting) || decide (s.late = .awaiting)
  | .mainLeave => decide (s.posted = [])
  | .lateLeave => decide (s.posted = [])
  | _ => true

structure Attended (s : ConnectFlow) : Prop where
  resultChan : s.resultChan ≠ [] → s.tcpWorker = .punching
  resultCh : s.posted ≠ [] → s.main = .awaiting ∨ s.late = .awaiting

theorem Attended.same {t : ConnectFlow} (attended : s.Attended) (resultChan : t.resultChan = s.resultChan)
    (tcpWorker : t.tcpWorker = s.tcpWorker) (posted : t.posted = s.posted) (main : t.main = s.main)
    (late : t.late = s.late) : t.Attended where
  resultChan := by
    rw [resultChan, tcpWorker]
    exact attended.resultChan
  resultCh := by
    rw [posted, main, late]
    exact attended.resultCh

theorem attended_punchTake (attended : s.Attended) (tidy : s.tidy .punchTake = true) :
    (s.step setup .punchTake).Attended := by
  simp only [step]
  split
  · next conn rest punching queued =>
      refine ⟨fun left => ?_, attended.resultCh⟩
      have short := of_decide_eq_true tidy
      rw [queued, List.length_cons] at short
      have none_left : rest = [] := List.length_eq_zero_iff.mp (by omega)
      exact absurd none_left left
  · exact attended

theorem attended_workerSend (attended : s.Attended) (tidy : s.tidy .workerSend = true) :
    (s.step setup .workerSend).Attended := by
  simp only [step]
  split
  · next conn sending =>
      constructor
      · intro left
        have punching := attended.resultChan left
        rw [sending] at punching
        cases punching
      · intro left
        cases conn with
        | none => exact attended.resultCh (by simpa [posted, ConnectResult.conn] using left)
        | some conn => simpa [ConnectFlow.tidy, sending, TCPWorkerPhase.carried] using tidy
  · exact attended

theorem attended_mainTake (accounted : s.Accounted) (attended : s.Attended) :
    (s.step setup .mainTake).Attended := by
  simp only [step]
  split
  · next conn rest main results =>
      exact ⟨attended.resultChan, fun left => absurd (accounted.posted_rest results) left⟩
  · next rest main results =>
      refine attended.same rfl rfl ?_ rfl rfl
      simp only [posted, results, List.filterMap_cons, ConnectResult.conn]
  · exact ⟨attended.resultChan, fun _ => Or.inr rfl⟩
  · exact attended

theorem attended_lateTake (accounted : s.Accounted) (attended : s.Attended) :
    (s.step setup .lateTake).Attended := by
  simp only [step]
  split
  · next conn rest late results =>
      exact ⟨attended.resultChan, fun left => absurd (accounted.posted_rest results) left⟩
  · next result rest other late results =>
      refine attended.same rfl rfl ?_ rfl rfl
      exact (posted_cons other results).symm
  · exact attended

theorem attended_step (accounted : s.Accounted) (attended : s.Attended) (event : FlowEvent)
    (tidy : s.tidy event = true) : (s.step setup event).Attended := by
  -- a step after which `resultCh` holds no connection
  have emptied {t : ConnectFlow} (resultChan : t.resultChan = s.resultChan)
      (tcpWorker : t.tcpWorker = s.tcpWorker) (posted : t.posted = s.posted) (empty : s.posted = []) :
      t.Attended := by
    refine ⟨?_, fun left => absurd (posted.trans empty) left⟩
    rw [resultChan, tcpWorker]
    exact attended.resultChan
  cases event with
  | tick | appCancel | close => exact attended.same rfl rfl rfl rfl rfl
  | attemptTimeout | loopCancel | closingSeen | markerTimeout | udpStop | fallbackCancel
  | fallbackFire | establish | giveUp | closeHeld =>
      simp only [step]
      split <;> exact attended.same rfl rfl rfl rfl rfl
  | offer conn =>
      simp only [step]
      split
      · exact ⟨fun _ => of_decide_eq_true tidy, attended.resultCh⟩
      · exact attended
  | punchTake => exact attended_punchTake setup attended tidy
  | punchFail =>
      simp only [step]
      split
      · exact ⟨fun left => absurd (of_decide_eq_true tidy) left, attended.resultCh⟩
      · exact attended
  | workerSend => exact attended_workerSend setup attended tidy
  | markerSend =>
      simp only [step]
      split
      · refine attended.same rfl rfl ?_ rfl rfl
        simp [posted, ConnectResult.conn]
      · exact attended
  | mainTake => exact attended_mainTake setup accounted attended
  | mainWrite accepted =>
      simp only [step]
      split
      · next conn main =>
          have empty := accounted.posted_nil (by rw [main]; exact Nat.le_add_right 1 _)
          split <;> exact emptied rfl rfl rfl empty
      · exact attended
  | mainLeave | lateLeave =>
      simp only [step]
      split
      · exact emptied rfl rfl rfl (of_decide_eq_true tidy)
      · exact attended
  | mainReturn =>
      simp only [step]
      split
      · next outcome leaving =>
          refine ⟨attended.resultChan, fun left => ?_⟩
          rcases attended.resultCh left with awaiting | late
          · rw [leaving] at awaiting
            cases awaiting
          · exact Or.inr late
      · exact attended
  | lateTake => exact attended_lateTake setup accounted attended
  | lateWrite accepted =>
      simp only [step]
      split
      · next conn late =>
          have empty := accounted.posted_nil (by rw [late]; exact Nat.le_add_left 1 _)
          split <;> exact emptied rfl rfl rfl empty
      · exact attended

theorem settled_of_finished (accounted : s.Accounted) (attended : s.Attended)
    (finished : s.Finished) : s.Settled := by
  obtain ⟨outcome, main⟩ := finished.main
  have queue : s.resultChan = [] := by
    by_contra left
    have punching := attended.resultChan left
    rw [finished.tcpWorker] at punching
    cases punching
  have posted : s.posted = [] := by
    by_contra left
    rcases attended.resultCh left with awaiting | awaiting
    · rw [main] at awaiting
      cases awaiting
    · rcases finished.late with late | late <;> rw [late] at awaiting <;> cases awaiting
  have carried : s.late.carried = [] := by
    rcases finished.late with late | late <;> rw [late] <;> rfl
  have places (conn : PunchConn) :
      s.established.count conn = s.handed.count conn + s.closed.count conn := by
    rw [accounted.places, count_punched, unpunched, finished.punchers, queue, finished.tcpWorker, posted,
      main, carried]
    simp [TCPWorkerPhase.carried, AwaitPhase.carried]
  constructor
  · exact queue
  · exact posted
  · intro conn member
    have once := accounted.once conn
    have there := List.count_pos_iff.mpr member
    have place := places conn
    rcases Nat.eq_zero_or_pos (s.handed.count conn) with none | some
    · exact Or.inr ⟨List.count_pos_iff.mp (by omega), List.count_eq_zero.mp none⟩
    · exact Or.inl ⟨List.count_pos_iff.mp some, List.count_eq_zero.mp (by omega)⟩
  · have one := accounted.one
    rw [length_punched] at one
    omega
  · intro succeeded
    exact accounted.success (Or.inr succeeded)

theorem accounted_start : ({} : ConnectFlow).Accounted := by
  constructor
  · intro conn
    cases conn <;> rfl
  · intro conn _
    rfl
  · intro conn
    exact Nat.zero_le 1
  · intro _
    rfl
  · exact Nat.zero_le 1
  · rintro (impossible | impossible) <;> cases impossible
  · intro _
    rfl

/-- In every run whose steps are tidy, once all goroutines have finished every connection was handed
to `handleTCP` or closed, and none is left in a channel. -/
theorem connections_settled (setup : ConnectSetup) (events : List FlowEvent)
    (allowed : Along (step setup) (fun s event => s.tidy event = true) {} events) :
    Throughout (step setup) (fun s => s.Finished → s.Settled) {} events := by
  have kept : Throughout (step setup) (fun s => s.Accounted ∧ s.Attended) {} events := by
    apply throughout_keeps _ events _ allowed
    · rintro s event ⟨accounted, attended⟩ tidy
      exact ⟨accounted_step setup accounted event, attended_step setup accounted attended event tidy⟩
    · exact ⟨accounted_start, fun left => absurd rfl left, fun left => absurd rfl left⟩
  apply throughout_mono _ events kept
  rintro s ⟨accounted, attended⟩
  exact settled_of_finished accounted attended

namespace Race

def call : ConnectSetup := ⟨5 * second, true, none⟩

def dialedOnly : List FlowEvent :=
  [.establish .dialed, .offer .dialed, .punchTake, .workerSend, .mainTake, .mainWrite true, .mainReturn,
    .giveUp .accepted, .udpStop]

theorem dialed_only_settled :
    Along (step call) (fun s event => s.tidy event = true) {} dialedOnly ∧
      Throughout (step call) (fun s => s.Finished → s.Settled) {} dialedOnly :=
  ⟨by decide, connections_settled call dialedOnly (by decide)⟩

def bothSucceed : List FlowEvent :=
  [.establish .dialed, .establish .accepted, .offer .dialed, .offer .accepted, .punchTake, .workerSend,
    .mainTake, .mainWrite true, .mainReturn, .udpStop]

def cancelledMeanwhile : List FlowEvent :=
  [.establish .dialed, .offer .dialed, .punchTake, .appCancel, .mainLeave, .mainReturn, .workerSend,
    .giveUp .accepted, .udpStop]

theorem connection_left_in_channel :
    ((run (step call) {} bothSucceed).Finished ∧
      .accepted ∈ (run (step call) {} bothSucceed).established ∧
      .accepted ∉ (run (step call) {} bothSucceed).handed ∧
      .accepted ∉ (run (step call) {} bothSucceed).closed ∧
      (run (step call) {} bothSucceed).resultChan = [.accepted]) ∧
    ((run (step call) {} cancelledMeanwhile).Finished ∧
      (run (step call) {} cancelledMeanwhile).handed = [] ∧
      (run (step call) {} cancelledMeanwhile).closed = [] ∧
      (run (step call) {} cancelledMeanwhile).resultCh = [.tcp (some .dialed)]) := by
  refine ⟨⟨⟨?_, by decide, by decide, ⟨.tcp, by decide⟩, by decide⟩, by decide⟩,
    ⟨?_, by decide, by decide, ⟨.other, by decide⟩, by decide⟩, by decide⟩
  · intro conn
    cases conn <;> decide
  · intro conn
    cases conn <;> decide

end Race

end ConnectFlow

end Tenet
