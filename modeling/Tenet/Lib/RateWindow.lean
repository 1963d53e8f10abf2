import Mathlib.Data.List.Count
import Mathlib.Order.Basic

/-! A rate limiter with fixed windows that are opened by the requests themselves: how many requests it
admits in a stretch of time. -/

namespace Lib.RateWindow

structure Window where
  start : Option Int := none
  count : Nat := 0
  deriving DecidableEq, Repr

variable (length limit : Int)

def Window.reopen (w : Window) (now : Int) : Window :=
  match w.start with
  | some start => if now - start ≥ length then { start := some now, count := 0 } else w
  | none => { start := some now, count := 0 }

/-- The window after a request at `now`, and whether the request is admitted. -/
def Window.request (w : Window) (now : Int) : Window × Bool :=
  let opened := w.reopen length now
  if (opened.count : Int) ≥ limit then (opened, false)
  else ({ opened with count := opened.count + 1 }, true)

def after (w : Window) (requests : List Int) : Window :=
  requests.foldl (fun w now => (w.request length limit now).1) w

/-- The times of the requests that are admitted. -/
def admitted : Window → List Int → List Int
  | _, [] => []
  | w, now :: rest =>
      (if (w.request length limit now).2 then [now] else []) ++
        admitted (w.request length limit now).1 rest

variable {limit}

variable {length}

section OneWindow

end OneWindow

section Stretch

/-- How much the limiter can still admit in the stretch: the rest of the window it is in and all of
the next one, unless the window outlasts the stretch. -/
def room (length limit first : Int) (w : Window) : Int :=
  match w.start with
  | none => 2 * limit
  | some start =>
      if start + length ≤ first then 2 * limit
      else if start ≤ first then limit - w.count + limit
      else limit - w.count

end Stretch

end Lib.RateWindow
