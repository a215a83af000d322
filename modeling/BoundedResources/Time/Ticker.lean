import BoundedResources.Time.Clock

/-!
# Periodic tickers

A ticker is due once per period, first one period after it is made. A tick that is handled
more than five milliseconds late skips the grid points that have passed and is next due at
the first one still to come; a tick handled in time keeps its place, and may be due again at
once. So a handled tick always moves the due time forward (`due_lt_due_handle`), which is why
catching up ends.
-/

set_option autoImplicit false

namespace BoundedResources

/-- The shortest period of a ticker, one millisecond. -/
def minPeriod : Nat := 1_000_000

/-- How late a tick may be handled without skipping grid points, five milliseconds. -/
def lateness : Nat := 5_000_000

/-- A periodic ticker: its period in nanoseconds and the next moment at which it is due. -/
structure Ticker where
  period : Nat
  due : Nat
  period_pos : 0 < period

namespace Ticker

/-- A ticker made at `now`, with the period raised to the shortest one allowed. -/
def start (now : Nat) (period : Duration) : Ticker where
  period := max period.nanos minPeriod
  due := now + max period.nanos minPeriod
  period_pos := by have : 0 < minPeriod := by decide
                   omega

/-- One tick is handled at `now`. -/
def handle (t : Ticker) (now : Nat) : Ticker :=
  if lateness < now - t.due then
    { t with due := now + t.period - (now - t.due) % t.period }
  else
    { t with due := t.due + t.period }

theorem due_lt_due_handle (t : Ticker) (now : Nat) : t.due < (t.handle now).due := by
  have hp := t.period_pos
  unfold handle
  split
  · have := Nat.mod_lt (now - t.due) hp
    have : 0 < lateness := by decide
    show t.due < now + t.period - (now - t.due) % t.period
    omega
  · show t.due < t.due + t.period
    omega

/-- Handles every tick that is due at `now`; the answer also counts them. -/
def catchUp (t : Ticker) (now : Nat) : Nat × Ticker :=
  if t.due ≤ now then
    let (n, t') := (t.handle now).catchUp now
    (n + 1, t')
  else (0, t)
termination_by now + 1 - t.due
decreasing_by
  have := due_lt_due_handle t now
  omega

end Ticker

end BoundedResources
