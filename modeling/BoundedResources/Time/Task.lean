import BoundedResources.Time.Ticker

/-!
# Background tasks

A task runs until it is cancelled. `Task.periodic` counts the ticks of a ticker and ends early
if one of its ticks fails; `Task.untilCancelled` waits for cancellation and then finishes some
remaining work before it is done. Cancelling is final: a stopped task never counts again.
-/

set_option autoImplicit false

namespace BoundedResources

/-- A background task that is still running. -/
inductive Task where
  /-- Counts ticks; the tick with the number `failsAt` fails, which ends the task. -/
  | periodic (ticker : Ticker) (failsAt : Option Nat)
  /-- Waits for cancellation, then takes `after` further steps, each of them counted. -/
  | untilCancelled (after : Nat)

/-- A task, if it is still running, with what it has counted so far. -/
structure TaskRecord where
  task : Option Task
  count : Nat
  done : Nat

namespace TaskRecord

/-- A task that has just been started. -/
def start (t : Task) : TaskRecord := ⟨some t, 0, 0⟩

/-- Runs the ticks that are due at `now`, up to a failing one. -/
def runTicks (count : Nat) (ticker : Ticker) (failsAt : Option Nat) (now : Nat) :
    TaskRecord :=
  if ticker.due ≤ now then
    if failsAt = some (count + 1) then ⟨none, count + 1, 0⟩
    else runTicks (count + 1) (ticker.handle now) failsAt now
  else ⟨some (.periodic ticker failsAt), count, 0⟩
termination_by now + 1 - ticker.due
decreasing_by
  have := Ticker.due_lt_due_handle ticker now
  omega

/-- Runs everything that is due at `now`. -/
def settle (r : TaskRecord) (now : Nat) : TaskRecord :=
  match r.task with
  | some (.periodic ticker failsAt) => runTicks r.count ticker failsAt now
  | _ => r

/-- Cancels the task and lets it finish. -/
def cancel (r : TaskRecord) : TaskRecord :=
  match r.task with
  | some (.untilCancelled after) => ⟨none, r.count + after, r.done + 1⟩
  | _ => { r with task := none }

end TaskRecord

end BoundedResources
