import BoundedResources.Pool.Pool

/-!
# Dialers

A dialer opens the connections of one pool and knows which of them are healthy. It follows a
script: each dial takes the next plan from it, which says how the dial will go, and once the
script has run out every dial succeeds at once. Connections are healthy until they fall sick.
-/

set_option autoImplicit false

namespace BoundedResources

/-- How a dial will go. -/
structure DialPlan where
  /-- Whether it waits until it is let through. -/
  gated : Bool
  /-- How long it takes, if it takes any time. -/
  delay : Option Duration
  /-- Why it fails, if it does. -/
  failure : Option String
  /-- Whether its connection is sick from the start. -/
  sick : Bool

/-- A dial that succeeds at once. -/
def DialPlan.plain : DialPlan := ⟨false, none, none, false⟩

/-- How a dial has ended. -/
inductive DialOutcome where
  /-- A connection was opened, perhaps a sick one. -/
  | opened (sick : Bool)
  | failed (cause : String)
  | timedOut
deriving DecidableEq

/-- How a dial ends that goes on at `now`, and when: a delay as long as the timeout makes it time
out, at its deadline. -/
def DialPlan.outcome (plan : DialPlan) (timeout : Duration) (now deadline : Nat) :
    DialOutcome × Nat :=
  let ending := match plan.failure with
    | some cause => DialOutcome.failed cause
    | none => .opened plan.sick
  match plan.delay with
  | none => (ending, now)
  | some d =>
    if timeout.nanos ≤ d.nanos then (.timedOut, max now deadline) else (ending, now + d.nanos)

/-- What opens the connections of a pool. -/
structure Dialer where
  /-- The plans for the next dials. -/
  script : List DialPlan
  /-- How many dials were begun. -/
  begun : Nat
  /-- How many connections were opened. -/
  made : Nat
  /-- The numbers of the connections that are not healthy. -/
  sick : List Nat

namespace Dialer

/-- A dialer that has not dialed yet. -/
def fresh (script : List DialPlan) : Dialer := ⟨script, 0, 0, []⟩

/-- Whether a connection is healthy. -/
def healthy (d : Dialer) (conn : Connection) : Bool := !d.sick.contains conn.number

/-- Begins a dial and tells its plan. -/
def begin (d : Dialer) : DialPlan × Dialer :=
  let d := { d with begun := d.begun + 1 }
  match d.script with
  | [] => (.plain, d)
  | plan :: rest => (plan, { d with script := rest })

theorem begun_begin (d : Dialer) : d.begin.2.begun = d.begun + 1 := by
  unfold begin
  cases d.script <;> rfl

theorem made_begin (d : Dialer) : d.begin.2.made = d.made := by
  unfold begin
  cases d.script <;> rfl

/-- Ends a dial, with a new connection if one was opened. -/
def conclude (d : Dialer) (config : PoolConfig) (outcome : DialOutcome) :
    Except PoolError Connection × Dialer :=
  match outcome with
  | .opened sick =>
    let number := d.made + 1
    (.ok ⟨number, ""⟩,
      { d with made := number, sick := if sick then number :: d.sick else d.sick })
  | .failed cause => (.error (.dial config.target cause), d)
  | .timedOut => (.error (.dialTimeout config.target config.connectTimeout), d)

/-- Makes one connection healthy or sick, or all that were opened so far. A connection can be made
sick before it is opened. -/
def setHealth (d : Dialer) (number : Option Nat) (ok : Bool) : Dialer :=
  let numbers := match number with
    | some n => [n]
    | none => List.range' 1 d.made
  let others := d.sick.filter fun n => !numbers.contains n
  { d with sick := if ok then others else others ++ numbers }

end Dialer

end BoundedResources
