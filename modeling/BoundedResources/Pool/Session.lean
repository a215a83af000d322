import BoundedResources.Pool.Fleet
import BoundedResources.Table

/-!
# Sessions with pools

A session is a fleet with the clock that its dials move, and the calls that were begun in the
background, by name. A call goes on as far as its dials let it (`proceed`). After every step all
that is due is done (`settle`): the deadlines of waiting dials and the background sweeps, in the
order of their times, each of which may move the clock in turn.
-/

set_option autoImplicit false

namespace BoundedResources

/-- A call that was begun in the background. -/
inductive PoolTask where
  | checkout (call : Nat)
  | checkedOut (call : Nat) (result : Except PoolError Unit)
  | sweep (call : Nat)
  /-- Closing a pool lasts as long as a background sweep of it. -/
  | closing (pool : Nat)
  | cancelledCheckout
  /-- A sweep or a closing that will not go on. -/
  | ended

/-- What there is to tell about a background call. -/
inductive TaskReport where
  | pending
  | checkedOut (result : Except PoolError Handle)
  | cancelled
  | done

/-- A fleet, its clock, and the background calls by name. -/
structure PoolSession where
  now : Nat
  fleet : Fleet
  tasks : Table PoolTask

namespace PoolSession

/-- A session without pools at the start of the clock. -/
def start : PoolSession := ⟨0, .empty, []⟩

/-- The fleet has changed. -/
def withFleet (s : PoolSession) (f : Fleet) : PoolSession := { s with fleet := f }

/-! ## Dials -/

/-- A call of the fleet has come further; the end of a background checkout is noted. -/
def note (s : PoolSession) (id : Nat) (status : CallStatus) : PoolSession :=
  match status with
  | .checkedOut result =>
    { s with
      tasks := s.tasks.map fun p =>
        match p.2 with
        | .checkout call => if call = id then (p.1, .checkedOut id result) else p
        | _ => p }
  | _ => s

/-- The dial of a call ends, at a certain time. -/
def endDial (s : PoolSession) (id : Nat) (ending : DialOutcome × Nat) :
    CallStatus × PoolSession :=
  let (outcome, now) := ending
  let (status, fleet) := s.fleet.endDial now id outcome
  (status, { s with now := now, fleet := fleet }.note id status)

/-- How the dial of a call ends and when, unless it waits at its gate. Somebody who has to wait
for a dial at its gate waits until it times out. -/
def ending? (s : PoolSession) (patient : Bool) (c : Call) : Option (DialOutcome × Nat) := do
  let m ← s.fleet.members[c.pool]?
  if c.plan.gated && !c.released then
    if patient then some (.timedOut, max s.now c.deadline) else none
  else c.plan.outcome m.pool.config.connectTimeout s.now c.deadline

/-- A call goes on through at most `fuel` dials. -/
def proceedFor (patient : Bool) :
    Nat → CallStatus → PoolSession → Nat → CallStatus × PoolSession
  | 0, status, s, _ => (status, s)
  | fuel + 1, status, s, id =>
    match (s.fleet.call? id).bind (s.ending? patient) with
    | none => (status, s)
    | some ending =>
      let (status, s) := s.endDial id ending
      proceedFor patient fuel status s id

/-- A call goes on until its dial waits at a gate or it has ended. -/
def proceed (patient : Bool) (status : CallStatus) (s : PoolSession) (id : Nat) :
    CallStatus × PoolSession :=
  match s.fleet.call? id with
  | none => (status, s)
  | some c => proceedFor patient c.purpose.dials status s id

/-! ## Background work -/

/-- Something that is due at some time. -/
inductive Due where
  | deadline (call : Nat)
  | tick (pool : Nat) (ticker : Ticker)

/-- The earlier of two things that are due; the first one if they are due at once. -/
def earlier (a b : Option (Nat × Due)) : Option (Nat × Due) :=
  match a, b with
  | none, b => b
  | a, none => a
  | some x, some y => if y.1 < x.1 then some y else some x

/-- The tick of a pool that is due, unless its last sweep still waits for a dial. -/
def dueTick (s : PoolSession) (i : Nat) (m : Member) : Option (Nat × Due) :=
  match m.ticker with
  | none => none
  | some ticker =>
    if ticker.due ≤ s.now && !s.fleet.hasBackgroundSweep i then some (ticker.due, .tick i ticker)
    else none

/-- The dial of a call whose deadline has come. -/
def dueDeadline (s : PoolSession) (c : Call) : Option (Nat × Due) :=
  if c.deadline ≤ s.now then some (c.deadline, .deadline c.id) else none

/-- What is due first. Deadlines come before ticks. -/
def nextDue (s : PoolSession) : Option (Nat × Due) :=
  let deadlines := s.fleet.calls.map s.dueDeadline
  let ticks := s.fleet.members.mapIdx s.dueTick
  (deadlines ++ ticks).foldl earlier none

/-- Does one thing that is due. -/
def handle (s : PoolSession) : Due → PoolSession
  | .deadline call => (s.endDial call (.timedOut, s.now)).2
  | .tick i ticker =>
    let id := s.fleet.nextCall
    let fleet := { s.fleet with
      members := s.fleet.members.modify i fun m =>
        { m with ticker := some (ticker.handle s.now) } }
    let (status, fleet) := fleet.beginSweep s.now i true
    (proceed false status (s.withFleet fleet) id).2

/-- Does at most `fuel` things that are due. -/
def settleFor : Nat → PoolSession → PoolSession
  | 0, s => s
  | fuel + 1, s =>
    let s := s.withFleet s.fleet.reap
    match s.nextDue with
    | none => s
    | some (_, due) => settleFor fuel (s.handle due)

/-- Lets the dials go on whose gate was opened. -/
def proceedReleased (s : PoolSession) : PoolSession :=
  ((s.fleet.calls.filter (·.released)).map (·.id)).foldl
    (fun s id => (proceed false .waiting s id).2) s

/-- A bound for the things that can be due: while the clock stands still, each ticker is due a
few times and each deadline once, and only a plan of a script can move the clock. -/
def settleBound (s : PoolSession) : Nat :=
  let plans := (s.fleet.members.flatMap fun m => m.dialer.script).length + s.fleet.calls.length
  (plans + 2) * (16 * (s.fleet.members.length + 1)) + s.fleet.calls.length

/-- Does all that is due. -/
def settle (s : PoolSession) : PoolSession :=
  let s := s.proceedReleased
  settleFor s.settleBound s

/-! ## Pools -/

/-- Opens connections for a new pool one after the other, up to the first that fails. -/
def seed (config : PoolConfig) : Nat → Dialer → Nat → List Connection →
    Except PoolError (List Connection) × Dialer × Nat
  | 0, dialer, now, conns => (.ok conns, dialer, now)
  | n + 1, dialer, now, conns =>
    let (plan, dialer) := dialer.begin
    let deadline := ceilMillis (now + config.connectTimeout.nanos)
    let (outcome, now) :=
      if plan.gated then (.timedOut, deadline)
      else plan.outcome config.connectTimeout now deadline
    match dialer.conclude config outcome with
    | (.error e, dialer) => (.error e, dialer, now)
    | (.ok conn, dialer) => seed config n dialer now (conns ++ [conn])

/-- A pool with connections that were opened for it. -/
def seeded (config : PoolConfig) (now : Nat) (conns : List Connection) : Pool :=
  conns.foldl (fun p conn => p.push now (some conn)) (.empty config)

/-- Sets a pool up: opens the minimum of connections, or closes those that were opened if one
cannot be. -/
def connect (s : PoolSession) (config : PoolConfig) (script : List DialPlan) :
    Except PoolError Unit × PoolSession :=
  let config := config.normalized
  let (result, dialer, now) := seed config config.minSize (.fresh script) s.now []
  let (result, member) : Except PoolError Unit × Member :=
    match result with
    | .error e => (.error e, .failed config dialer)
    | .ok conns =>
      (.ok (), ⟨seeded config now conns, dialer, true, some (.start now config.healthInterval)⟩)
  (result, { s with
    now := now
    fleet := { s.fleet with members := s.fleet.members ++ [member] } })

/-! ## Calls -/

/-- Checks a connection out and waits for it; the handle goes to a holder. -/
def checkout (s : PoolSession) (i : Nat) (returns : Bool) (name : String) :
    Except PoolError Handle × PoolSession :=
  let id := s.fleet.nextCall
  let (status, fleet) := s.fleet.beginCheckout s.now i returns
  let (status, s) := proceed true status (s.withFleet fleet) id
  match status with
  | .checkedOut (.error e) => (.error e, s)
  | _ =>
    match s.fleet.handleOf? (.call id) with
    | some h => (.ok h, s.withFleet (s.fleet.deliver s.now id name))
    | none => (.error .closed, s)

/-- Sweeps a pool and waits for the end of it. -/
def sweep (s : PoolSession) (i : Nat) : PoolSession :=
  let id := s.fleet.nextCall
  let (status, fleet) := s.fleet.beginSweep s.now i false
  (proceed true status (s.withFleet fleet) id).2

/-- Keeps a background call under a name. The result of an earlier one of that name that nobody
has asked for is let go of. -/
def keepTask (s : PoolSession) (name : String) (task : PoolTask) : PoolSession :=
  let fleet := match s.tasks.get? name with
    | some (.checkedOut call _) => s.fleet.drop s.now (.call call)
    | _ => s.fleet
  { s with fleet := fleet, tasks := s.tasks.insert name task }

/-- Begins a checkout in the background. -/
def beginCheckout (s : PoolSession) (i : Nat) (returns : Bool) (name : String) : PoolSession :=
  let id := s.fleet.nextCall
  let (status, fleet) := s.fleet.beginCheckout s.now i returns
  let s := (s.withFleet fleet).keepTask name (.checkout id)
  (proceed false status (s.note id status) id).2

/-- Begins a sweep in the background. -/
def beginSweep (s : PoolSession) (i : Nat) (name : String) : PoolSession :=
  let id := s.fleet.nextCall
  let (status, fleet) := s.fleet.beginSweep s.now i false
  let s := (s.withFleet fleet).keepTask name (.sweep id)
  (proceed false status s id).2

/-- Closes a pool in the background. A pool that is closed already is left alone. -/
def beginClose (s : PoolSession) (i : Nat) (name : String) : PoolSession :=
  let wasClosed := (s.fleet.members[i]?.map (·.pool.closed)).getD true
  (s.withFleet (s.fleet.close i)).keepTask name (if wasClosed then .ended else .closing i)

/-- What has become of a background call. Unless it is pending it is forgotten with that, and the
handle of a checkout goes to a holder of its name. -/
def finish (s : PoolSession) (name : String) : Option TaskReport × PoolSession :=
  match s.tasks.get? name with
  | none => (none, s)
  | some task =>
    let forgotten := { s with tasks := s.tasks.erase name }
    match task with
    | .checkout _ => (some .pending, s)
    | .checkedOut _ (.error e) => (some (.checkedOut (.error e)), forgotten)
    | .checkedOut call (.ok ()) =>
      match s.fleet.handleOf? (.call call) with
      | none => (some .cancelled, forgotten)
      | some h =>
        (some (.checkedOut (.ok h)), forgotten.withFleet (s.fleet.deliver s.now call name))
    | .sweep call =>
      if (s.fleet.call? call).isSome then (some .pending, s) else (some .done, forgotten)
    | .closing pool =>
      if s.fleet.hasBackgroundSweep pool then (some .pending, s) else (some .done, forgotten)
    | .cancelledCheckout => (some .cancelled, forgotten)
    | .ended => (some .done, forgotten)

/-- Cancels a background call that is still pending. -/
def cancel (s : PoolSession) (name : String) : PoolSession :=
  match s.tasks.get? name with
  | some (.checkout call) =>
    { s with
      fleet := s.fleet.cancel call
      tasks := s.tasks.insert name .cancelledCheckout }
  | some (.sweep call) =>
    { s with fleet := s.fleet.cancel call, tasks := s.tasks.insert name .ended }
  | some (.closing _) => { s with tasks := s.tasks.insert name .ended }
  | _ => s

/-- Time passes. -/
def advance (s : PoolSession) (d : Duration) : PoolSession := { s with now := s.now + d.nanos }

end PoolSession

end BoundedResources
