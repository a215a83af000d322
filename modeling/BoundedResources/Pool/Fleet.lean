import BoundedResources.Pool.Dialer
import BoundedResources.Time.Ticker

/-!
# Fleets of pools

A fleet is some pools, the handles on connections that they have checked out, and the calls that
wait for a dial. A connection is in one of three places: idle in a slot of its pool, in a handle,
or in the handle that a finished call has not delivered yet. A call that has to dial leaves its
reservation in the books of its pool and goes on when its dial ends (`Fleet.endDial`); whatever
happens to the fleet in between happens between two of its steps.

A handle on a connection is of one of two sorts. When its holder lets go of it, a returning one
puts its connection back into its pool, the other closes it and frees the slot. A handle that is
put into a pool that did not issue it is let go of.
-/

set_option autoImplicit false

namespace BoundedResources

/-- A handle on a checked-out connection. -/
structure Handle where
  /-- Which pool has issued it. -/
  pool : Nat
  /-- The slot of the connection. -/
  slot : Nat
  conn : Connection
  /-- Whether letting go of it puts the connection back. -/
  returns : Bool
deriving DecidableEq

/-- Who holds a handle. -/
inductive Holder where
  | name (name : String)
  /-- A call that has ended and whose result was not fetched yet. -/
  | call (id : Nat)
deriving DecidableEq

/-- What a call dials for. -/
inductive Purpose where
  /-- For a checkout. -/
  | checkout (returns : Bool)
  /-- For a health sweep that still holds `wanted` reservations, that of this dial included. -/
  | sweep (wanted : Nat) (background : Bool)
deriving DecidableEq

/-- How many dials a call has still to do, its present one included. -/
def Purpose.dials : Purpose → Nat
  | .checkout _ => 1
  | .sweep wanted _ => wanted

/-- A call that waits for a dial. -/
structure Call where
  id : Nat
  pool : Nat
  purpose : Purpose
  plan : DialPlan
  /-- When the dial times out. -/
  deadline : Nat
  /-- Whether the dial was let through its gate. -/
  released : Bool

/-- How far a call has come. -/
inductive CallStatus where
  | waiting
  /-- A checkout has ended; if it has succeeded, its handle is ready for delivery. -/
  | checkedOut (result : Except PoolError Unit)
  /-- A sweep has ended. -/
  | swept

/-- A pool of a fleet. -/
structure Member where
  pool : Pool
  dialer : Dialer
  /-- Whether it can still be called. -/
  attached : Bool
  /-- When the next background sweep is due, while there are background sweeps. -/
  ticker : Option Ticker

/-- Pools, the handles on their connections and the calls that wait for a dial. -/
structure Fleet where
  members : List Member
  handles : List (Holder × Handle)
  /-- The waiting calls in the order in which their dials began. -/
  calls : List Call
  nextCall : Nat

namespace Member

/-- Changes the books of the pool. -/
def withPool (m : Member) (pool : Pool) : Member := { m with pool := pool }

/-- Whether a connection of the pool is healthy. -/
def healthy (m : Member) : Connection → Bool := m.dialer.healthy

/-- A pool that could not be set up. -/
def failed (config : PoolConfig) (dialer : Dialer) : Member :=
  ⟨(Pool.empty config).close, dialer, false, none⟩

end Member

namespace Fleet

/-- A fleet without pools. -/
def empty : Fleet := ⟨[], [], [], 0⟩

/-- The pool with an index, if it can be called. -/
def attached? (f : Fleet) (i : Nat) : Option Member := f.members[i]?.filter (·.attached)

/-- Puts a changed pool in its place. -/
def setMember (f : Fleet) (i : Nat) (m : Member) : Fleet := { f with members := f.members.set i m }

/-- Changes the books of one pool. -/
def modifyPool (f : Fleet) (i : Nat) (change : Pool → Pool) : Fleet :=
  { f with members := f.members.modify i fun m => m.withPool (change m.pool) }

/-! ## Handles -/

/-- The handle of a holder. -/
def handleOf? (f : Fleet) (holder : Holder) : Option Handle := f.handles.lookup holder

/-- Takes the handle of a holder away. -/
def takeHandle (f : Fleet) (holder : Holder) : Fleet :=
  { f with handles := f.handles.filter fun p => !(p.1 == holder) }

/-- A connection comes back to the pool that has issued its handle. -/
def putBack (f : Fleet) (now : Nat) (h : Handle) : Fleet :=
  f.modifyPool h.pool fun p => p.putBack now h.slot h.conn

/-- The connection of a handle is closed. -/
def closeHandle (f : Fleet) (h : Handle) : Fleet := f.modifyPool h.pool fun p => p.free h.slot

/-- A handle without a holder is let go of. -/
def letGo (f : Fleet) (now : Nat) (h : Handle) : Fleet :=
  if h.returns then f.putBack now h else f.closeHandle h

/-- A holder lets go of its handle, if it has one. -/
def drop (f : Fleet) (now : Nat) (holder : Holder) : Fleet :=
  match f.handleOf? holder with
  | none => f
  | some h => (f.takeHandle holder).letGo now h

/-- A holder gets a handle; it lets go of the one that it has after that. -/
def hold (f : Fleet) (now : Nat) (holder : Holder) (h : Handle) : Fleet :=
  let old := f.handleOf? holder
  let f := f.takeHandle holder
  let f := { f with handles := f.handles ++ [(holder, h)] }
  match old with
  | none => f
  | some h => f.letGo now h

/-- The handle that a call has ended with goes to whoever asks for it. -/
def deliver (f : Fleet) (now : Nat) (call : Nat) (name : String) : Fleet :=
  match f.handleOf? (.call call) with
  | none => f
  | some h => (f.takeHandle (.call call)).hold now (.name name) h

/-- A connection is put into a pool; the handle of another pool is let go of instead. -/
def put (f : Fleet) (now : Nat) (i : Nat) (holder : Holder) : Fleet :=
  match f.handleOf? holder with
  | none => f
  | some h =>
    let f := f.takeHandle holder
    if h.pool = i then f.putBack now h else f.letGo now h

/-- A holder notes something on its connection. -/
def tag (f : Fleet) (holder : Holder) (tag : String) : Fleet :=
  { f with
    handles := f.handles.map fun p =>
      if p.1 = holder then (p.1, { p.2 with conn := { p.2.conn with tag := tag } }) else p }

/-! ## Calls -/

/-- Begins a dial for a call. -/
def beginDial (f : Fleet) (now id i : Nat) (m : Member) (purpose : Purpose) : Fleet :=
  let (plan, dialer) := m.dialer.begin
  let deadline := ceilMillis (now + m.pool.config.connectTimeout.nanos)
  let f := f.setMember i { m with dialer := dialer }
  { f with calls := f.calls ++ [⟨id, i, purpose, plan, deadline, false⟩] }

/-- Checks a connection out of a pool, as the call with the next number. -/
def beginCheckout (f : Fleet) (now i : Nat) (returns : Bool) : CallStatus × Fleet :=
  let id := f.nextCall
  let f := { f with nextCall := id + 1 }
  match f.members[i]? with
  | none => (.checkedOut (.error .closed), f)
  | some m =>
    match m.pool.checkout now m.healthy with
    | (.error e, pool) => (.checkedOut (.error e), f.setMember i (m.withPool pool))
    | (.ok (.idle slot conn), pool) =>
      let f := f.setMember i (m.withPool pool)
      (.checkedOut (.ok ()), f.hold now (.call id) ⟨i, slot, conn, returns⟩)
    | (.ok .room, pool) =>
      (.waiting, f.beginDial now id i (m.withPool pool) (.checkout returns))

/-- Sweeps a pool, as the call with the next number. -/
def beginSweep (f : Fleet) (now i : Nat) (background : Bool) : CallStatus × Fleet :=
  let id := f.nextCall
  let f := { f with nextCall := id + 1 }
  match f.members[i]? with
  | none => (.swept, f)
  | some m =>
    let (wanted, pool) := m.pool.beginSweep m.healthy
    if wanted = 0 then (.swept, f.setMember i (m.withPool pool))
    else (.waiting, f.beginDial now id i (m.withPool pool) (.sweep wanted background))

/-- The waiting call with a number. -/
def call? (f : Fleet) (id : Nat) : Option Call := f.calls.find? fun c => c.id == id

/-- A call no longer waits. -/
def endCall (f : Fleet) (id : Nat) : Fleet :=
  { f with calls := f.calls.filter fun c => !(c.id == id) }

/-- The dial of a call has ended. A checkout ends with it. A sweep dials on until it holds no
reservation any more; at the first connection that gets no slot it gives the others back. -/
def endDial (f : Fleet) (now id : Nat) (outcome : DialOutcome) : CallStatus × Fleet :=
  match f.call? id with
  | none => (.swept, f)
  | some c =>
    let f := f.endCall id
    match f.members[c.pool]? with
    | none => (.swept, f)
    | some m =>
      let (dialed, dialer) := m.dialer.conclude m.pool.config outcome
      let m := { m with dialer := dialer }
      match c.purpose with
      | .checkout returns =>
        match m.pool.endCheckout now dialed with
        | (.error e, pool) => (.checkedOut (.error e), f.setMember c.pool (m.withPool pool))
        | (.ok (slot, conn), pool) =>
          let f := f.setMember c.pool (m.withPool pool)
          (.checkedOut (.ok ()), f.hold now (.call id) ⟨c.pool, slot, conn, returns⟩)
      | .sweep wanted background =>
        match m.pool.endSweepDial now dialed with
        | (false, pool) =>
          (.swept, f.setMember c.pool (m.withPool (pool.unreserve (wanted - 1))))
        | (true, pool) =>
          if wanted ≤ 1 then (.swept, f.setMember c.pool (m.withPool pool))
          else
            (.waiting,
              f.beginDial now id c.pool (m.withPool pool) (.sweep (wanted - 1) background))

/-- A waiting call is cancelled. A checkout gives its reservation back; a sweep keeps those that
it holds. -/
def cancel (f : Fleet) (id : Nat) : Fleet :=
  match f.call? id with
  | none => f
  | some c =>
    let f := f.endCall id
    match c.purpose with
    | .checkout _ => f.modifyPool c.pool fun p => p.unreserve 1
    | .sweep _ _ => f

/-- The dials for a pool that wait at their gates are let through. -/
def openGate (f : Fleet) (i : Nat) : Fleet :=
  { f with calls := f.calls.map fun c => if c.pool = i then { c with released := true } else c }

/-! ## Pools -/

/-- A pool is closed, and its background sweeps end. -/
def close (f : Fleet) (i : Nat) : Fleet :=
  { f with
    members := f.members.modify i fun m => { m with pool := m.pool.close, ticker := none } }

/-- Nobody will call a pool again. -/
def detach (f : Fleet) (i : Nat) : Fleet :=
  { f with members := f.members.modify i fun m => { m with attached := false } }

/-- Whether a call for a pool is waiting that somebody has made. -/
def hasCall (f : Fleet) (i : Nat) : Bool :=
  f.calls.any fun c => c.pool == i && match c.purpose with
    | .checkout _ => true
    | .sweep _ background => !background

/-- Whether a background sweep of a pool is waiting. -/
def hasBackgroundSweep (f : Fleet) (i : Nat) : Bool :=
  f.calls.any fun c => c.pool == i && match c.purpose with
    | .checkout _ => false
    | .sweep _ background => background

/-- What becomes of a pool that nobody will call again: it has no further background sweeps once
the calls for it have ended, and closes once its last background sweep has ended, too. -/
def reapMember (f : Fleet) (i : Nat) (m : Member) : Member :=
  if m.attached || f.hasCall i then m
  else if f.hasBackgroundSweep i then { m with ticker := none }
  else { m with pool := m.pool.close, ticker := none }

/-- Takes the pools away that nobody uses any more. -/
def reap (f : Fleet) : Fleet := { f with members := f.members.mapIdx f.reapMember }

/-- The numbers of the open connections of a pool, wherever they are. -/
def openNumbers (f : Fleet) (i : Nat) : List Nat :=
  let idle := match f.members[i]? with
    | none => []
    | some m => m.pool.slots.filterMap fun s => s.conn.map (·.number)
  idle ++ (f.handles.filter fun p => p.2.pool == i).map fun p => p.2.conn.number

end Fleet

end BoundedResources
