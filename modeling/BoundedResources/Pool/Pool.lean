import BoundedResources.Pool.Config
import BoundedResources.Pool.Error
import BoundedResources.Pool.Stats

/-!
# The books of a pool

A pool keeps a slot for each of its open connections. The slot of a checked-out connection
stays, without the connection, until the connection comes back or the slot is freed. Opening a
connection takes time; its capacity is reserved before, as one of the dials in flight, and the
reservation ends when the dial does. So slots and dials together are what is occupied of the
maximum.

Each operation here happens at one instant. What can come between two of them is the matter of
`Fleet`, in which calls wait for their dials.
-/

set_option autoImplicit false

namespace BoundedResources

/-- An open connection. -/
structure Connection where
  /-- Its place in the order in which the connections of its pool were opened, from 1 on. -/
  number : Nat
  /-- What its holders have noted on it. -/
  tag : String
deriving DecidableEq

/-- The record of an open connection. -/
structure Slot where
  id : Nat
  /-- The connection, while it is idle. -/
  conn : Option Connection
  createdAt : Nat
  lastUsedAt : Nat
  /-- How often the connection was checked out. -/
  useCount : Nat
deriving DecidableEq

namespace Slot

/-- Whether the connection is checked out. -/
def inUse (s : Slot) : Bool := s.conn.isNone

/-- The slot after its connection was checked out. -/
def lend (s : Slot) (now : Nat) : Slot :=
  { s with conn := none, lastUsedAt := now, useCount := s.useCount + 1 }

/-- Whether pruning keeps the slot: its connection is checked out or healthy. -/
def survives (healthy : Connection → Bool) (s : Slot) : Bool := s.conn.all healthy

end Slot

/-- The books of a pool. -/
structure Pool where
  config : PoolConfig
  /-- The slots, in the order in which they were made. -/
  slots : List Slot
  /-- How many dials are in flight or reserved. -/
  dialing : Nat
  nextId : Nat
  closed : Bool
  /-- How many checkouts were asked for while the pool was open. -/
  requests : Nat
  /-- How many of them failed. -/
  errors : Nat

/-- What a pool offers to a checkout at once. -/
inductive Offer where
  /-- An idle connection, with the number of its slot. -/
  | idle (id : Nat) (conn : Connection)
  /-- Room for a connection that has to be opened; its capacity is reserved. -/
  | room

namespace Pool

/-- A pool without connections. -/
def empty (config : PoolConfig) : Pool := ⟨config, [], 0, 1, false, 0, 0⟩

/-- What is occupied of the maximum. -/
def occupied (p : Pool) : Nat := p.slots.length + p.dialing

/-- Makes a slot for a connection that was opened just now, idle or checked out already. -/
def push (p : Pool) (now : Nat) (conn : Option Connection) : Pool :=
  { p with
    slots := p.slots ++ [⟨p.nextId, conn, now, now, if conn.isNone then 1 else 0⟩]
    nextId := p.nextId + 1 }

/-- Drops the idle connections that are not healthy. -/
def prune (p : Pool) (healthy : Connection → Bool) : Pool :=
  { p with slots := p.slots.filter (Slot.survives healthy) }

/-- Takes the first idle connection out of its slot. -/
def takeIdle (now : Nat) : List Slot → Option (Nat × Connection × List Slot)
  | [] => none
  | s :: rest =>
    match s.conn with
    | some conn => some (s.id, conn, s.lend now :: rest)
    | none => (takeIdle now rest).map fun (id, conn, slots) => (id, conn, s :: slots)

/-- Checks a connection out: the first healthy idle one, or else one that has to be opened if
there is room. Unhealthy idle connections are dropped. -/
def checkout (p : Pool) (now : Nat) (healthy : Connection → Bool) :
    Except PoolError Offer × Pool :=
  if p.closed then (.error .closed, p)
  else
    let p := { p.prune healthy with requests := p.requests + 1 }
    match takeIdle now p.slots with
    | some (id, conn, slots) => (.ok (.idle id conn), { p with slots := slots })
    | none =>
      if p.occupied < p.config.maxSize then (.ok .room, { p with dialing := p.dialing + 1 })
      else (.error (.noAvailableConnections p.config.maxSize), { p with errors := p.errors + 1 })

/-- Gives reservations for dials back. -/
def unreserve (p : Pool) (n : Nat) : Pool := { p with dialing := p.dialing - n }

/-- A checkout's dial has ended: its connection gets a slot, checked out already. -/
def endCheckout (p : Pool) (now : Nat) (dialed : Except PoolError Connection) :
    Except PoolError (Nat × Connection) × Pool :=
  let p := p.unreserve 1
  match dialed with
  | .error e => (.error e, { p with errors := p.errors + 1 })
  | .ok conn =>
    if p.closed then (.error .closed, p) else (.ok (p.nextId, conn), p.push now none)

/-- Puts a connection back into the slot that it was taken from, if the slot is still there. -/
def putBack (p : Pool) (now id : Nat) (conn : Connection) : Pool :=
  { p with
    slots := p.slots.map fun s =>
      if s.id = id && s.inUse then { s with conn := some conn, lastUsedAt := now } else s }

/-- Frees the slot of a checked-out connection. -/
def free (p : Pool) (id : Nat) : Pool :=
  { p with slots := p.slots.filter fun s => !(s.id = id && s.inUse) }

/-- Begins a health sweep: drops the unhealthy idle connections and reserves as many dials as are
wanting to the minimum; tells how many. -/
def beginSweep (p : Pool) (healthy : Connection → Bool) : Nat × Pool :=
  if p.closed then (0, p)
  else
    let p := p.prune healthy
    let wanted := p.config.minSize - p.occupied
    (wanted, { p with dialing := p.dialing + wanted })

/-- A sweep's dial has ended: its connection gets a slot; tells whether it did. -/
def endSweepDial (p : Pool) (now : Nat) (dialed : Except PoolError Connection) : Bool × Pool :=
  let p := p.unreserve 1
  match dialed with
  | .error _ => (false, p)
  | .ok conn => if p.closed then (false, p) else (true, p.push now (some conn))

/-- Closes the pool: the idle connections are closed, and no slot is left. -/
def close (p : Pool) : Pool := { p with closed := true, slots := [] }

/-- How many connections are checked out. -/
def active (p : Pool) : Nat := (p.slots.filter Slot.inUse).length

/-- The counts of the pool. -/
def stats (p : Pool) : PoolStats where
  total := p.slots.length
  active := p.active
  idle := p.slots.length - p.active
  pendingDials := p.dialing
  requests := p.requests
  errors := p.errors

end Pool

/-- What is known of an open connection. -/
structure SlotView where
  id : Nat
  inUse : Bool
  /-- Whether it is healthy, if it is idle. -/
  healthy : Option Bool
  useCount : Nat
  age : Duration
  idleFor : Duration

/-- What is known of the open connections at `now`. -/
def Pool.view (p : Pool) (now : Nat) (healthy : Connection → Bool) :
    List SlotView :=
  p.slots.map fun s =>
    { id := s.id
      inUse := s.inUse
      healthy := s.conn.map healthy
      useCount := s.useCount
      age := .ofNanos (now - s.createdAt)
      idleFor := .ofNanos (now - s.lastUsedAt) }

end BoundedResources
