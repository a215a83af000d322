import BoundedResources.Limiter.Rulebook

/-!
# Token buckets

A bucket for a quota of `q` requests per period grants a request every `t = period / q`
nanoseconds, but at least one, and up to `q` of them at once. It remembers one moment, its
arrival time: the moment up to which the granted requests use the rate up, on the assumption
that they come at full rate. `n` requests are granted if that moment, put off by the requests
before the last of them, is no more than `t · q` ahead of now; granting them puts it off by
`n · t`, from now if it has passed. A bucket without granted requests is taken to arrive one
request after now.

Buckets grant all or nothing, and a refusal leaves the arrival time as it was. A bucket also
knows when it was last asked and what remained then; it is idle once nobody has asked for twice
its period and for an hour at least.
-/

set_option autoImplicit false

namespace BoundedResources

/-- The shortest time that an idle bucket is kept, one hour. -/
def minBucketLifetime : Duration := .ofSecs 3600

/-- A token bucket; all moments are nanoseconds since the meter was made. -/
structure Bucket where
  allowance : Allowance
  /-- The time between two requests at full rate. -/
  interval : Nat
  /-- The arrival time, once a request was granted. -/
  arrival : Option Nat
  /-- The whole millisecond in which it was last asked. -/
  lastSeen : Nat
  /-- How long it may be idle, in whole milliseconds. -/
  lifetime : Nat
  /-- What remained after the last call that asked for requests. -/
  lastRemaining : Nat
  interval_pos : 0 < interval

namespace Bucket

/-- A bucket that is made at a whole millisecond for a quota per period. -/
def create (allowance : Allowance) (period : Duration) (millis : Nat) : Bucket where
  allowance := allowance
  interval := max 1 (period.nanos / allowance.count)
  arrival := none
  lastSeen := millis
  lifetime := max (2 * period.nanos / 1_000_000) minBucketLifetime.millis
  lastRemaining := allowance.count
  interval_pos := by omega

/-- The time that the whole quota takes at full rate. -/
def capacity (b : Bucket) : Nat := b.interval * b.allowance.count

/-- The arrival time from which a call at `now` starts. -/
def arrivalAt (b : Bucket) (now : Nat) : Nat := b.arrival.getD (now + b.interval)

/-- Whether `n` requests are granted at `now`. -/
def admits (b : Bucket) (now n : Nat) : Bool :=
  b.interval * n ≤ b.capacity && b.arrivalAt now + b.interval * (n - 1) ≤ now + b.capacity

/-- The arrival time after `n` requests are granted at `now`. -/
def arrivalAfter (b : Bucket) (now n : Nat) : Nat := max (b.arrivalAt now) now + b.interval * n

/-- How many requests remain at `now` for an arrival time. -/
def remaining (b : Bucket) (now arrival : Nat) : Nat :=
  min (now + b.interval + b.capacity - arrival) b.capacity / b.interval

/-- The bucket after somebody has asked in a whole millisecond. -/
def touch (b : Bucket) (millis : Nat) : Bucket := { b with lastSeen := max b.lastSeen millis }

/-- Asks for `n ≥ 1` requests at `now`: whether they are granted, and what remains. -/
def spend (b : Bucket) (now n : Nat) : Bool × Bucket :=
  if b.admits now n then
    let arrival := b.arrivalAfter now n
    (true, { b with arrival := some arrival, lastRemaining := b.remaining now arrival })
  else (false, { b with lastRemaining := 0 })

/-- Whether the bucket is idle in a whole millisecond. -/
def isIdle (b : Bucket) (millis : Nat) : Bool := b.lifetime < millis - b.lastSeen

end Bucket

end BoundedResources
