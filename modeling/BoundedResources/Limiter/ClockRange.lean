import BoundedResources.Limiter.TokenBuckets

/-!
# The range of bucket clocks

A bucket counts the nanoseconds since it was made, in 64-bit words. The interval and the capacity
are put into such words when it is made. A call compares moments that it gets by adding, and what it
adds up has to fit a word, too. A time that does not fit stops the program: nothing that is asked
for later is answered.
-/

set_option autoImplicit false

namespace BoundedResources

/-- The last nanosecond that the clock of a bucket can tell. -/
def lastNano : Nat := 18_446_744_073_709_551_615

namespace Bucket

/-- The moments that a call for `n ≥ 1` requests at `now` works out if they are not more than the
bucket can ever grant: the arrival time from which it starts and that of the last request, and if
they are granted the new arrival time, and when a bucket without requests would be full. -/
def moments (b : Bucket) (now n : Nat) : List Nat :=
  b.arrivalAt now :: (b.arrivalAt now + b.interval * (n - 1)) ::
    if b.admits now n then [b.arrivalAfter now n, now + b.interval + b.capacity] else []

/-- The times that are worked out for a call for `n` requests at `now`, if the bucket was made at
`made`. The requests are weighed before anything else is done about them. -/
def times (b : Bucket) (made now n : Nat) : List Nat :=
  b.interval :: b.capacity ::
    if n = 0 then []
    else b.interval * n ::
      if b.interval * n ≤ b.capacity then (b.moments now n).map (· - made) else []

/-- Whether all times that are worked out for a call fit the clock. -/
def fits (b : Bucket) (made now n : Nat) : Bool := (b.times made now n).all (· ≤ lastNano)

end Bucket

/-- Swept buckets with clocks of a limited range. -/
structure ClockedBuckets where
  swept : SweptBuckets
  /-- When the bucket of a key was made. -/
  made : Table Nat
  /-- Whether some time did not fit, so that the program has stopped. -/
  halted : Bool

namespace ClockedBuckets

/-- Buckets that nobody has asked for anything. -/
def start (swept : SweptBuckets) : ClockedBuckets := ⟨swept, [], false⟩

/-- When the bucket was made that a call for a key at `now` is about. -/
def madeAt (c : ClockedBuckets) (now : Nat) (key : String) : Nat :=
  match c.swept.buckets.buckets.get? key with
  | none => now
  | some _ => (c.made.get? key).getD now

/-- Asks for `n` requests of a key at `now`. -/
def spend (c : ClockedBuckets) (now : Nat) (key : String) (allowance : Allowance)
    (period : Duration) (n : Nat) : Verdict × ClockedBuckets :=
  let made := c.madeAt now key
  let bucket := c.swept.buckets.bucketFor (now / 1_000_000) key allowance period
  let (verdict, swept) := c.swept.spend now key allowance period n
  (verdict, ⟨swept, c.made.insert key made, c.halted || !bucket.fits made now n⟩)

instance : Meter ClockedBuckets := ⟨spend⟩

/-- Sweeps by hand, as of `now`; tells how many buckets were forgotten. -/
def sweep (c : ClockedBuckets) (now : Nat) : Nat × ClockedBuckets :=
  let (removed, swept) := c.swept.sweep now
  (removed, { c with swept := swept })

/-- Sweeps by hand, as of any moment; tells how many buckets were forgotten. -/
def sweepAt (c : ClockedBuckets) (moment : Int) : Nat × ClockedBuckets :=
  let (removed, swept) := c.swept.sweepAt moment
  (removed, { c with swept := swept })

/-- Runs the sweeps that are due at `now`. -/
def settle (c : ClockedBuckets) (now : Nat) : ClockedBuckets :=
  { c with swept := c.swept.settle now }

/-- Stops the sweeper. -/
def close (c : ClockedBuckets) : ClockedBuckets := { c with swept := c.swept.close }

end ClockedBuckets

end BoundedResources
