import BoundedResources.Table
import BoundedResources.Json.Value
import BoundedResources.Limiter.Bucket
import BoundedResources.Limiter.Meter
import BoundedResources.Time.Ticker

/-!
# Token buckets as a meter

A meter of token buckets makes a bucket when a key is first asked for and keeps it as it was made,
whatever quota later calls name. A call for no requests asks what remained, spends nothing and is
not counted. Sweeps forget the buckets that are idle; they are run by hand, as of any moment, or,
while the meter has a sweeper, once per interval. The buckets outlive the sweeper.

Idle times are counted in whole milliseconds of a 64-bit word. This matters for sweeps that pretend
a moment (`TokenBuckets.millisOf`). Calls and the sweeper take the moment from the clock, which is
at its start when the meter is made and would need some 584 million years to leave the word, so
their milliseconds are not cut.
-/

set_option autoImplicit false

namespace BoundedResources

/-- The counts of a meter. -/
structure MeterCounts where
  trackedKeys : Nat
  allowed : Nat
  denied : Nat
  evicted : Nat
deriving DecidableEq

/-- The counts as a JSON object. -/
def MeterCounts.toJson (c : MeterCounts) : Json.Value :=
  .object [("tracked_keys", .nat c.trackedKeys), ("allowed", .nat c.allowed),
    ("denied", .nat c.denied), ("evicted", .nat c.evicted)]

/-- A token bucket per key. -/
structure TokenBuckets where
  buckets : Table Bucket
  allowed : Nat
  denied : Nat
  evicted : Nat

namespace TokenBuckets

/-- No buckets. -/
def empty : TokenBuckets := ⟨[], 0, 0, 0⟩

/-- The bucket of a key, made for the quota of this call if there is none, and seen now. -/
def bucketFor (t : TokenBuckets) (millis : Nat) (key : String) (allowance : Allowance)
    (period : Duration) : Bucket :=
  ((t.buckets.get? key).getD (.create allowance period millis)).touch millis

/-- Asks for `n` requests of a key at `now`, the moment that the clock shows. -/
def spend (t : TokenBuckets) (now : Nat) (key : String) (allowance : Allowance)
    (period : Duration) (n : Nat) : Verdict × TokenBuckets :=
  let bucket := t.bucketFor (now / 1_000_000) key allowance period
  if n = 0 then
    (⟨bucket.lastRemaining, period, true⟩, { t with buckets := t.buckets.insert key bucket })
  else
    let (granted, bucket) := bucket.spend now n
    let t := { t with buckets := t.buckets.insert key bucket }
    if granted then (⟨bucket.lastRemaining, period, true⟩, { t with allowed := t.allowed + 1 })
    else (⟨0, period, false⟩, { t with denied := t.denied + 1 })

instance : Meter TokenBuckets := ⟨spend⟩

/-- Forgets the buckets that are idle at `now`, seen in whole milliseconds that fit a word; tells how
many there were. -/
def sweep (t : TokenBuckets) (now : Nat) : Nat × TokenBuckets :=
  let kept := t.buckets.filter fun p => !p.2.isIdle (now / 1_000_000)
  let removed := t.buckets.length - kept.length
  (removed, { t with buckets := kept, evicted := t.evicted + removed })

/-- The whole millisecond of a moment since the meter was made, in a 64-bit word. A moment from
before that, which is negative, counts as the first one. -/
def millisOf (moment : Int) : Nat := moment.toNat / 1_000_000 % 18_446_744_073_709_551_616

/-- Sweeps as of any moment, also one that the clock of the meter has not reached or never will;
tells how many buckets were forgotten. -/
def sweepAt (t : TokenBuckets) (moment : Int) : Nat × TokenBuckets :=
  t.sweep (millisOf moment * 1_000_000)

/-- The counts of the meter. -/
def counts (t : TokenBuckets) : MeterCounts :=
  ⟨t.buckets.length, t.allowed, t.denied, t.evicted⟩

end TokenBuckets

/-! ## Background sweeps -/

/-- Token buckets, with the sweeper of idle ones while there is one. -/
structure SweptBuckets where
  buckets : TokenBuckets
  sweeper : Option Ticker

namespace SweptBuckets

/-- Buckets that are swept once per interval from `now` on. -/
def create (now : Nat) (interval : Duration) : SweptBuckets :=
  ⟨.empty, some (.start now interval)⟩

/-- Buckets that are only swept by hand. -/
def unswept : SweptBuckets := ⟨.empty, none⟩

/-- Asks for `n` requests of a key at `now`. -/
def spend (s : SweptBuckets) (now : Nat) (key : String) (allowance : Allowance)
    (period : Duration) (n : Nat) : Verdict × SweptBuckets :=
  let (verdict, buckets) := s.buckets.spend now key allowance period n
  (verdict, { s with buckets := buckets })

instance : Meter SweptBuckets := ⟨spend⟩

/-- Sweeps by hand, as of `now`; tells how many buckets were forgotten. -/
def sweep (s : SweptBuckets) (now : Nat) : Nat × SweptBuckets :=
  let (removed, buckets) := s.buckets.sweep now
  (removed, { s with buckets := buckets })

/-- Sweeps by hand, as of any moment; tells how many buckets were forgotten. -/
def sweepAt (s : SweptBuckets) (moment : Int) : Nat × SweptBuckets :=
  let (removed, buckets) := s.buckets.sweepAt moment
  (removed, { s with buckets := buckets })

/-- Runs the sweeps that are due at `now`, the moment that the clock shows. -/
def settle (s : SweptBuckets) (now : Nat) : SweptBuckets :=
  match s.sweeper with
  | none => s
  | some ticker =>
    let (due, ticker) := ticker.catchUp now
    { buckets := (List.range due).foldl (fun b _ => (b.sweep now).2) s.buckets
      sweeper := some ticker }

/-- Stops the sweeper. -/
def close (s : SweptBuckets) : SweptBuckets := { s with sweeper := none }

end SweptBuckets

end BoundedResources
