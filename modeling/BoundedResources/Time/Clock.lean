import BoundedResources.Time.Duration

/-!
# Clocks

Every component reads two clocks. The monotonic clock only moves forward and drives timers,
token buckets and connection ages. The wall clock can be set to anything, also to a moment
before 1970, and dates cache entries. Both are plain values, so a run is a function of the
moves that are applied to them.
-/

set_option autoImplicit false

namespace BoundedResources

/-- The two clocks that a component can read. -/
structure Clock where
  /-- Monotonic time in nanoseconds since the start. -/
  elapsed : Nat
  /-- Wall time in nanoseconds since 1970, negative before it. -/
  wall : Int
deriving DecidableEq

namespace Clock

/-- Both clocks at their start: no time elapsed, 1 700 000 000 seconds after 1970. -/
def start : Clock := ⟨0, 1_700_000_000_000_000_000⟩

/-- Time passes: both clocks move forward. -/
def advance (c : Clock) (d : Duration) : Clock :=
  { elapsed := c.elapsed + d.nanos, wall := c.wall + d.nanos }

/-- The wall clock alone is set, to a number of milliseconds since 1970. -/
def setWall (c : Clock) (millis : Int) : Clock :=
  { c with wall := millis * 1_000_000 }

/-- The wall clock in whole milliseconds: zero before 1970, and a 64-bit word. -/
def wallMillis (c : Clock) : Nat :=
  (c.wall / 1_000_000).toNat % 18_446_744_073_709_551_616

end Clock

/-- A monotonic reading in nanoseconds, rounded up to the next whole millisecond. -/
def ceilMillis (t : Nat) : Nat :=
  (t + 999_999) / 1_000_000 * 1_000_000

end BoundedResources
