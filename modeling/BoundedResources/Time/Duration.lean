/-!
# Lengths of time

A `Duration` counts nanoseconds and never reaches 2⁶⁴ seconds; arithmetic that would pass
that bound stops at the longest duration. Its text picks the largest unit that fits at least
once and drops trailing zeros of the fraction: `1.5ms`, `250ms`, `1.00000001s`.
-/

set_option autoImplicit false

namespace BoundedResources

/-- A length of time, counted in nanoseconds and shorter than 2⁶⁴ seconds. -/
structure Duration where
  nanos : Nat
  bounded : nanos < 18_446_744_073_709_551_616_000_000_000
deriving DecidableEq

namespace Duration

/-- The length of time of `n` nanoseconds, or the longest one if `n` is beyond it. -/
def ofNanos (n : Nat) : Duration :=
  ⟨min n (18_446_744_073_709_551_616_000_000_000 - 1), by omega⟩

/-- The length of time of `n` whole milliseconds. -/
def ofMillis (n : Nat) : Duration := ofNanos (n * 1_000_000)

/-- The length of time of `n` whole seconds. -/
def ofSecs (n : Nat) : Duration := ofNanos (n * 1_000_000_000)

/-- No time at all. -/
def zero : Duration := ⟨0, by decide⟩

instance : Inhabited Duration := ⟨zero⟩

/-- The whole seconds of a duration. -/
def secs (d : Duration) : Nat := d.nanos / 1_000_000_000

/-- The nanoseconds of a duration beyond its whole seconds. -/
def subsecNanos (d : Duration) : Nat := d.nanos % 1_000_000_000

/-- The whole milliseconds of a duration. -/
def millis (d : Duration) : Nat := d.nanos / 1_000_000

/-- A duration cut to whole seconds. -/
def truncateToSecs (d : Duration) : Duration :=
  ⟨d.secs * 1_000_000_000, Nat.lt_of_le_of_lt (Nat.div_mul_le_self _ _) d.bounded⟩

theorem secs_lt (d : Duration) : d.secs < 18_446_744_073_709_551_616 :=
  Nat.div_lt_of_lt_mul (by have := d.bounded; omega)

theorem ofSecs_secs (d : Duration) : ofSecs d.secs = d.truncateToSecs := by
  have h := d.truncateToSecs.bounded
  simp only [truncateToSecs] at h
  simp only [ofSecs, ofNanos, truncateToSecs, Duration.mk.injEq]
  omega

/-! ## Text -/

/-- The digits of a fraction `rest / 10 ^ places`, without trailing zeros. -/
def fractionDigits : Nat → Nat → List Char
  | 0, _ => []
  | places + 1, rest =>
    if rest = 0 then []
    else
      Nat.digitChar (rest / Nat.pow 10 places) ::
        fractionDigits places (rest % Nat.pow 10 places)

/-- `whole` units and `rest / 10 ^ places` of one more, followed by the unit's name. -/
def unitText (whole rest places : Nat) (unit : String) : String :=
  match fractionDigits places rest with
  | [] => toString whole ++ unit
  | digits => toString whole ++ "." ++ String.ofList digits ++ unit

/-- The text of a duration in its largest fitting unit among seconds, milliseconds,
microseconds and nanoseconds. -/
def text (d : Duration) : String :=
  if 1_000_000_000 ≤ d.nanos then unitText d.secs d.subsecNanos 9 "s"
  else if 1_000_000 ≤ d.nanos then unitText d.millis (d.nanos % 1_000_000) 6 "ms"
  else if 1_000 ≤ d.nanos then unitText (d.nanos / 1_000) (d.nanos % 1_000) 3 "µs"
  else unitText d.nanos 0 0 "ns"

end Duration

end BoundedResources
