import BoundedResources.Limiter.Rulebook

/-!
# Meters

A meter decides whether a key may spend some requests under a quota now, and keeps the account of
what was spent.
-/

set_option autoImplicit false

namespace BoundedResources

/-- The answer of a meter. -/
structure Verdict where
  /-- How many requests are left, zero after a refusal. -/
  remaining : Nat
  /-- The time after which the period is over. -/
  resetIn : Duration
  allowed : Bool
deriving DecidableEq

/-- Something that decides whether a key may spend `n` requests now. -/
class Meter (M : Type) where
  /-- Asks, at a moment in nanoseconds since the meter was made. -/
  spend (meter : M) (now : Nat) (key : String) (allowance : Allowance) (period : Duration)
    (n : Nat) : Verdict × M

/-- A meter that decides without looking at the time or at what it has decided before. -/
structure FixedMeter where
  decide : String → Allowance → Duration → Nat → Verdict

instance : Meter FixedMeter where
  spend meter _ key allowance period n := (meter.decide key allowance period n, meter)

end BoundedResources
