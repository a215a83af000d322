import BoundedResources.Json.Value

/-!
# Pool statistics
-/

set_option autoImplicit false

namespace BoundedResources

/-- The counts of a pool at one moment. -/
structure PoolStats where
  total : Nat
  active : Nat
  idle : Nat
  pendingDials : Nat
  requests : Nat
  errors : Nat
deriving DecidableEq

namespace PoolStats

/-- The share of the open connections that is checked out, zero without any. -/
def utilization (s : PoolStats) : Float :=
  if s.total = 0 then 0.0 else Float.ofNat s.active / Float.ofNat s.total

/-- The members of the written form. -/
def members (s : PoolStats) : List (String × Json.Value) :=
  [("total_connections", .nat s.total), ("active_connections", .nat s.active),
   ("idle_connections", .nat s.idle), ("pending_dials", .nat s.pendingDials),
   ("total_requests", .nat s.requests), ("total_errors", .nat s.errors)]

/-- The statistics as a JSON object. -/
def toJson (s : PoolStats) : Json.Value := .object s.members

end PoolStats

end BoundedResources
