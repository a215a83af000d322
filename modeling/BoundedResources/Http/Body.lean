import BoundedResources.Cache.Tally
import BoundedResources.Pool.Stats
import BoundedResources.Time.Calendar
import BoundedResources.Json.Printer

/-!
# Bodies of answers

Each kind of answer has a JSON object as its body, with its members in a fixed order. A part
that does not apply, like the lifetime of a value that never expires, is left out.
-/

set_option autoImplicit false

namespace BoundedResources.Http.Body

open Json (Value)

/-- The answer to a lookup, with the seconds that are left of the value's lifetime. -/
def found (key : String) (value : Value) (ttl : Option Nat) : Value :=
  .object ([("key", .string key), ("value", value)] ++ (ttl.map fun t => ("ttl", .nat t)).toList)

/-- The answer to a stored value. -/
def stored (key : String) : Value :=
  .object [("message", .string ("Key '" ++ key ++ "' set successfully")), ("key", .string key)]

/-- The answer to a deletion. -/
def deleted (key : String) : Value :=
  .object [("message", .string ("Key '" ++ key ++ "' deleted successfully")), ("key", .string key)]

/-- The answer to anything that went wrong. -/
def error (message : String) : Value := .object [("error", .string message)]

/-- The statistics of a cache and its hit rate. -/
def cacheStats (s : CacheStats) : Value :=
  .object (s.members ++ [("hit_rate", .number (.real s.hitRate))])

/-- The statistics of the pool for a target, and its utilization. -/
def poolStats (target : String) (s : PoolStats) : Value :=
  .object (("target", .string target) :: s.members ++
    [("utilization", .number (.real s.utilization))])

/-- Whether the components are open, at a moment of the wall clock. -/
def health (wall : Int) (cacheOpen : Bool) (poolOpen : Option Bool) : Value :=
  .object ([("status", .string (if cacheOpen && poolOpen.getD true then "healthy" else "degraded")),
    ("timestamp", .string (Calendar.timestamp wall)), ("cache_open", .bool cacheOpen)] ++
    (poolOpen.map fun b => ("pool_open", .bool b)).toList)

end BoundedResources.Http.Body
