import BoundedResources.Time.Duration

/-!
# Pool errors
-/

set_option autoImplicit false

namespace BoundedResources

/-- Why a pool gives no connection. -/
inductive PoolError where
  /-- The pool was closed. -/
  | closed
  /-- Every connection is checked out and the pool has its maximum size. -/
  | noAvailableConnections (maxSize : Nat)
  /-- Opening a connection failed. -/
  | dial (target cause : String)
  /-- Opening a connection took too long. -/
  | dialTimeout (target : String) (timeout : Duration)
deriving DecidableEq

/-- The text of an error. -/
def PoolError.message : PoolError → String
  | .closed => "Connection pool is closed"
  | .noAvailableConnections maxSize =>
    "No available connections (max size " ++ toString maxSize ++ " reached)"
  | .dial target cause => "Failed to connect to " ++ target ++ ": " ++ cause
  | .dialTimeout target timeout =>
    "Timed out after " ++ timeout.text ++ " connecting to " ++ target

end BoundedResources
