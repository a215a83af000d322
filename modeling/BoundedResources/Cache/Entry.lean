import BoundedResources.Time.Clock

/-!
# Cache entries

An entry keeps a payload, when it was written and when it expires. A lifetime of zero, like
none, never ends; one that reaches past the last 64-bit millisecond ends there. An entry is
expired from the very millisecond of its deadline on.
-/

set_option autoImplicit false

namespace BoundedResources

/-- The last millisecond of the wall clock. -/
def lastMillis : Nat := 18_446_744_073_709_551_615

/-- A stored payload. -/
structure Entry where
  payload : ByteArray
  /-- When it was written, in milliseconds of the wall clock. -/
  createdAt : Nat
  /-- The millisecond from which on it is expired; none if it never is. -/
  expiresAt : Option Nat
  /-- The bytes that it is charged for. -/
  size : Nat
  /-- Its place in the order of writes. -/
  seq : Nat

namespace Entry

/-- The deadline of a payload written at `now` with a lifetime. -/
def deadline (now : Nat) (ttl : Option Duration) : Option Nat :=
  match ttl with
  | none => none
  | some d => if d.nanos = 0 then none else some (min (now + min d.millis lastMillis) lastMillis)

/-- A payload written at `now`. -/
def create (payload : ByteArray) (ttl : Option Duration) (seq now : Nat) : Entry where
  payload := payload
  createdAt := now
  expiresAt := deadline now ttl
  size := payload.size
  seq := seq

/-- Whether the entry is expired at `now`. -/
def isExpiredAt (e : Entry) (now : Nat) : Bool :=
  match e.expiresAt with
  | none => false
  | some deadline => deadline ≤ now

/-- What is left of the lifetime at `now`: zero once expired, none if it never ends. -/
def remaining (e : Entry) (now : Nat) : Option Duration :=
  e.expiresAt.map fun deadline => Duration.ofMillis (deadline - now)

end Entry

end BoundedResources
