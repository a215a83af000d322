/-!
# The order of writes

Every write draws the next sequence number. Writes can be forgotten one by one from anywhere in
the order, from its oldest end, or all at once; numbers are never drawn again. The writes are
kept in ascending order of their numbers, oldest first.
-/

set_option autoImplicit false

namespace BoundedResources

/-- The writes that are still known, oldest first, and the next sequence number. -/
structure WriteOrder where
  writes : List (Nat × String)
  next : Nat
deriving DecidableEq

namespace WriteOrder

/-- No write has happened yet. -/
def empty : WriteOrder := ⟨[], 0⟩

instance : Inhabited WriteOrder := ⟨empty⟩

/-- A write of `key`, and the number that it draws. -/
def push (o : WriteOrder) (key : String) : Nat × WriteOrder :=
  (o.next, ⟨o.writes ++ [(o.next, key)], o.next + 1⟩)

/-- The key that was written under a number. -/
def keyOf? : List (Nat × String) → Nat → Option String
  | [], _ => none
  | (s, key) :: rest, seq => if s = seq then some key else keyOf? rest seq

/-- Forgets the write with a number, and tells its key. -/
def remove (o : WriteOrder) (seq : Nat) : Option String × WriteOrder :=
  (keyOf? o.writes seq, { o with writes := o.writes.filter (·.1 ≠ seq) })

/-- Forgets the oldest write, and tells its key. -/
def popOldest (o : WriteOrder) : Option String × WriteOrder :=
  match o.writes with
  | [] => (none, o)
  | (_, key) :: rest => (some key, { o with writes := rest })

/-- Forgets every write; numbers keep increasing. -/
def clear (o : WriteOrder) : WriteOrder := { o with writes := [] }

/-- How many writes are known. -/
def size (o : WriteOrder) : Nat := o.writes.length

/-- Whether no write is known. -/
def isEmpty (o : WriteOrder) : Bool := o.writes.isEmpty

end WriteOrder

end BoundedResources
