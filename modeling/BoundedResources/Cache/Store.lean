import BoundedResources.Table
import BoundedResources.Cache.Entry
import BoundedResources.Cache.WriteOrder
import BoundedResources.Cache.Tally
import BoundedResources.Cache.Error
import BoundedResources.Json.Reader
import BoundedResources.Json.Printer

/-!
# The store of a cache

A store holds entries up to a budget of bytes. Its contents are three structures that have to
agree: the entries by key, the order in which they were written, and the sum of their sizes.
A write that does not fit evicts the entries that were written first, expired or not, until it
does. Reads never change the contents; an expired entry is as good as missing for them.

Every operation first looks whether the store is open and then works on the contents in one
step (`Store.perform`). The second half stands alone as `Store.performOpened`, because in a
concurrent run other steps may come between the two; a write therefore looks once more at the
flag before it changes the contents.
-/

set_option autoImplicit false

namespace BoundedResources

/-- The entries of a store, their order and their summed size. -/
structure Contents where
  entries : Table Entry
  order : WriteOrder
  bytes : Nat

namespace Contents

/-- No entries, and no writes so far. -/
def empty : Contents := ⟨[], .empty, 0⟩

/-- Takes the entry of a key out. -/
def remove (c : Contents) (key : String) : Option Entry × Contents :=
  match c.entries.get? key with
  | none => (none, c)
  | some e =>
    (some e, ⟨c.entries.erase key, (c.order.remove e.seq).2, c.bytes - e.size⟩)

/-- Takes the entries of the given writes out, oldest first, until `size` more bytes fit the
budget; tells how many entries went. -/
def evictUntilFits (budget size : Nat) (entries : Table Entry) (bytes next : Nat) :
    List (Nat × String) → Nat × Contents
  | [] => (0, ⟨entries, ⟨[], next⟩, bytes⟩)
  | (seq, key) :: rest =>
    if bytes + size ≤ budget then (0, ⟨entries, ⟨(seq, key) :: rest, next⟩, bytes⟩)
    else
      match entries.get? key with
      | none => evictUntilFits budget size entries bytes next rest
      | some e =>
        let (n, c) := evictUntilFits budget size (entries.erase key) (bytes - e.size) next rest
        (n + 1, c)

/-- Makes room for `size` bytes. -/
def makeRoom (c : Contents) (budget size : Nat) : Nat × Contents :=
  evictUntilFits budget size c.entries c.bytes c.order.next c.order.writes

/-- Writes a payload under a key, dropping what was there and making room; tells how many
entries were evicted. -/
def write (c : Contents) (budget now : Nat) (key : String) (payload : ByteArray)
    (ttl : Option Duration) : Nat × Contents :=
  let (_, c) := c.remove key
  let (evicted, c) := c.makeRoom budget payload.size
  let (seq, order) := c.order.push key
  (evicted,
    ⟨c.entries.insert key (.create payload ttl seq now), order, c.bytes + payload.size⟩)

/-- The entry of a key, unless it is expired. -/
def live? (c : Contents) (now : Nat) (key : String) : Option Entry :=
  (c.entries.get? key).filter fun e => !e.isExpiredAt now

/-- The keys of the entries that are expired. -/
def expiredKeys (c : Contents) (now : Nat) : List String :=
  (c.entries.filter fun p => p.2.isExpiredAt now).map (·.1)

/-- Takes every expired entry out; tells how many there were. -/
def purge (c : Contents) (now : Nat) : Nat × Contents :=
  let keys := c.expiredKeys now
  (keys.length, keys.foldl (fun c key => (c.remove key).2) c)

/-- Drops every entry; sequence numbers keep increasing. -/
def clear (c : Contents) : Contents := ⟨[], c.order.clear, 0⟩

/-- The summed size of entries. -/
def totalSize : Table Entry → Nat
  | [] => 0
  | (_, e) :: rest => e.size + totalSize rest

/-- How many entries are not expired, and their summed size. -/
def liveUsage (c : Contents) (now : Nat) : Nat × Nat :=
  let live := c.entries.filter fun p => !p.2.isExpiredAt now
  (live.length, totalSize live)

end Contents

/-- What a cache can be asked to do. -/
inductive Operation where
  /-- Stores an encoded value, if it could be encoded. -/
  | set (key : String) (encoded : Except Json.Fault ByteArray) (ttl : Option Duration)
  | setRaw (key : String) (payload : ByteArray) (ttl : Option Duration)
  /-- Looks a value up and decodes it. -/
  | get (key : String) (reader : Json.Reader Json.Value)
  | getRaw (key : String)
  | exists (key : String)
  | ttl (key : String)
  | delete (key : String)
  | clear
  /-- Removes the expired entries now. -/
  | cleanup

/-- What an operation answers. -/
inductive Answer where
  | done
  | value (v : Json.Value)
  | payload (bytes : ByteArray)
  | found (present : Bool)
  | lifetime (left : Option Duration)
  | removed (count : Nat)

/-- A store: its contents, its tally, its budget and whether it was closed. -/
structure Store where
  contents : Contents
  tally : CacheTally
  budget : Nat
  closed : Bool

namespace Store

/-- An open store without entries. -/
def empty (budget : Nat) : Store := ⟨.empty, .zero, budget, false⟩

/-- The half of a write that works on the contents. -/
def setRaw (s : Store) (now : Nat) (key : String) (payload : ByteArray) (ttl : Option Duration) :
    Except CacheError Answer × Store :=
  if s.budget < payload.size then
    (.error (.entryTooLarge payload.size s.budget), { s with tally := s.tally.error 1 })
  else if s.closed then (.error .closed, s)
  else
    let (evicted, contents) := s.contents.write s.budget now key payload ttl
    (.ok .done,
      { s with contents := contents, tally := (s.tally.set 1).evicted evicted })

/-- The half of a lookup that works on the contents. -/
def getRaw (s : Store) (now : Nat) (key : String) : Except CacheError ByteArray × Store :=
  match s.contents.live? now key with
  | some e => (.ok e.payload, { s with tally := s.tally.hit 1 })
  | none => (.error (.notFound key), { s with tally := s.tally.miss 1 })

/-- A lookup that decodes what it finds. -/
def get (s : Store) (now : Nat) (key : String) (reader : Json.Reader Json.Value) :
    Except CacheError Answer × Store :=
  match s.getRaw now key with
  | (.error e, s) => (.error e, s)
  | (.ok payload, s) =>
    match Json.decode reader payload.data.toList with
    | .ok v => (.ok (.value v), s)
    | .error fault => (.error (.serialization fault), { s with tally := s.tally.error 1 })

/-- The half of a deletion that works on the contents. -/
def delete (s : Store) (key : String) : Except CacheError Answer × Store :=
  match s.contents.remove key with
  | (none, _) => (.error (.notFound key), s)
  | (some _, contents) =>
    (.ok .done, { s with contents := contents, tally := s.tally.delete 1 })

/-- Removes every expired entry; tells how many there were. -/
def purge (s : Store) (now : Nat) : Nat × Store :=
  let (removed, contents) := s.contents.purge now
  (removed, { s with contents := contents, tally := s.tally.expired removed })

/-- Removes the entry of a key if it is expired. -/
def removeIfExpired (s : Store) (now : Nat) (key : String) : Store :=
  match s.contents.entries.get? key with
  | none => s
  | some e =>
    if e.isExpiredAt now then
      { s with contents := (s.contents.remove key).2, tally := s.tally.expired 1 }
    else s

/-- The half of an operation that follows the look at whether the store is open. -/
def performOpened (s : Store) (now : Nat) : Operation → Except CacheError Answer × Store
  | .set _ (.error fault) _ =>
    (.error (.serialization fault), { s with tally := s.tally.error 1 })
  | .set key (.ok payload) ttl => s.setRaw now key payload ttl
  | .setRaw key payload ttl => s.setRaw now key payload ttl
  | .get key reader => s.get now key reader
  | .getRaw key =>
    let (r, s) := s.getRaw now key
    (r.map .payload, s)
  | .exists key => (.ok (.found (s.contents.live? now key).isSome), s)
  | .ttl key =>
    match s.contents.live? now key with
    | some e => (.ok (.lifetime (e.remaining now)), s)
    | none => (.error (.notFound key), s)
  | .delete key => s.delete key
  | .clear => (.ok .done, { s with contents := s.contents.clear })
  | .cleanup =>
    let (removed, s) := s.purge now
    (.ok (.removed removed), s)

/-- An operation, from the look at whether the store is open to its end. -/
def perform (s : Store) (now : Nat) (op : Operation) : Except CacheError Answer × Store :=
  if s.closed then (.error .closed, s) else s.performOpened now op

/-- The first half of closing: from here on no operation gets past its look at the flag. -/
def markClosed (s : Store) : Store := { s with closed := true }

/-- The second half of closing: the contents go. -/
def reset (s : Store) : Store := { s with contents := .empty }

/-- Closes the store, the first time that it is asked to. -/
def close (s : Store) : Store := if s.closed then s else s.markClosed.reset

/-- How many entries are stored, expired ones included. -/
def size (s : Store) : Nat := s.contents.entries.length

/-- The tally beside the number and the size of the entries that are not expired. -/
def stats (s : Store) (now : Nat) : CacheStats :=
  let (entries, bytes) := s.contents.liveUsage now
  s.tally.snapshot entries bytes s.budget

end Store

end BoundedResources
