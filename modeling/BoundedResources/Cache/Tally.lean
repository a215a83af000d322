import BoundedResources.Json.Value

/-!
# Cache statistics

Counters count without bound and are shown as 64-bit words. A snapshot puts them beside the
occupancy of the cache; its hit rate is the share of lookups that hit, and zero without any.
-/

set_option autoImplicit false

namespace BoundedResources

/-- What has happened in a cache. -/
structure CacheTally where
  hits : Nat
  misses : Nat
  sets : Nat
  deletes : Nat
  errors : Nat
  evictions : Nat
  expirations : Nat
deriving DecidableEq

/-- The tally and the occupancy of a cache at one moment. -/
structure CacheStats where
  hits : Nat
  misses : Nat
  sets : Nat
  deletes : Nat
  errors : Nat
  evictions : Nat
  expirations : Nat
  totalEntries : Nat
  memoryUsage : Nat
  maxSize : Nat
deriving DecidableEq

namespace CacheTally

/-- Nothing has happened yet. -/
def zero : CacheTally := ⟨0, 0, 0, 0, 0, 0, 0⟩

instance : Inhabited CacheTally := ⟨zero⟩

/-- Counts a lookup that found a live entry. -/
def hit (c : CacheTally) (n : Nat) : CacheTally := { c with hits := c.hits + n }

/-- Counts a lookup that found none. -/
def miss (c : CacheTally) (n : Nat) : CacheTally := { c with misses := c.misses + n }

/-- Counts a stored payload. -/
def set (c : CacheTally) (n : Nat) : CacheTally := { c with sets := c.sets + n }

/-- Counts a deleted entry. -/
def delete (c : CacheTally) (n : Nat) : CacheTally := { c with deletes := c.deletes + n }

/-- Counts a failure to encode, decode or fit a value. -/
def error (c : CacheTally) (n : Nat) : CacheTally := { c with errors := c.errors + n }

/-- Counts entries that made room for a new one. -/
def evicted (c : CacheTally) (n : Nat) : CacheTally :=
  { c with evictions := c.evictions + n }

/-- Counts entries that were removed because they had expired. -/
def expired (c : CacheTally) (n : Nat) : CacheTally :=
  { c with expirations := c.expirations + n }

/-- The tally as 64-bit words beside an occupancy. -/
def snapshot (c : CacheTally) (entries bytes budget : Nat) : CacheStats where
  hits := c.hits % 18_446_744_073_709_551_616
  misses := c.misses % 18_446_744_073_709_551_616
  sets := c.sets % 18_446_744_073_709_551_616
  deletes := c.deletes % 18_446_744_073_709_551_616
  errors := c.errors % 18_446_744_073_709_551_616
  evictions := c.evictions % 18_446_744_073_709_551_616
  expirations := c.expirations % 18_446_744_073_709_551_616
  totalEntries := entries
  memoryUsage := bytes
  maxSize := budget

end CacheTally

namespace CacheStats

/-- The share of lookups that hit, zero without any lookup. -/
def hitRate (s : CacheStats) : Float :=
  if s.hits + s.misses = 0 then 0.0
  else Float.ofNat s.hits / Float.ofNat (s.hits + s.misses)

/-- The members of the written form. -/
def members (s : CacheStats) : List (String × Json.Value) :=
  [("hits", .nat s.hits), ("misses", .nat s.misses), ("sets", .nat s.sets),
   ("deletes", .nat s.deletes), ("errors", .nat s.errors), ("evictions", .nat s.evictions),
   ("expirations", .nat s.expirations), ("total_entries", .nat s.totalEntries),
   ("memory_usage_bytes", .nat s.memoryUsage), ("max_size_bytes", .nat s.maxSize)]

/-- The statistics as a JSON object. -/
def toJson (s : CacheStats) : Json.Value := .object s.members

end CacheStats

end BoundedResources
