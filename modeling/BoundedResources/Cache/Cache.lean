import BoundedResources.Cache.Store
import BoundedResources.Time.Ticker

/-!
# Caches with background expiry

A cache is a store with a sweeper. The sweeper removes expired entries once per interval, and
in between those that a read has met: a read only flags the key, and the removal follows when
the background work gets its turn (`Cache.settle`), if the entry is still expired then. A
`CacheSession` is a cache with the clocks that it reads.
-/

set_option autoImplicit false

namespace BoundedResources

/-- How a cache is set up. -/
structure CacheConfig where
  /-- The most bytes of payload it holds. -/
  maxSize : Nat
  /-- The time between two sweeps of expired entries. -/
  cleanupInterval : Duration
deriving DecidableEq

/-- 100 MiB, swept every five minutes. -/
def CacheConfig.standard : CacheConfig := ⟨100 * 1024 * 1024, .ofSecs 300⟩

/-- A store with its sweeper. -/
structure Cache where
  store : Store
  /-- The keys that reads have found expired and that have not been looked at since. -/
  flagged : List String
  /-- The sweeper, until the cache is closed. -/
  sweeper : Option Ticker

namespace Cache

/-- A new cache. -/
def create (config : CacheConfig) (clock : Clock) : Cache :=
  ⟨.empty config.maxSize, [], some (.start clock.elapsed config.cleanupInterval)⟩

/-- The key that an operation flags: that of a lookup which meets an expired entry. -/
def flags? (s : Store) (now : Nat) : Operation → Option String
  | .get key _ | .getRaw key =>
    match s.contents.entries.get? key with
    | some e => if e.isExpiredAt now && !s.closed then some key else none
    | none => none
  | _ => none

/-- Performs an operation. -/
def perform (c : Cache) (clock : Clock) (op : Operation) : Except CacheError Answer × Cache :=
  let now := clock.wallMillis
  let flagged := c.flagged ++ (flags? c.store now op).toList
  let (r, store) := c.store.perform now op
  (r, { c with store := store, flagged := flagged })

/-- Removes the flagged entries that are still expired. -/
def removeFlagged (c : Cache) (clock : Clock) : Cache :=
  { c with
    store := c.flagged.foldl (fun s key => s.removeIfExpired clock.wallMillis key) c.store
    flagged := [] }

/-- Runs the sweeps that are due. -/
def runSweeps (c : Cache) (clock : Clock) : Cache :=
  match c.sweeper with
  | none => c
  | some ticker =>
    let (due, ticker) := ticker.catchUp clock.elapsed
    { c with
      store := (List.range due).foldl (fun s _ => (s.purge clock.wallMillis).2) c.store
      sweeper := some ticker }

/-- Runs all background work that is due. -/
def settle (c : Cache) (clock : Clock) : Cache :=
  if c.sweeper.isNone then { c with flagged := [] }
  else (c.removeFlagged clock).runSweeps clock

/-- Stops the sweeper and drops every entry. -/
def close (c : Cache) : Cache := { store := c.store.close, flagged := [], sweeper := none }

/-- The statistics of the cache. -/
def stats (c : Cache) (clock : Clock) : CacheStats := c.store.stats clock.wallMillis

end Cache

/-- What can happen in the life of a cache. -/
inductive CacheEvent where
  | perform (op : Operation)
  | close
  | advance (time : Duration)
  | setWall (millis : Int)

/-- A cache with the clocks that it reads. -/
structure CacheSession where
  clock : Clock
  cache : Cache

namespace CacheSession

/-- A new cache at the start of the clocks. -/
def start (config : CacheConfig) : CacheSession := ⟨.start, .create config .start⟩

/-- One event and the background work that is due after it. -/
def step (s : CacheSession) (e : CacheEvent) : Option (Except CacheError Answer) × CacheSession :=
  match e with
  | .perform op =>
    let (r, cache) := s.cache.perform s.clock op
    (some r, { s with cache := cache.settle s.clock })
  | .close => (none, { s with cache := s.cache.close.settle s.clock })
  | .advance d =>
    let clock := s.clock.advance d
    (none, ⟨clock, s.cache.settle clock⟩)
  | .setWall millis =>
    let clock := s.clock.setWall millis
    (none, ⟨clock, s.cache.settle clock⟩)

end CacheSession

end BoundedResources
