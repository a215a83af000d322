import BoundedResources.Cache.Cache
import BoundedResources.Proofs.Runs

/-!
# Turns at a store

A store is shared: many callers, the sweeper and whoever closes the cache take turns at it, and
each turn is one look at the flag or one hold of the lock. This file says what a turn can be
(`StoreTurn`), what it does (`Store.turn`), and what any number of turns in any order do
(`Store.run`). Every turn brings its own reading of the wall clock, so the clock may stand, jump
or run backwards between two of them.

The turns are finer than the events of a `CacheSession`: an operation that found the store open
may take its second half after the store was closed (`StoreTurn.performOpened`), closing itself
takes two turns, and a deferred removal can come at any time, for any key. What holds after every
run of turns therefore holds in every cache; `CacheSession.reaches_store` is the bridge.
-/

set_option autoImplicit false

namespace BoundedResources

/-- What happens to a store in one turn. -/
inductive StoreTurn where
  /-- An operation, from its look at the flag to its end. -/
  | perform (op : Operation)
  /-- The second half of an operation that found the store open at some earlier time. -/
  | performOpened (op : Operation)
  /-- The sweeper removes what is expired. -/
  | purge
  /-- The background work looks again at a key that a read found expired. -/
  | removeIfExpired (key : String)
  /-- The first half of closing. -/
  | markClosed
  /-- The second half of closing. -/
  | reset

/-- Whether a turn of the background work only takes away what is expired. -/
def StoreTurn.removesExpired : StoreTurn → Bool
  | .purge | .removeIfExpired _ => true
  | .perform _ | .performOpened _ | .markClosed | .reset => false

/-- Whether an operation takes away no more than what is expired, and puts nothing in. -/
def Operation.keepsLive : Operation → Bool
  | .get _ _ | .getRaw _ | .exists _ | .ttl _ | .cleanup => true
  | .set _ _ _ | .setRaw _ _ _ | .delete _ | .clear => false

/-- Whether a turn takes away no more than what is expired, and puts nothing in. -/
def StoreTurn.keepsLive : StoreTurn → Bool
  | .perform op | .performOpened op => op.keepsLive
  | .purge | .removeIfExpired _ => true
  | .markClosed | .reset => false

theorem StoreTurn.keepsLive_of_removesExpired {t : StoreTurn} (h : t.removesExpired = true) :
    t.keepsLive = true := by
  cases t with
  | purge | removeIfExpired key => rfl
  | perform | performOpened | markClosed | reset => cases h

namespace Store

/-- A turn at a wall clock reading `now`: what its caller is told, if there is one, and the store
after it. -/
def turn (s : Store) (now : Nat) : StoreTurn → Option (Except CacheError Answer) × Store
  | .perform op => ((s.perform now op).1, (s.perform now op).2)
  | .performOpened op => ((s.performOpened now op).1, (s.performOpened now op).2)
  | .purge => (none, (s.purge now).2)
  | .removeIfExpired key => (none, s.removeIfExpired now key)
  | .markClosed => (none, s.markClosed)
  | .reset => (none, s.reset)

/-- The store after a turn. -/
def after (s : Store) (now : Nat) (t : StoreTurn) : Store := (s.turn now t).2

/-- The store after some turns, each with the reading of the clock at which it is taken. -/
def run (s : Store) (turns : List (Nat × StoreTurn)) : Store := runTurns after s turns

/-- What the callers are told in the course of some turns. -/
def answers (s : Store) : List (Nat × StoreTurn) → List (Option (Except CacheError Answer))
  | [] => []
  | (now, t) :: rest => (s.turn now t).1 :: (s.turn now t).2.answers rest

/-! ## Caches take turns -/

/-- Some turns lead from one store to the other. -/
abbrev Reaches (s s' : Store) : Prop := Leads after s s'

theorem reaches_turn (s : Store) (now : Nat) (t : StoreTurn) : s.Reaches (s.turn now t).2 :=
  Leads.single s now t

theorem reaches_close (s : Store) : s.Reaches s.close := by
  unfold close
  split
  · exact .refl s
  · exact (s.reaches_turn 0 .markClosed).trans (reaches_turn _ 0 .reset)

end Store

/-- The background work that is pending: keys to be looked at again, and ticks of the sweeper. -/
def pendingChores (flagged : List String) (ticks : Nat) : List StoreTurn :=
  flagged.map .removeIfExpired ++ List.replicate ticks .purge

theorem removesExpired_of_mem_pendingChores {flagged : List String} {ticks : Nat} {t : StoreTurn}
    (ht : t ∈ pendingChores flagged ticks) : t.removesExpired = true := by
  rcases List.mem_append.mp ht with ht | ht
  · obtain ⟨key, -, rfl⟩ := List.mem_map.mp ht
    rfl
  · rw [List.eq_of_mem_replicate ht]
    rfl

/-- A cache whose sweeper runs does what is pending, the flagged keys first. -/
theorem Cache.settle_eq_run (c : Cache) (clock : Clock) {ticker : Ticker}
    (hsweeper : c.sweeper = some ticker) :
    (c.settle clock).store =
      c.store.run ((pendingChores c.flagged (ticker.catchUp clock.elapsed).1).map
        fun t => (clock.wallMillis, t)) := by
  have hflagged : (c.removeFlagged clock).store =
      c.store.run (c.flagged.map fun key => (clock.wallMillis, .removeIfExpired key)) :=
    foldl_eq_runTurns Store.after clock.wallMillis StoreTurn.removeIfExpired c.flagged c.store
  have hticks (s : Store) (n : Nat) :
      (List.range n).foldl (fun s _ => (s.purge clock.wallMillis).2) s =
        s.run (List.replicate n (clock.wallMillis, .purge)) :=
    foldl_range_eq_runTurns Store.after clock.wallMillis .purge n s
  have hrunning : c.sweeper.isNone = false := by rw [hsweeper]; rfl
  have hsame : (c.removeFlagged clock).sweeper = some ticker := hsweeper
  simp only [settle, hrunning, Bool.false_eq_true, if_false, runSweeps, hsame, hticks, hflagged]
  rw [pendingChores, List.map_append, List.map_map, List.map_replicate, Store.run, Store.run,
    Store.run, runTurns_append]
  rfl

theorem Cache.reaches_settle (c : Cache) (clock : Clock) :
    c.store.Reaches (c.settle clock).store := by
  cases hsweeper : c.sweeper with
  | none =>
    rw [settle, hsweeper]
    exact .refl c.store
  | some ticker => exact ⟨_, (c.settle_eq_run clock hsweeper).symm⟩

namespace CacheSession

theorem reaches_step (s : CacheSession) (e : CacheEvent) :
    s.cache.store.Reaches (s.step e).2.cache.store := by
  cases e with
  | perform op =>
    exact (s.cache.store.reaches_turn s.clock.wallMillis (.perform op)).trans
      (Cache.reaches_settle (s.cache.perform s.clock op).2 s.clock)
  | close => exact s.cache.store.reaches_close.trans (Cache.reaches_settle s.cache.close s.clock)
  | advance d => exact Cache.reaches_settle s.cache _
  | setWall millis => exact Cache.reaches_settle s.cache _

/-- A cache after some events. -/
def run (s : CacheSession) (events : List CacheEvent) : CacheSession :=
  events.foldl (fun s e => (s.step e).2) s

end CacheSession

end BoundedResources
