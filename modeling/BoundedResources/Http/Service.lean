import BoundedResources.Http.App
import BoundedResources.Http.Route

/-!
# The service

A request passes three gates on its way to a handler. A preflight request, of the method
`OPTIONS`, is answered before anything else. A request for a route goes through the limiter,
unless it asks for the health of the service, and a rejected one goes no further; the answer to
a request that a quota applied to tells of the quota. Last, a method that is not one of the
route's own is refused.

Every answer may be read by pages of any origin. Whoever comes to a route with another method
than its own is told its methods, whatever else the answer is.
-/

set_option autoImplicit false

namespace BoundedResources.Http

namespace Response

/-- The answer without its body. -/
def withoutBody (r : Response) : Response :=
  match r.content with
  | .text _ => { r with content := .text "" }
  | .diagnostic => r

end Response

/-- The headers of every answer: any origin may read it. -/
def sharedHeaders : List (String × String) :=
  [("access-control-allow-origin", "*"),
   ("vary", "origin, access-control-request-method, access-control-request-headers")]

/-- The headers of the answer to a preflight request: any method and any header may be used. -/
def preflightHeaders : List (String × String) :=
  [("access-control-allow-methods", "*"), ("access-control-allow-headers", "*")]

/-- Whether a request only asks what it may ask for. -/
def Request.isPreflight (r : Request) : Bool := r.method == "OPTIONS"

namespace App

/-- The handler of a route. -/
def follow (a : App) (clock : Clock) (route : Route) (r : Request) : Response × App :=
  match route with
  | .set => a.set clock r
  | .get segment => a.get clock segment
  | .delete segment => a.delete clock segment
  | .cacheStats => (a.cacheStats clock, a)
  | .poolStats => (a.poolStats, a)
  | .limiterStats => (a.limiterStats, a)
  | .health => (a.health clock, a)

/-- The handler of a route, for its own methods. -/
def followOwn (a : App) (clock : Clock) (route : Route) (r : Request) : Response × App :=
  if route.accepts r.method then a.follow clock route r else (.bare 405, a)

/-- The answer to a request that the limiter has rejected, if it has. -/
def rejection? : Clearance → Option Response
  | .unlimited | .allowed .. => none
  | .blocked message => some (.json 403 (Body.error message))
  | .throttled _ _ verdict message =>
    some ((Response.json 429 (Body.error message)).withHeaders
      [("retry-after", toString verdict.resetIn.secs)])

/-- The way of a request through the limiter. -/
def gate (a : App) (clock : Clock) (route : Route) (r : Request) : Response × App :=
  let (clearance, limiter) :=
    a.limiter.check clock.elapsed (pathOf r.target) (.http r.headers) 1
  let a := { a with limiter := limiter }
  let (response, a) := match rejection? clearance with
    | some rejection => (rejection, a)
    | none => a.followOwn clock route r
  (response.withSendable clearance.headers, a)

/-- The answer to a request for a route. -/
def visit (a : App) (clock : Clock) (route : Route) (r : Request) : Response × App :=
  let (response, a) :=
    if r.isPreflight then ((Response.bare 200).withHeaders preflightHeaders, a)
    else if route.limited then a.gate clock route r
    else a.followOwn clock route r
  if route.accepts r.method then
    (if r.method == "HEAD" then response.withoutBody else response, a)
  else (response.withHeaders [("allow", route.allow)], a)

/-- The answer to a request. -/
def serve (a : App) (clock : Clock) (r : Request) : Response × App :=
  let (response, a) := match Route.ofPath? (pathOf r.target) with
    | some route => a.visit clock route r
    | none =>
      if r.isPreflight then ((Response.bare 200).withHeaders preflightHeaders, a)
      else (.bare 404, a)
  (response.withHeaders sharedHeaders, a)

/-- The answer to the last of several equal requests. -/
def serveTimes (a : App) (clock : Clock) (r : Request) : Nat → Option Response × App
  | 0 => (none, a)
  | n + 1 =>
    let (response, a) := a.serve clock r
    if n = 0 then (some response, a) else a.serveTimes clock r n

end App

/-- What can happen in the life of a service. -/
inductive ServiceEvent where
  /-- A request comes, perhaps several times in a row. -/
  | request (r : Request) (times : Nat)
  | advance (time : Duration)
  | setWall (millis : Int)
  | closePool
  | shutdown

/-- An application with the clocks that it reads. -/
structure Service where
  clock : Clock
  app : App

namespace Service

/-- A service at the start of the clocks. -/
def start (cache : CacheConfig) (rulebook : Rulebook) (pool : Option PoolConfig) : Service :=
  ⟨.start, .create .start cache rulebook pool⟩

/-- One event and the background work that is due after it. -/
def step (s : Service) (e : ServiceEvent) : Option Response × Service :=
  match e with
  | .request r times =>
    let (response, app) := s.app.serveTimes s.clock r times
    (response, { s with app := app.settle s.clock })
  | .advance d =>
    let clock := s.clock.advance d
    (none, ⟨clock, s.app.settle clock⟩)
  | .setWall millis =>
    let clock := s.clock.setWall millis
    (none, ⟨clock, s.app.settle clock⟩)
  | .closePool => (none, { s with app := s.app.closePool.settle s.clock })
  | .shutdown => (none, { s with app := s.app.shutdown.settle s.clock })

end Service

end BoundedResources.Http
