import BoundedResources.Cache.Cache
import BoundedResources.Pool.Pool
import BoundedResources.Limiter.Limiter
import BoundedResources.Limiter.TokenBuckets
import BoundedResources.Http.StoreRequest
import BoundedResources.Http.Message
import BoundedResources.Http.MediaType
import BoundedResources.Text.Percent

/-!
# The application behind the service

The application is a cache, a limiter and perhaps a connection pool. Each of its handlers answers
one kind of request; only those of the cache change anything.
-/

set_option autoImplicit false

namespace BoundedResources.Http

/-- The most bytes of a body. -/
def maxBodySize : Nat := 2 * 1024 * 1024

/-- A cache, a limiter and perhaps a pool. -/
structure App where
  cache : Cache
  limiter : Limiter SweptBuckets
  pool : Option Pool

namespace App

/-- An application that starts at a moment of the clocks. -/
def create (clock : Clock) (cache : CacheConfig) (rulebook : Rulebook)
    (pool : Option PoolConfig) : App where
  cache := .create cache clock
  limiter := ⟨rulebook, .create clock.elapsed rulebook.sweepInterval⟩
  pool := pool.map fun c => .empty c.normalized

/-- Closes the pool, if there is one. -/
def closePool (a : App) : App := { a with pool := a.pool.map Pool.close }

/-- Closes everything. -/
def shutdown (a : App) : App :=
  { cache := a.cache.close
    limiter := { a.limiter with meter := a.limiter.meter.close }
    pool := a.pool.map Pool.close }

/-- Runs all background work that is due. -/
def settle (a : App) (clock : Clock) : App :=
  { a with
    cache := a.cache.settle clock
    limiter := { a.limiter with meter := a.limiter.meter.settle clock.elapsed } }

/-! ## Handlers -/

/-- Whether the headers announce a JSON body. -/
def announcesJson (headers : List (String × String)) : Bool :=
  match ((Headers.http headers).get? "content-type").bind MediaType.parse? with
  | some type => type.isJson
  | none => false

/-- The request to store a value that a request carries, or the refusal of its body. -/
def storeRequest (r : Request) : Except Response StoreRequest :=
  if !announcesJson r.headers then .error (.refusal 415)
  else if maxBodySize < r.body.size then .error (.refusal 413)
  else
    match StoreRequest.ofBody r.body with
    | .error .mismatch => .error (.refusal 422)
    | .error _ => .error (.refusal 400)
    | .ok request => .ok request

/-- Stores a value. -/
def set (a : App) (clock : Clock) (r : Request) : Response × App :=
  match storeRequest r with
  | .error refusal => (refusal, a)
  | .ok request =>
    match request.problem? with
    | some problem => (.ofCacheError (.invalidRequest problem), a)
    | none =>
      let encoded := request.value.text.toUTF8
      match a.cache.perform clock (.set request.key (.ok encoded) (request.ttl.map .ofSecs)) with
      | (.error e, cache) => (.ofCacheError e, { a with cache := cache })
      | (.ok _, cache) => (.json 200 (Body.stored request.key), { a with cache := cache })

/-- What is left of the lifetime of a key, in whole seconds; none if it never ends. -/
def secondsLeft (a : App) (clock : Clock) (key : String) : Option Nat :=
  match (a.cache.perform clock (.ttl key)).1 with
  | .ok (.lifetime left) => left.map Duration.secs
  | _ => none

/-- Reads the value of a key. -/
def get (a : App) (clock : Clock) (segment : String) : Response × App :=
  match Percent.decode? segment with
  | none => (.refusal 400, a)
  | some key =>
    match a.cache.perform clock (.get key Json.Reader.value) with
    | (.ok (.value v), cache) =>
      let a := { a with cache := cache }
      (.json 200 (Body.found key v (a.secondsLeft clock key)), a)
    | (.error e, cache) => (.ofCacheError e, { a with cache := cache })
    | (.ok _, cache) => (.bare 200, { a with cache := cache })

/-- Deletes a key. -/
def delete (a : App) (clock : Clock) (segment : String) : Response × App :=
  match Percent.decode? segment with
  | none => (.refusal 400, a)
  | some key =>
    match a.cache.perform clock (.delete key) with
    | (.error e, cache) => (.ofCacheError e, { a with cache := cache })
    | (.ok _, cache) => (.json 200 (Body.deleted key), { a with cache := cache })

/-- The statistics of the cache. -/
def cacheStats (a : App) (clock : Clock) : Response :=
  .json 200 (Body.cacheStats (a.cache.stats clock))

/-- The statistics of the pool, if there is one. -/
def poolStats (a : App) : Response :=
  match a.pool with
  | some p => .json 200 (Body.poolStats p.config.target p.stats)
  | none => .json 404 (Body.error "No connection pool configured")

/-- The statistics of the limiter. -/
def limiterStats (a : App) : Response := .json 200 a.limiter.meter.buckets.counts.toJson

/-- Whether the components are open. -/
def health (a : App) (clock : Clock) : Response :=
  .json 200 (Body.health clock.wall (!a.cache.store.closed) (a.pool.map fun p => !p.closed))

end App

end BoundedResources.Http
