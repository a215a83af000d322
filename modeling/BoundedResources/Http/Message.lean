import BoundedResources.Cache.Error
import BoundedResources.Http.Body

/-!
# Requests and answers

A request names a method and a target and carries headers and a body. An answer has a status,
headers and a body; a body without a text is a diagnostic whose wording is not settled here.
-/

set_option autoImplicit false

namespace BoundedResources.Http

/-- A request. -/
structure Request where
  method : String
  target : String
  headers : List (String × String)
  body : ByteArray

/-- The body of an answer. -/
inductive Content where
  | text (s : String)
  /-- A plain text that explains a refusal to a person. -/
  | diagnostic
deriving DecidableEq

/-- An answer. -/
structure Response where
  status : Nat
  headers : List (String × String)
  content : Content
deriving DecidableEq

/-- Whether a text can be sent as the value of a header. -/
def isHeaderValue (s : String) : Bool :=
  s.toList.all fun c => (0x20 ≤ c.toNat && c.toNat != 0x7F) || c == '\t'

namespace Response

/-- An answer without headers and with an empty body. -/
def bare (status : Nat) : Response := ⟨status, [], .text ""⟩

/-- An answer with a JSON body. -/
def json (status : Nat) (body : Json.Value) : Response :=
  ⟨status, [("content-type", "application/json")], .text body.text⟩

/-- A refusal that is explained in plain text. -/
def refusal (status : Nat) : Response :=
  ⟨status, [("content-type", "text/plain; charset=utf-8")], .diagnostic⟩

/-- The answer with further headers. -/
def withHeaders (r : Response) (headers : List (String × String)) : Response :=
  { r with headers := r.headers ++ headers }

/-- The answer with those of further headers that can be sent. -/
def withSendable (r : Response) (headers : List (String × String)) : Response :=
  r.withHeaders (headers.filter fun p => isHeaderValue p.2)

/-- The status of the answer to a failed cache operation. -/
def cacheErrorStatus : CacheError → Nat
  | .notFound _ => 404
  | .closed => 503
  | .serialization _ => 422
  | .entryTooLarge _ _ => 413
  | .invalidRequest _ => 400

/-- The answer to a failed cache operation. -/
def ofCacheError (e : CacheError) : Response :=
  json (cacheErrorStatus e) (Body.error (e.message Json.Fault.text))

end Response

end BoundedResources.Http
