import BoundedResources.Limiter.Limit
import BoundedResources.Limiter.Meter

/-!
# Clearance of requests

A limiter looks the limit of a request up in its rulebook and, if a quota applies, asks its meter
for the requests to be charged. Only then is anything spent; the meter is not asked about requests
that no rule limits or that are blocked.
-/

set_option autoImplicit false

namespace BoundedResources

/-- What a limiter says about a request. -/
inductive Clearance where
  | unlimited
  | blocked (message : String)
  /-- Within the quota. -/
  | allowed (key : String) (allowance : Allowance) (verdict : Verdict)
  /-- Over the quota. -/
  | throttled (key : String) (allowance : Allowance) (verdict : Verdict) (message : String)
deriving DecidableEq

namespace Clearance

/-- Whether the request may proceed. -/
def mayProceed : Clearance → Bool
  | .unlimited | .allowed .. => true
  | .blocked _ | .throttled .. => false

/-- The headers that describe a quota and what is left of it. -/
def quotaHeaders (key : String) (allowance : Allowance) (verdict : Verdict) :
    List (String × String) :=
  [("x-ratelimit-limit", toString allowance.count),
   ("x-ratelimit-remaining", toString verdict.remaining),
   ("x-ratelimit-reset", toString verdict.resetIn.secs),
   ("x-ratelimit-resource", key)]

/-- The headers for the answer to the request, none if no quota applied. -/
def headers : Clearance → List (String × String)
  | .allowed key allowance verdict | .throttled key allowance verdict _ =>
    quotaHeaders key allowance verdict
  | .unlimited | .blocked _ => []

/-- What follows for a request from the verdict on its charge. -/
def ofVerdict (charge : Charge) (verdict : Verdict) : Clearance :=
  if verdict.allowed then .allowed charge.key charge.allowance verdict
  else .throttled charge.key charge.allowance verdict charge.message

end Clearance

/-- A rulebook with a meter that keeps the accounts. -/
structure Limiter (M : Type) where
  rulebook : Rulebook
  meter : M

namespace Limiter

variable {M : Type} [Meter M]

/-- Decides at `now` whether a request may spend `n` requests of its quota. -/
def check (l : Limiter M) (now : Nat) (path : String) (headers : Headers) (n : Nat) :
    Clearance × Limiter M :=
  match l.rulebook.limit path headers with
  | .unlimited => (.unlimited, l)
  | .blocked message => (.blocked message, l)
  | .limited charge =>
    let (verdict, meter) :=
      Meter.spend l.meter now charge.key charge.allowance charge.period n
    (.ofVerdict charge verdict, { l with meter := meter })

end Limiter

end BoundedResources
