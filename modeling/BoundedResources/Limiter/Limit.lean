import BoundedResources.Limiter.Rulebook
import BoundedResources.Limiter.Headers

/-!
# The limit of a request

The limit of a request follows from its path and its headers. A banned header value decides
first. Otherwise the first rule whose beginning fits the path does, or the rule for other paths.
A quota is charged to a key composed of the values of the rule's headers; a request with none of
them is not limited. Headers are looked up under their names in lower case, however a rulebook
spells them.
-/

set_option autoImplicit false

namespace BoundedResources

/-- A quota and the key that it is charged to. -/
structure Charge where
  key : String
  allowance : Allowance
  period : Duration
  message : String
deriving DecidableEq

/-- The limit of a request. -/
inductive Limit where
  | unlimited
  | blocked (message : String)
  | limited (charge : Charge)
deriving DecidableEq

namespace HeaderBan

/-- Whether a request carries the banned value. -/
def hits (b : HeaderBan) (h : Headers) : Bool := h.get? b.header.toLower == some b.value

/-- What a request with the banned value is told. -/
def message (b : HeaderBan) : String := b.header.toLower ++ " '" ++ b.value ++ "' is blocked"

end HeaderBan

namespace PathRule

/-- Whether a path begins as the rule wants it to. -/
def fits (r : PathRule) (path : String) : Bool := r.pathStart.toList.isPrefixOf path.toList

/-- The non-empty values of the rule's headers, in the rule's order. -/
def values (r : PathRule) (h : Headers) : List String :=
  r.headers.filterMap fun name => (h.get? name.toLower).filter fun v => !v.isEmpty

/-- The key that a request is charged to: each value behind a point, and empty without any. -/
def key (r : PathRule) (h : Headers) : String :=
  String.join ((r.values h).map fun v => "." ++ v)

/-- What a request over the quota is told. -/
def exceeded (r : PathRule) (allowance : Allowance) : String :=
  r.message.getD
    ("rate limit of " ++ toString allowance.count ++ " per " ++ r.period.text ++ " exceeded")

/-- The limit that the rule sets for a request. -/
def limit (r : PathRule) (path : String) (h : Headers) : Limit :=
  match r.quota with
  | .unlimited => .unlimited
  | .block => .blocked (r.message.getD (path ++ " is blocked"))
  | .limit allowance =>
    let key := r.key h
    if key.isEmpty then .unlimited
    else .limited ⟨key, allowance, r.period, r.exceeded allowance⟩

end PathRule

namespace Rulebook

/-- The rule for a path. -/
def ruleFor (b : Rulebook) (path : String) : Option PathRule :=
  (b.rules.find? (·.fits path)).or b.fallback

/-- The limit of a request. -/
def limit (b : Rulebook) (path : String) (h : Headers) : Limit :=
  if b.disabled then .unlimited
  else
    match b.bans.find? (·.hits h) with
    | some ban => .blocked ban.message
    | none =>
      match b.ruleFor path with
      | none => .unlimited
      | some r => r.limit path h

end Rulebook

end BoundedResources
