import BoundedResources.Time.Duration

/-!
# Rulebooks

A rulebook says what a limiter lets through: rules for the paths with a certain beginning, a rule
for all other paths, and bans on header values. It is built rule by rule; of the rules that fit a
path the first one counts.
-/

set_option autoImplicit false

namespace BoundedResources

/-- A positive number of requests that fits a 32-bit word. -/
structure Allowance where
  count : Nat
  positive : 0 < count
  bounded : count < 4_294_967_296
deriving DecidableEq

/-- An allowance of `n` requests, if `n` is a positive 32-bit word. -/
def Allowance.ofNat? (n : Nat) : Option Allowance :=
  if h : 0 < n ∧ n < 4_294_967_296 then some ⟨n, h.1, h.2⟩ else none

/-- How many requests a rule lets through in a period. -/
inductive Quota where
  | unlimited
  | block
  | limit (allowance : Allowance)
deriving DecidableEq

/-- The quota of `n` requests; none at all for zero. -/
def Quota.ofCount (n : Nat) : Quota :=
  match Allowance.ofNat? n with
  | some a => .limit a
  | none => .block

/-- A quota for the paths with a certain beginning, charged by the values of some headers. -/
structure PathRule where
  pathStart : String
  headers : List String
  quota : Quota
  period : Duration
  message : Option String
deriving DecidableEq

/-- A header value that is never let through. -/
structure HeaderBan where
  header : String
  value : String
deriving DecidableEq

/-- The default time between two sweeps of idle buckets, one minute. -/
def standardSweepInterval : Duration := .ofSecs 60

/-- What a limiter lets through. -/
structure Rulebook where
  /-- Whether nothing is limited at all. -/
  disabled : Bool
  /-- The rules; the first one whose beginning fits decides. -/
  rules : List PathRule
  bans : List HeaderBan
  /-- The rule for paths that no other rule fits. -/
  fallback : Option PathRule
  /-- The time between two sweeps of idle buckets. -/
  sweepInterval : Duration
deriving DecidableEq

namespace Rulebook

/-- The rulebook that limits nothing. -/
def empty : Rulebook := ⟨false, [], [], none, standardSweepInterval⟩

/-- The rulebook with a further rule, behind the others. -/
def addRule (b : Rulebook) (r : PathRule) : Rulebook := { b with rules := b.rules ++ [r] }

/-- The rulebook with a further ban, behind the others. -/
def addBan (b : Rulebook) (ban : HeaderBan) : Rulebook := { b with bans := b.bans ++ [ban] }

end Rulebook

/-! ## Whole seconds -/

/-- The rule with its period cut to whole seconds. -/
def PathRule.wholeSeconds (r : PathRule) : PathRule := { r with period := r.period.truncateToSecs }

/-- The rulebook with all lengths of time cut to whole seconds. -/
def Rulebook.wholeSeconds (b : Rulebook) : Rulebook :=
  { b with
    rules := b.rules.map PathRule.wholeSeconds
    fallback := b.fallback.map PathRule.wholeSeconds
    sweepInterval := b.sweepInterval.truncateToSecs }

end BoundedResources
