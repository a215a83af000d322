import BoundedResources.Cache.Cache
import BoundedResources.Pool.Config
import BoundedResources.Limiter.RulebookJson
import BoundedResources.Settings.Folder
import BoundedResources.Text.Quoted

/-!
# Settings of a service

The settings of a service come from named variables, each of which has a default. A number that
cannot be read counts as not given. There is a pool only if it has a target, and rules for the
limiter only if a file of them is named; the interval between two sweeps of idle buckets is
always that of the settings, whatever the file says.
-/

set_option autoImplicit false

namespace BoundedResources

/-- The settings of a service. -/
structure Settings where
  cache : CacheConfig
  pool : Option PoolConfig
  /-- The file of rules for the limiter. -/
  rules : Option String
  /-- The time between two sweeps of idle buckets. -/
  sweepInterval : Duration
  port : Nat
deriving DecidableEq

/-- Why there is no rulebook. -/
inductive SettingsError where
  | readRules (path : String) (failure : ReadFailure)
  | parseRules (path : String) (fault : Json.Fault)

/-- The text of an error; `explain` gives the text of a fault in a JSON document. -/
def SettingsError.message (explain : Json.Fault → String) : SettingsError → String
  | .readRules path failure =>
    "Failed to read limiter rules from " ++ Text.quoted path ++ ": " ++ failure.message
  | .parseRules path fault =>
    "Invalid limiter rules in " ++ Text.quoted path ++ ": " ++ explain fault

namespace Settings

/-- The settings when no variable is given. -/
def standard : Settings where
  cache := .standard
  pool := none
  rules := none
  sweepInterval := standardSweepInterval
  port := 3000

/-- The number that decimal digits stand for, at least one of them. -/
def digits? (cs : List Char) : Option Nat :=
  if !cs.isEmpty && cs.all Char.isDigit then
    some (cs.foldl (fun n c => 10 * n + (c.toNat - '0'.toNat)) 0)
  else none

/-- A number up to a bound: decimal digits, perhaps behind a plus sign. -/
def number? (bound : Nat) (s : String) : Option Nat :=
  let digits := match s.toList with
    | '+' :: rest => digits? rest
    | cs => digits? cs
  digits.filter (· ≤ bound)

/-- Reads the settings from variables. -/
def ofVariables (lookup : String → Option String) : Settings :=
  let word (name : String) (default : Nat) : Nat :=
    ((lookup name).bind (number? (18_446_744_073_709_551_615))).getD default
  let seconds (name : String) (default : Duration) : Duration :=
    (((lookup name).bind (number? (18_446_744_073_709_551_615))).map .ofSecs).getD default
  let text (name : String) : Option String := (lookup name).filter (!·.isEmpty)
  { cache :=
      { maxSize := word "CACHE_MAX_SIZE_BYTES" CacheConfig.standard.maxSize
        cleanupInterval := seconds "CACHE_CLEANUP_INTERVAL" CacheConfig.standard.cleanupInterval }
    pool := (text "POOL_TARGET").map fun target =>
      let c := PoolConfig.standard target
      { c with
        maxSize := word "POOL_MAX_SIZE" c.maxSize
        minSize := word "POOL_MIN_SIZE" c.minSize
        healthInterval := seconds "POOL_HEALTH_CHECK_INTERVAL" c.healthInterval }
    rules := text "LIMITER_RULES"
    sweepInterval := seconds "LIMITER_SWEEP_INTERVAL" standardSweepInterval
    port := ((lookup "SERVER_PORT").bind (number? (65_535))).getD standard.port }

/-- The rulebook of the limiter, with the rules read in a folder. -/
def rulebook (s : Settings) (folder : Folder) : Except SettingsError Rulebook := do
  let rulebook ← match s.rules with
    | none => pure Rulebook.empty
    | some path =>
      match folder.readText path with
      | .error failure => .error (.readRules path failure)
      | .ok text =>
        match Rulebook.ofJson text with
        | .error fault => .error (.parseRules path fault)
        | .ok rulebook => pure rulebook
  return { rulebook with sweepInterval := s.sweepInterval }

end Settings

end BoundedResources
