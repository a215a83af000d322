import BoundedResources.Json.Reader
import BoundedResources.Json.Printer
import BoundedResources.Limiter.Rulebook

/-!
# Rulebooks as JSON

A rulebook is written as a JSON object with all of its parts and lengths of time in whole seconds.
In reading, a missing part takes its default: no rules, no bans, no rule for other paths, a sweep
per minute; only the quota and the period of a rule have to be there.
-/

set_option autoImplicit false

namespace BoundedResources

open Json (Value Document Reader)

/-! ## Writing -/

/-- A quota is a word or a number. -/
def Quota.toJson : Quota → Value
  | .unlimited => .string "unlimited"
  | .block => .string "block"
  | .limit a => .nat a.count

/-- A rule as a JSON object. -/
def PathRule.toJson (r : PathRule) : Value :=
  .object [("path_prefix", .string r.pathStart),
    ("header_keys", .array (r.headers.map .string)), ("quota", r.quota.toJson),
    ("period_secs", .nat r.period.secs), ("message", .optional .string r.message)]

/-- A ban as a JSON object. -/
def HeaderBan.toJson (b : HeaderBan) : Value :=
  .object [("header_key", .string b.header), ("blocked_value", .string b.value)]

/-- A rulebook as a JSON object. -/
def Rulebook.toJson (b : Rulebook) : Value :=
  .object [("disabled", .bool b.disabled), ("rules", .array (b.rules.map PathRule.toJson)),
    ("blocklist", .array (b.bans.map HeaderBan.toJson)),
    ("default_rule", .optional PathRule.toJson b.fallback),
    ("sweep_interval_secs", .nat b.sweepInterval.secs)]

/-! ## Reading -/

/-- Reads a length of time in whole seconds. -/
def secondsReader : Reader Duration := fun depth d => Duration.ofSecs <$> Reader.word depth d

/-- Reads a quota: a word, an object with the word as its only key and `null` as its value, or
a positive 32-bit number. The whole value is gone through before it is judged. -/
def Quota.reader : Reader Quota := fun depth d => do
  let _ ← d.toValue depth
  match d with
  | .string "unlimited" => .ok .unlimited
  | .string "block" => .ok .block
  | .object [(.ok "unlimited", .null)] _ => .ok .unlimited
  | .object [(.ok "block", .null)] _ => .ok .block
  | .number (.integer n) =>
    match Allowance.ofNat? n.toNat with
    | some a => .ok (.limit a)
    | none => .error .mismatch
  | _ => .error .mismatch

/-- The fields of a rule that have been read so far. -/
structure PathRule.Part where
  pathStart : Option String
  headers : Option (List String)
  quota : Option Quota
  period : Option Duration
  message : Option (Option String)

namespace PathRule

/-- The fields of a rule in order. -/
def fields : List (Json.Field Part) :=
  [{ name := "path_prefix"
     isSet := fun p => p.pathStart.isSome
     read := fun depth d =>
       (fun s p => { p with pathStart := some s }) <$> Reader.string depth d },
   { name := "header_keys"
     isSet := fun p => p.headers.isSome
     read := fun depth d =>
       (fun l p => { p with headers := some l }) <$> Reader.list Reader.string depth d },
   { name := "quota"
     isSet := fun p => p.quota.isSome
     read := fun depth d => (fun q p => { p with quota := some q }) <$> Quota.reader depth d },
   { name := "period_secs"
     isSet := fun p => p.period.isSome
     read := fun depth d => (fun t p => { p with period := some t }) <$> secondsReader depth d },
   { name := "message"
     isSet := fun p => p.message.isSome
     read := fun depth d =>
       (fun m p => { p with message := some m }) <$> Reader.optional Reader.string depth d }]

/-- The rule, once its quota and its period are there. -/
def Part.finish (p : Part) : Option PathRule := do
  return ⟨p.pathStart.getD "", p.headers.getD [], ← p.quota, ← p.period, p.message.join⟩

/-- Reads a rule. -/
def reader : Reader PathRule := .record fields ⟨none, none, none, none, none⟩ Part.finish

end PathRule

/-- The fields of a ban that have been read so far. -/
structure HeaderBan.Part where
  header : Option String
  value : Option String

namespace HeaderBan

/-- The fields of a ban in order. -/
def fields : List (Json.Field Part) :=
  [{ name := "header_key"
     isSet := fun p => p.header.isSome
     read := fun depth d =>
       (fun s p => { p with header := some s }) <$> Reader.string depth d },
   { name := "blocked_value"
     isSet := fun p => p.value.isSome
     read := fun depth d =>
       (fun s p => { p with value := some s }) <$> Reader.string depth d }]

/-- The ban, once both fields are there. -/
def Part.finish (p : Part) : Option HeaderBan := do
  return ⟨← p.header, ← p.value⟩

/-- Reads a ban. -/
def reader : Reader HeaderBan := .record fields ⟨none, none⟩ Part.finish

end HeaderBan

/-- The fields of a rulebook that have been read so far. -/
structure Rulebook.Part where
  disabled : Option Bool
  rules : Option (List PathRule)
  bans : Option (List HeaderBan)
  fallback : Option (Option PathRule)
  sweepInterval : Option Duration

namespace Rulebook

/-- The fields of a rulebook in order. -/
def fields : List (Json.Field Part) :=
  [{ name := "disabled"
     isSet := fun p => p.disabled.isSome
     read := fun depth d => (fun b p => { p with disabled := some b }) <$> Reader.bool depth d },
   { name := "rules"
     isSet := fun p => p.rules.isSome
     read := fun depth d =>
       (fun l p => { p with rules := some l }) <$> Reader.list PathRule.reader depth d },
   { name := "blocklist"
     isSet := fun p => p.bans.isSome
     read := fun depth d =>
       (fun l p => { p with bans := some l }) <$> Reader.list HeaderBan.reader depth d },
   { name := "default_rule"
     isSet := fun p => p.fallback.isSome
     read := fun depth d =>
       (fun r p => { p with fallback := some r }) <$> Reader.optional PathRule.reader depth d },
   { name := "sweep_interval_secs"
     isSet := fun p => p.sweepInterval.isSome
     read := fun depth d =>
       (fun t p => { p with sweepInterval := some t }) <$> secondsReader depth d }]

/-- The rulebook, with defaults for missing fields. -/
def Part.finish (p : Part) : Option Rulebook :=
  some ⟨p.disabled.getD false, p.rules.getD [], p.bans.getD [], p.fallback.join,
    p.sweepInterval.getD standardSweepInterval⟩

/-- Reads a rulebook. -/
def reader : Reader Rulebook := .record fields ⟨none, none, none, none, none⟩ Part.finish

/-- Reads a rulebook from its JSON text. -/
def ofJson (text : String) : Except Json.Fault Rulebook :=
  Json.decode reader text.toUTF8.data.toList

end Rulebook

end BoundedResources
