import BoundedResources.Limiter.RulebookJson
import BoundedResources.Proofs.Json.Roundtrip

/-!
# Rulebooks survive being written

A rulebook that is written as JSON and read again is the same rulebook, but for the lengths of time
in it, which are written in whole seconds (`Rulebook.ofJson_text`). Texts may hold anything, a count
fits a word because an allowance does, and a duration that is cut to seconds is written like the
duration itself. So what was read is written as it was.

Each part of a rulebook has a reader that reads back what is written of it, and says how much
nesting it needs.
-/

set_option autoImplicit false

namespace BoundedResources

open Json (Reader Value)

/-! ## Lengths of time -/

/-- Nothing is written of a length of time but its whole seconds, and cutting it leaves them. -/
theorem Duration.secs_truncateToSecs (t : Duration) : t.truncateToSecs.secs = t.secs :=
  Nat.mul_div_cancel _ (by decide)

/-- A length of time is read back without what it has beyond whole seconds. -/
theorem secondsReader_readsBack :
    Reader.ReadsBack secondsReader 0 (fun t : Duration => .nat t.secs) Duration.truncateToSecs := by
  intro t allowed _
  rw [secondsReader, Reader.word_readsBack t.secs_lt allowed]
  exact congrArg Except.ok t.ofSecs_secs

/-! ## Quotas -/

/-- A quota is read back as it is. Its number was a count before, so it is one again. -/
theorem Quota.reader_readsBack : Reader.ReadsBack Quota.reader 0 Quota.toJson id := by
  intro q allowed _
  cases q with
  | unlimited => rfl
  | block => rfl
  | limit a =>
    have hcount : Allowance.ofNat? a.count = some a := dif_pos ⟨a.positive, a.bounded⟩
    simp only [toJson, Value.nat, Value.document, reader, Json.Document.toValue, bind, Except.bind,
      Int.toNat_natCast, hcount, id]

theorem Quota.isWhole_toJson (q : Quota) : q.toJson.IsWhole := by
  cases q with
  | unlimited => exact trivial
  | block => exact trivial
  | limit a => exact Value.isWhole_nat (Nat.lt_trans a.bounded (by decide))

/-! ## Rules and bans -/

namespace PathRule

/-- A rule is written as if its period were whole seconds already. -/
theorem toJson_wholeSeconds (r : PathRule) : r.wholeSeconds.toJson = r.toJson := by
  simp only [toJson, wholeSeconds, Duration.secs_truncateToSecs]

theorem isWhole_toJson (r : PathRule) : r.toJson.IsWhole := by
  have hstring (s : String) : (Value.string s).IsWhole := trivial
  exact ⟨trivial, Value.areWhole_map hstring r.headers, r.quota.isWhole_toJson,
    Value.isWhole_nat r.period.secs_lt, Value.isWhole_optional hstring r.message, trivial⟩

/-- A rule is read back with its period cut. The names of its headers are a list in a record, so two
levels of nesting are enough. -/
theorem reader_readsBack : Reader.ReadsBack reader 2 toJson wholeSeconds := by
  intro r allowed hallowed
  obtain ⟨allowed, rfl⟩ : ∃ n, allowed = n + 1 := ⟨allowed - 1, by omega⟩
  have hpath := Reader.string_readsBack r.pathStart allowed (Nat.zero_le _)
  have hheaders := Reader.list_readsBack Reader.string_readsBack r.headers allowed (by omega)
  have hquota := Quota.reader_readsBack r.quota allowed (Nat.zero_le _)
  have hperiod := secondsReader_readsBack r.period allowed (Nat.zero_le _)
  have hmessage := Reader.optional_readsBack Reader.string_readsBack (fun _ h => nomatch h)
    r.message allowed (Nat.zero_le _)
  rw [List.map_id] at hheaders
  rw [Option.map_id] at hmessage
  refine Reader.record_object ⟨some r.pathStart, some r.headers, some r.quota,
    some r.period.truncateToSecs, some r.message⟩ ?_ rfl
  rw [Json.Field.readMembers_cons rfl rfl (congrArg (Functor.map _) hpath),
    Json.Field.readMembers_cons rfl rfl (congrArg (Functor.map _) hheaders),
    Json.Field.readMembers_cons rfl rfl (congrArg (Functor.map _) hquota),
    Json.Field.readMembers_cons rfl rfl (congrArg (Functor.map _) hperiod),
    Json.Field.readMembers_cons rfl rfl (congrArg (Functor.map _) hmessage)]
  rfl

end PathRule

namespace HeaderBan

theorem isWhole_toJson (ban : HeaderBan) : ban.toJson.IsWhole := ⟨trivial, trivial, trivial⟩

/-- A ban is a flat record, read back as it is. -/
theorem reader_readsBack : Reader.ReadsBack reader 1 toJson id := by
  intro ban allowed hallowed
  obtain ⟨allowed, rfl⟩ : ∃ n, allowed = n + 1 := ⟨allowed - 1, by omega⟩
  have hheader := Reader.string_readsBack ban.header allowed (Nat.zero_le _)
  have hvalue := Reader.string_readsBack ban.value allowed (Nat.zero_le _)
  refine Reader.record_object ⟨some ban.header, some ban.value⟩ ?_ rfl
  rw [Json.Field.readMembers_cons rfl rfl (congrArg (Functor.map _) hheader),
    Json.Field.readMembers_cons rfl rfl (congrArg (Functor.map _) hvalue)]
  rfl

end HeaderBan

/-! ## Rulebooks -/

namespace Rulebook

/-- A rulebook is written as if all lengths of time in it were whole seconds already. -/
theorem toJson_wholeSeconds (b : Rulebook) : b.wholeSeconds.toJson = b.toJson := by
  have hrules : (b.rules.map PathRule.wholeSeconds).map PathRule.toJson =
      b.rules.map PathRule.toJson := by
    rw [List.map_map]
    exact List.map_congr_left fun r _ => r.toJson_wholeSeconds
  have hfallback : Value.optional PathRule.toJson (b.fallback.map PathRule.wholeSeconds) =
      Value.optional PathRule.toJson b.fallback := by
    cases b.fallback with
    | none => rfl
    | some r => exact r.toJson_wholeSeconds
  simp only [toJson, wholeSeconds, hrules, hfallback, Duration.secs_truncateToSecs]

theorem isWhole_toJson (b : Rulebook) : b.toJson.IsWhole :=
  ⟨trivial, Value.areWhole_map PathRule.isWhole_toJson b.rules,
    Value.areWhole_map HeaderBan.isWhole_toJson b.bans,
    Value.isWhole_optional PathRule.isWhole_toJson b.fallback,
    Value.isWhole_nat b.sweepInterval.secs_lt, trivial⟩

/-- A rulebook is read back with all lengths of time cut. Its rules lie in a list of a record, and
they need two levels of their own. -/
theorem reader_readsBack : Reader.ReadsBack reader 4 toJson wholeSeconds := by
  intro b allowed hallowed
  obtain ⟨allowed, rfl⟩ : ∃ n, allowed = n + 1 := ⟨allowed - 1, by omega⟩
  have hdisabled := Reader.bool_readsBack b.disabled allowed (Nat.zero_le _)
  have hrules := Reader.list_readsBack PathRule.reader_readsBack b.rules allowed (by omega)
  have hbans := Reader.list_readsBack HeaderBan.reader_readsBack b.bans allowed (by omega)
  have hfallback := Reader.optional_readsBack PathRule.reader_readsBack (fun _ h => nomatch h)
    b.fallback allowed (by omega)
  have hinterval := secondsReader_readsBack b.sweepInterval allowed (Nat.zero_le _)
  rw [List.map_id] at hbans
  refine Reader.record_object ⟨some b.disabled, some b.wholeSeconds.rules, some b.bans,
    some b.wholeSeconds.fallback, some b.wholeSeconds.sweepInterval⟩ ?_ rfl
  rw [Json.Field.readMembers_cons rfl rfl (congrArg (Functor.map _) hdisabled),
    Json.Field.readMembers_cons rfl rfl (congrArg (Functor.map _) hrules),
    Json.Field.readMembers_cons rfl rfl (congrArg (Functor.map _) hbans),
    Json.Field.readMembers_cons rfl rfl (congrArg (Functor.map _) hfallback),
    Json.Field.readMembers_cons rfl rfl (congrArg (Functor.map _) hinterval)]
  rfl

/-- **A rulebook that was written is read as the same rulebook, with all lengths of time cut to
whole seconds, and that is written as the same text.** -/
theorem ofJson_text (b : Rulebook) :
    ofJson b.toJson.text = .ok b.wholeSeconds ∧ b.wholeSeconds.toJson.text = b.toJson.text := by
  refine ⟨?_, congrArg Value.text b.toJson_wholeSeconds⟩
  rw [ofJson, Json.decode_text reader b.isWhole_toJson]
  exact reader_readsBack b Json.maxDepth (by decide)

end Rulebook

end BoundedResources
