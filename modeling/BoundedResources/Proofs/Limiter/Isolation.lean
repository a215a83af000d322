import Mathlib.Data.List.Induction
import BoundedResources.Limiter.Limiter
import BoundedResources.Proofs.Limiter.Turns

/-!
# Which requests a rule feels

A meter knows its clients by key only. What it says about a key depends on the calls for that key
and on the sweeps, and on nothing else (`TokenBuckets.AgreeOn`). A limiter that looks charges up in
a rulebook inherits this: **`Limiter.clearances_under_shared_keys`** says that the requests that a
rule decides about are cleared as if of all other requests only those had been made that are
charged to one of their keys, and that every bucket has the quota and the period of the rule whose
request has made it.

It does not follow that rules are apart from each other, since a key does not tell which rule it
comes from. Two rules that are charged by the same headers share the buckets of their clients
(`Limiter.rules_on_one_bucket`).
-/

set_option autoImplicit false

namespace BoundedResources

/-! ## Meters that agree on some keys -/

namespace TokenBuckets

variable {t t' : TokenBuckets} {keys : String → Prop}

/-- Two meters have the same buckets under some keys. -/
structure AgreeOn (keys : String → Prop) (t t' : TokenBuckets) : Prop where
  distinct : t.buckets.DistinctKeys
  distinct' : t'.buckets.DistinctKeys
  same : ∀ key, keys key → t.buckets.get? key = t'.buckets.get? key

theorem agreeOn_empty (keys : String → Prop) : AgreeOn keys empty empty :=
  ⟨List.nodup_nil, List.nodup_nil, fun _ _ => rfl⟩

theorem bucketFor_congr {key : String} (h : t.buckets.get? key = t'.buckets.get? key)
    (millis : Nat) (q : Allowance) (p : Duration) :
    t.bucketFor millis key q p = t'.bucketFor millis key q p := by
  rw [bucketFor, bucketFor, h]

theorem spend_congr {key : String} (h : t.buckets.get? key = t'.buckets.get? key) (now : Nat)
    (q : Allowance) (p : Duration) (n : Nat) :
    (t.spend now key q p n).1 = (t'.spend now key q p n).1 := by
  unfold spend
  rw [bucketFor_congr h]
  by_cases hn : n = 0
  · simp [hn]
  · simp only [hn, if_false]
    split <;> rfl

theorem AgreeOn.turn (h : AgreeOn keys t t') (now : Nat) (e : MeterTurn) :
    AgreeOn keys (t.turn now e) (t'.turn now e) := by
  refine ⟨distinctKeys_turn h.distinct now e, distinctKeys_turn h.distinct' now e, ?_⟩
  intro key hkey
  have hsame := h.same key hkey
  cases e with
  | spend k q p n =>
    have hget := get?_spend t now k key q p n
    have hget' := get?_spend t' now k key q p n
    refine hget.trans (Eq.trans ?_ hget'.symm)
    by_cases hk : key = k
    · subst hk
      rw [if_pos rfl, if_pos rfl, bucketFor_congr hsame]
    · rw [if_neg hk, if_neg hk, hsame]
  | sweep asOf =>
    refine (get?_sweep h.distinct asOf key).trans ?_
    refine Eq.trans ?_ (get?_sweep h.distinct' asOf key).symm
    rw [hsame]

/-- A call for another key makes no difference. -/
theorem AgreeOn.spend_left (h : AgreeOn keys t t') {k : String} (hk : ¬ keys k) (now : Nat)
    (q : Allowance) (p : Duration) (n : Nat) : AgreeOn keys (t.spend now k q p n).2 t' := by
  refine ⟨distinctKeys_turn h.distinct now (.spend k q p n), h.distinct', ?_⟩
  intro key hkey
  have hne : key ≠ k := by
    rintro rfl
    exact hk hkey
  rw [get?_spend, if_neg hne, h.same key hkey]

end TokenBuckets

/-! ## The rule that decides about a request -/

/-- The place of a rule in a rulebook: in the list, or behind it as the rule for other paths. -/
inductive RulePlace where
  | listed (i : Nat)
  | fallback
deriving DecidableEq

namespace Rulebook

/-- The rule at a place. -/
def ruleAt? (b : Rulebook) : RulePlace → Option PathRule
  | .listed i => b.rules[i]?
  | .fallback => b.fallback

/-- The place of the rule that decides about a request, if it comes to rules at all. -/
def decider? (b : Rulebook) (path : String) (h : Headers) : Option RulePlace :=
  if b.disabled || b.bans.any (·.hits h) then none
  else match b.rules.findIdx? (·.fits path) with
    | some i => some (.listed i)
    | none => b.fallback.map fun _ => .fallback

/-- A request gets its limit from the rule that decides about it. -/
theorem limit_of_decider? {b : Rulebook} {path : String} {h : Headers} {place : RulePlace}
    (hplace : b.decider? path h = some place) :
    ∃ r, b.ruleAt? place = some r ∧ b.ruleFor path = some r ∧ b.limit path h = r.limit path h := by
  unfold decider? at hplace
  split at hplace
  · cases hplace
  · rename_i hopen
    simp only [Bool.or_eq_true, not_or, Bool.not_eq_true] at hopen
    have hbans : b.bans.find? (·.hits h) = none := by simpa using hopen.2
    suffices hrule : ∃ r, b.ruleAt? place = some r ∧ b.ruleFor path = some r by
      obtain ⟨r, hat, hfor⟩ := hrule
      refine ⟨r, hat, hfor, ?_⟩
      simp [limit, hopen.1, hbans, hfor]
    split at hplace
    · rename_i i hi
      cases hplace
      obtain ⟨hlt, hfits, hbefore⟩ := List.findIdx?_eq_some_iff_getElem.mp hi
      refine ⟨b.rules[i], List.getElem?_eq_getElem hlt, ?_⟩
      have hfind : b.rules.find? (·.fits path) = some b.rules[i] := by
        rw [List.find?_eq_some_iff_getElem]
        exact ⟨hfits, i, hlt, rfl, fun j hj => by simpa using hbefore j hj⟩
      rw [ruleFor, hfind]
      rfl
    · rename_i hnone
      obtain ⟨r, hr, rfl⟩ := Option.map_eq_some_iff.mp hplace
      refine ⟨r, hr, ?_⟩
      have hfind : b.rules.find? (·.fits path) = none := by
        simpa [List.findIdx?_eq_none_iff] using hnone
      rw [ruleFor, hfind, Option.none_or, hr]

end Rulebook

/-- The charge of a limit, if a quota applies. -/
def Limit.charge? : Limit → Option Charge
  | .limited charge => some charge
  | .unlimited | .blocked _ => none

theorem Limit.charge?_eq_some {limit : Limit} {c : Charge} (h : limit.charge? = some c) :
    limit = .limited c := by
  cases limit with
  | limited c' => rw [Option.some.inj h]
  | unlimited | blocked => cases h

/-! ## Turns at a limiter -/

/-- What happens to a limiter in one turn: a request asks for clearance, or the buckets that are
idle at a moment are forgotten. -/
inductive LimiterTurn where
  | check (path : String) (headers : Headers) (n : Nat)
  | sweep (asOf : Nat)

namespace Rulebook

/-- Whether a turn is a request that the rule at a place decides about. -/
def decides (b : Rulebook) (place : RulePlace) : LimiterTurn → Bool
  | .check path h _ => b.decider? path h = some place
  | .sweep _ => false

/-- The charge of the request that is made in a turn. -/
def charge? (b : Rulebook) : LimiterTurn → Option Charge
  | .check path h _ => (b.limit path h).charge?
  | .sweep _ => none

/-- The keys that the requests of a rule are charged to in the course of some turns. -/
def keysOf (b : Rulebook) (place : RulePlace) (turns : List (Nat × LimiterTurn)) : List String :=
  (turns.filter fun t => b.decides place t.2).filterMap fun t => (b.charge? t.2).map (·.key)

/-- Whether a turn stays when the requests of the other rules are taken away, but for those that
are charged to some keys. -/
def stays (b : Rulebook) (place : RulePlace) (keys : List String) : LimiterTurn → Bool
  | .check path h n =>
    (b.decider? path h).all (· = place) ||
      (b.charge? (.check path h n)).any fun c => keys.contains c.key
  | .sweep _ => true

/-- A request that no rule decides about is not charged. -/
theorem decider?_of_charge? {b : Rulebook} {path : String} {h : Headers} {n : Nat} {c : Charge}
    (hc : b.charge? (.check path h n) = some c) : ∃ place, b.decider? path h = some place := by
  have hlimit := Limit.charge?_eq_some hc
  unfold limit at hlimit
  split at hlimit
  · cases hlimit
  · rename_i hopen
    split at hlimit
    · cases hlimit
    · rename_i hbans
      have hdecided : ¬ (b.disabled || b.bans.any (·.hits h)) = true := by
        simpa [hopen] using hbans
      unfold decider?
      rw [if_neg hdecided]
      split
      · exact ⟨_, rfl⟩
      · rename_i hnone
        have hfind : b.rules.find? (·.fits path) = none := by
          simpa [List.findIdx?_eq_none_iff] using hnone
        rw [ruleFor, hfind, Option.none_or] at hlimit
        cases hfallback : b.fallback with
        | none =>
          rw [hfallback] at hlimit
          cases hlimit
        | some r => exact ⟨.fallback, rfl⟩

/-- A request is charged by the rule that decides about it. -/
theorem rule_of_charge? {b : Rulebook} {path : String} {h : Headers} {n : Nat} {c : Charge}
    {place : RulePlace} (hplace : b.decider? path h = some place)
    (hc : b.charge? (.check path h n) = some c) :
    ∃ r, b.ruleAt? place = some r ∧ r.quota = .limit c.allowance ∧ r.period = c.period := by
  obtain ⟨r, hat, -, hlimit⟩ := limit_of_decider? hplace
  have hlimited := hlimit.symm.trans (Limit.charge?_eq_some hc)
  refine ⟨r, hat, ?_⟩
  unfold PathRule.limit at hlimited
  split at hlimited
  · cases hlimited
  · cases hlimited
  · rename_i allowance hquota
    simp only at hlimited
    split at hlimited
    · cases hlimited
    · cases hlimited
      exact ⟨hquota, rfl⟩

end Rulebook

namespace Limiter

/-- A limiter that has not been asked yet. -/
def fresh (b : Rulebook) : Limiter TokenBuckets := ⟨b, .empty⟩

/-- The limiter after a turn at `now`. -/
def turn (l : Limiter TokenBuckets) (now : Nat) : LimiterTurn → Limiter TokenBuckets
  | .check path h n => (l.check now path h n).2
  | .sweep asOf => { l with meter := (l.meter.sweep asOf).2 }

/-- The limiter after some turns, each with the moment at which it is taken. -/
def run (l : Limiter TokenBuckets) (turns : List (Nat × LimiterTurn)) : Limiter TokenBuckets :=
  runTurns turn l turns

/-- What the request of a turn is told, if the rule at a place decides about it. -/
def answer (l : Limiter TokenBuckets) (place : RulePlace) (now : Nat) : LimiterTurn → List Clearance
  | .check path h n =>
    if l.rulebook.decider? path h = some place then [(l.check now path h n).1] else []
  | .sweep _ => []

/-- What the requests that the rule at a place decides about are told in the course of some
turns. -/
def clearances (l : Limiter TokenBuckets) (place : RulePlace) : List (Nat × LimiterTurn) →
    List Clearance
  | [] => []
  | (now, e) :: rest => l.answer place now e ++ (l.turn now e).clearances place rest

variable {l l' : Limiter TokenBuckets} {b : Rulebook} {place : RulePlace} {keys : List String}

/-- What a request does to a meter is a turn at the meter, if it is charged to a key. -/
theorem turn_check (l : Limiter TokenBuckets) (now : Nat) (path : String) (h : Headers) (n : Nat) :
    l.turn now (.check path h n) =
      match l.rulebook.charge? (.check path h n) with
      | none => l
      | some c => { l with meter := l.meter.turn now (.spend c.key c.allowance c.period n) } := by
  simp only [turn, check, Rulebook.charge?]
  cases l.rulebook.limit path h <;> rfl

theorem rulebook_turn (l : Limiter TokenBuckets) (now : Nat) (e : LimiterTurn) :
    (l.turn now e).rulebook = l.rulebook := by
  cases e with
  | check path h n =>
    rw [turn_check]
    split <;> rfl
  | sweep asOf => rfl

/-- A request is told the same by two limiters whose meters agree on its key. -/
theorem check_congr (hb : l.rulebook = l'.rulebook) {path : String} {h : Headers} {n : Nat}
    (hkey : ∀ c, l.rulebook.charge? (.check path h n) = some c →
      l.meter.buckets.get? c.key = l'.meter.buckets.get? c.key) (now : Nat) :
    (l.check now path h n).1 = (l'.check now path h n).1 := by
  unfold check
  rw [← hb]
  cases hlimit : l.rulebook.limit path h with
  | unlimited => rfl
  | blocked message => rfl
  | limited c =>
    have hspend := TokenBuckets.spend_congr (hkey c (by simp [Rulebook.charge?, hlimit,
      Limit.charge?])) now c.allowance c.period n
    exact congrArg (Clearance.ofVerdict c) hspend

/-! ## What a run of turns says to the requests of a rule -/

theorem agreeOn_turn (hb : l.rulebook = l'.rulebook)
    (h : TokenBuckets.AgreeOn (· ∈ keys) l.meter l'.meter) (now : Nat) (e : LimiterTurn) :
    TokenBuckets.AgreeOn (· ∈ keys) (l.turn now e).meter (l'.turn now e).meter := by
  cases e with
  | check path hs n =>
    rw [turn_check, turn_check, ← hb]
    cases l.rulebook.charge? (.check path hs n) with
    | none => exact h
    | some c => exact h.turn now (.spend c.key c.allowance c.period n)
  | sweep asOf => exact h.turn now (.sweep asOf)

/-- A turn that is taken away is told nothing about, and makes no difference to the keys. -/
theorem agreeOn_turn_left (h : TokenBuckets.AgreeOn (· ∈ keys) l.meter l'.meter) {e : LimiterTurn}
    (hgone : l.rulebook.stays place keys e = false) (now : Nat) :
    l.answer place now e = [] ∧
      TokenBuckets.AgreeOn (· ∈ keys) (l.turn now e).meter l'.meter := by
  cases e with
  | sweep asOf => cases hgone
  | check path hs n =>
    obtain ⟨hother, hcharge⟩ := Bool.or_eq_false_iff.mp hgone
    constructor
    · refine if_neg fun hplace => ?_
      simp [hplace] at hother
    · rw [turn_check]
      split
      · exact h
      · rename_i c hc
        rw [hc] at hcharge
        exact h.spend_left (by simpa using hcharge) now _ _ _

/-- The requests of a rule are told the same if other turns are taken away that do not touch
their keys. -/
theorem clearances_filter_stays (hb : l.rulebook = b) (hb' : l'.rulebook = b)
    {turns : List (Nat × LimiterTurn)}
    (hkeys : ∀ t ∈ turns, b.decides place t.2 = true → ∀ c, b.charge? t.2 = some c → c.key ∈ keys)
    (h : TokenBuckets.AgreeOn (· ∈ keys) l.meter l'.meter) :
    l.clearances place turns =
      l'.clearances place (turns.filter fun t => b.stays place keys t.2) := by
  induction turns generalizing l l' with
  | nil => rfl
  | cons t rest ih =>
    obtain ⟨now, e⟩ := t
    obtain ⟨hfirst, hrest⟩ := List.forall_mem_cons.mp hkeys
    have hturn := (l.rulebook_turn now e).trans hb
    rw [clearances]
    cases hstays : b.stays place keys e with
    | false =>
      obtain ⟨hanswer, hagree⟩ := agreeOn_turn_left h (hb ▸ hstays) now
      rw [List.filter_cons_of_neg (by simp [hstays]), hanswer, List.nil_append]
      exact ih hturn hb' hrest hagree
    | true =>
      have hsame : l.answer place now e = l'.answer place now e := by
        cases e with
        | sweep asOf => rfl
        | check path hs n =>
          simp only [answer, hb, hb']
          split
          · rename_i hplace
            have hdecides : b.decides place (.check path hs n) = true := by
              simpa [Rulebook.decides] using hplace
            rw [check_congr (hb.trans hb'.symm) fun c hc =>
              h.same c.key (hfirst hdecides c (hb ▸ hc))]
          · rfl
      rw [List.filter_cons_of_pos (by simp [hstays]), clearances, hsame,
        ih hturn ((l'.rulebook_turn now e).trans hb') hrest
          (agreeOn_turn (hb.trans hb'.symm) h now e)]

/-! ## Whose bucket it is -/

theorem distinctKeys_turn (hd : l.meter.buckets.DistinctKeys) (now : Nat) (e : LimiterTurn) :
    (l.turn now e).meter.buckets.DistinctKeys := by
  cases e with
  | sweep asOf => exact TokenBuckets.distinctKeys_turn hd now (.sweep asOf)
  | check path h n =>
    rw [turn_check]
    split
    · exact hd
    · exact TokenBuckets.distinctKeys_turn hd now (.spend _ _ _ n)

theorem distinctKeys_run (b : Rulebook) (turns : List (Nat × LimiterTurn)) :
    ((fresh b).run turns).meter.buckets.DistinctKeys :=
  runTurns_induction (P := fun l : Limiter TokenBuckets => l.meter.buckets.DistinctKeys)
    (s := fresh b) List.nodup_nil (fun _ now e hd => distinctKeys_turn hd now e) turns

theorem rulebook_run_of (hb : l.rulebook = b) (turns : List (Nat × LimiterTurn)) :
    (l.run turns).rulebook = b :=
  runTurns_induction (P := fun l : Limiter TokenBuckets => l.rulebook = b) hb
    (fun l now e hb => (l.rulebook_turn now e).trans hb) turns

theorem rulebook_run (b : Rulebook) (turns : List (Nat × LimiterTurn)) :
    ((fresh b).run turns).rulebook = b :=
  rulebook_run_of rfl turns

theorem run_snoc (b : Rulebook) (before : List (Nat × LimiterTurn)) (t : Nat × LimiterTurn) :
    (fresh b).run (before ++ [t]) = ((fresh b).run before).turn t.1 t.2 :=
  runTurns_append turn (fresh b) before [t]

/-- A bucket that is there after a turn was there before, or is what a request under its key has
left of the bucket that it found or made. -/
theorem get?_turn_cases {now : Nat} {e : LimiterTurn} {key : String} {bucket : Bucket}
    (hd : l.meter.buckets.DistinctKeys)
    (hbucket : (l.turn now e).meter.buckets.get? key = some bucket) :
    l.meter.buckets.get? key = some bucket ∨
      ∃ path h n c, e = .check path h n ∧ l.rulebook.charge? e = some c ∧ c.key = key ∧
        bucket = (l.meter.bucketFor (now / 1_000_000) key c.allowance c.period).call now n := by
  cases e with
  | sweep asOf =>
    have hkept := (TokenBuckets.get?_sweep hd asOf key).symm.trans hbucket
    exact .inl (Option.filter_eq_some_iff.mp hkept).1
  | check path h n =>
    rw [turn_check] at hbucket
    split at hbucket
    · exact .inl hbucket
    · rename_i c hc
      have hspent :=
        (TokenBuckets.get?_spend l.meter now c.key key c.allowance c.period n).symm.trans hbucket
      by_cases hkey : key = c.key
      · subst hkey
        rw [if_pos rfl, Option.some.injEq] at hspent
        exact .inr ⟨path, h, n, c, rfl, hc, rfl, hspent.symm⟩
      · rw [if_neg hkey] at hspent
        exact .inl hspent

/-- **A bucket that is there after a turn was there before with the same quota, or a request has
found none and made it for its own.** -/
theorem bucket_of_turn {now : Nat} {e : LimiterTurn} {key : String} {bucket : Bucket}
    (hd : l.meter.buckets.DistinctKeys)
    (hbucket : (l.turn now e).meter.buckets.get? key = some bucket) :
    (∃ old, l.meter.buckets.get? key = some old ∧ bucket.allowance = old.allowance ∧
      bucket.interval = old.interval) ∨
    (l.meter.buckets.get? key = none ∧ ∃ c, l.rulebook.charge? e = some c ∧ c.key = key ∧
      bucket.allowance = c.allowance ∧ bucket.interval = c.allowance.interval c.period) := by
  rcases get?_turn_cases hd hbucket with hkept | ⟨path, h, n, c, rfl, hc, hkey, rfl⟩
  · exact .inl ⟨bucket, hkept, rfl, rfl⟩
  · rw [Bucket.allowance_call, Bucket.interval_call]
    unfold TokenBuckets.bucketFor
    cases hold : l.meter.buckets.get? key with
    | some old => exact .inl ⟨old, rfl, rfl, rfl⟩
    | none => exact .inr ⟨rfl, c, hc, hkey, rfl, rfl⟩

/-- The rule at a place has made the bucket that a key has after some turns: a request of the rule
has found none under the key, and there has been one ever since. -/
inductive MadeBy (b : Rulebook) (key : String) (place : RulePlace) :
    List (Nat × LimiterTurn) → Prop where
  | make {before : List (Nat × LimiterTurn)} {path : String} {h : Headers} {n : Nat} {c : Charge}
      (hnone : ((fresh b).run before).meter.buckets.get? key = none)
      (hplace : b.decider? path h = some place)
      (hcharge : b.charge? (.check path h n) = some c) (hkey : c.key = key) (now : Nat) :
      MadeBy b key place (before ++ [(now, .check path h n)])
  | keep {before : List (Nat × LimiterTurn)} {t : Nat × LimiterTurn}
      (hmade : MadeBy b key place before)
      (hthere : (((fresh b).run (before ++ [t])).meter.buckets.get? key).isSome = true) :
      MadeBy b key place (before ++ [t])

variable {turns : List (Nat × LimiterTurn)} {key : String} {bucket : Bucket}

theorem MadeBy.isSome (hmade : MadeBy b key place turns) :
    (((fresh b).run turns).meter.buckets.get? key).isSome = true := by
  cases hmade with
  | keep _ hthere => exact hthere
  | make _ _ hcharge hkey now =>
    rw [run_snoc, turn_check, rulebook_run, hcharge]
    simp [TokenBuckets.turn, TokenBuckets.get?_spend, hkey]

/-- **A bucket has the quota and the period of the rule that has made it.** -/
theorem MadeBy.quota (hmade : MadeBy b key place turns)
    (hbucket : ((fresh b).run turns).meter.buckets.get? key = some bucket) :
    ∃ r, b.ruleAt? place = some r ∧ r.quota = .limit bucket.allowance ∧
      bucket.interval = bucket.allowance.interval r.period := by
  induction hmade generalizing bucket with
  | @make before path h n c hnone hplace hcharge hkey now =>
    rw [run_snoc] at hbucket
    rcases bucket_of_turn (distinctKeys_run b before) hbucket with
      ⟨old, hold, -⟩ | ⟨-, c', hc', hnew⟩
    · rw [hnone] at hold
      cases hold
    · rw [rulebook_run, hcharge, Option.some.injEq] at hc'
      subst hc'
      obtain ⟨r, hat, hquota, hperiod⟩ := Rulebook.rule_of_charge? hplace hcharge
      refine ⟨r, hat, ?_, ?_⟩
      · rw [hquota, hnew.2.1]
      · rw [hnew.2.1, hnew.2.2, hperiod]
  | @keep before t hmade _ ih =>
    rw [run_snoc] at hbucket
    rcases bucket_of_turn (distinctKeys_run b before) hbucket with
      ⟨old, hold, hsame⟩ | ⟨hnone, -⟩
    · rw [hsame.1, hsame.2]
      exact ih hold
    · have hsome := hmade.isSome
      rw [hnone] at hsome
      cases hsome

/-- Every bucket was made by a rule. -/
theorem exists_madeBy (hbucket : ((fresh b).run turns).meter.buckets.get? key = some bucket) :
    ∃ place, MadeBy b key place turns := by
  induction turns using List.reverseRecOn generalizing bucket with
  | nil => cases hbucket
  | append_singleton before t ih =>
    have hafter := hbucket
    rw [run_snoc] at hafter
    rcases bucket_of_turn (distinctKeys_run b before) hafter with
      ⟨old, hold, -⟩ | ⟨hnone, c, hc, hkey, -⟩
    · obtain ⟨place, hmade⟩ := ih hold
      exact ⟨place, hmade.keep (by rw [hbucket, Option.isSome_some])⟩
    · obtain ⟨now, e⟩ := t
      rw [rulebook_run] at hc
      cases e with
      | sweep asOf => cases hc
      | check path h n =>
        obtain ⟨place, hplace⟩ := Rulebook.decider?_of_charge? hc
        exact ⟨place, .make hnone hplace hc hkey now⟩

/-! ## What is left of isolation -/

/-- **The requests of a rule are told what they would be told if of all other requests only those
had been made that are charged to their keys; and every bucket has the quota and the period of the
rule that has made it.** -/
theorem clearances_under_shared_keys (b : Rulebook) (place : RulePlace)
    (turns : List (Nat × LimiterTurn)) :
    (fresh b).clearances place turns =
        (fresh b).clearances place
          (turns.filter fun t => b.stays place (b.keysOf place turns) t.2) ∧
      ∀ key bucket, ((fresh b).run turns).meter.buckets.get? key = some bucket →
        (∃ maker, MadeBy b key maker turns) ∧
        ∀ maker, MadeBy b key maker turns →
          ∃ r, b.ruleAt? maker = some r ∧ r.quota = .limit bucket.allowance ∧
            bucket.interval = bucket.allowance.interval r.period := by
  refine ⟨?_, fun key bucket hbucket => ⟨exists_madeBy hbucket, fun _ hmade => hmade.quota hbucket⟩⟩
  refine clearances_filter_stays (b := b) rfl rfl ?_ (TokenBuckets.agreeOn_empty _)
  intro t ht hdecides c hc
  exact List.mem_filterMap.mpr ⟨t, List.mem_filter.mpr ⟨ht, hdecides⟩, by rw [hc]; rfl⟩

/-- Two rules with a quota of one and of five, and a user who asks once under each: the user is
sent away by the second rule, which on its own would let four more requests through. -/
theorem rules_on_one_bucket :
    let one : PathRule := ⟨"/a/", ["user-id"], .limit ⟨1, by decide, by decide⟩, .ofSecs 60,
      some "wait"⟩
    let five : PathRule := ⟨"/b/", ["user-id"], .limit ⟨5, by decide, by decide⟩, .ofSecs 60,
      some "wait"⟩
    let b := (Rulebook.empty.addRule one).addRule five
    let user := Headers.pairs [("user-id", "u")]
    let turns := [(0, LimiterTurn.check "/a/" user 1), (0, LimiterTurn.check "/b/" user 1)]
    (fresh b).clearances (.listed 1) turns =
        [.throttled ".u" ⟨5, by decide, by decide⟩ ⟨0, .ofSecs 60, false⟩ "wait"] ∧
      (fresh b).clearances (.listed 1) (turns.filter fun t => b.decides (.listed 1) t.2) =
        [.allowed ".u" ⟨5, by decide, by decide⟩ ⟨4, .ofSecs 60, true⟩] := by
  decide +kernel

end Limiter

end BoundedResources
