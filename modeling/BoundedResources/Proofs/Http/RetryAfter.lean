import BoundedResources.Proofs.Http.Gate
import BoundedResources.Proofs.Limiter.Waiting

/-!
# When to come back

Whoever asks too often is told how many seconds to wait: those of the period of the rule that has
decided about the request. Whether that is long enough is up to the bucket, which fills as fast as
the rule wants it to whose request has made it. **`App.retry_after_is_honest`** says that the
request is let through after the seconds it was told, unless a single request takes longer than
that under the rule of the bucket; so it always is if the bucket is the deciding rule's own and the
period of the rule is whole seconds. A bucket of another rule can keep the client waiting for
longer (`App.retry_after_of_another_rule`).

All of this is said of an app whose limiter has come about by turns, whoever took them; those of a
service are such (`Service.reaches_limits`).
-/

set_option autoImplicit false

namespace BoundedResources.Http

open Limiter (fresh MadeBy)

/-- The turn of a request at the limiter. -/
def Request.turn (r : Request) : LimiterTurn := .check (pathOf r.target) (.http r.headers) 1

theorem Request.charge?_turn {r : Request} {b : Rulebook} {c : Charge} (hc : r.charge? b = some c) :
    b.charge? r.turn = some c := by
  obtain ⟨route, -, hcharge⟩ := Option.bind_eq_some_iff.mp hc
  exact hcharge

theorem eq_of_toString_eq {m n : Nat} (h : toString m = toString n) : m = n := by
  have hdigits : Nat.toDigits 10 m = Nat.toDigits 10 n := by
    rw [← Nat.toList_repr, ← Nat.toList_repr]
    exact congrArg String.toList h
  calc
    m = Nat.ofDigitChars 10 (Nat.toDigits 10 m) 0 :=
      (Nat.ofDigitChars_toDigits (by decide) (by decide)).symm
    _ = Nat.ofDigitChars 10 (Nat.toDigits 10 n) 0 := by rw [hdigits]
    _ = n := Nat.ofDigitChars_toDigits (by decide) (by decide)

/-- What is added to an answer on its way out does not say when to come back. -/
theorem Route.retryAfter_outward (route : Route) (r : Request) (response : Response)
    (value : String) :
    ("retry-after", value) ∈ (route.outward r response).headers ↔
      ("retry-after", value) ∈ response.headers := by
  unfold outward
  split
  · split
    · simp [Response.withHeaders, sharedHeaders]
    · simp [Response.withHeaders, sharedHeaders]
  · simp [Response.withHeaders, sharedHeaders]

namespace App

/-- The limiter of an app, apart from its sweeper. -/
def limits (a : App) : Limiter TokenBuckets := ⟨a.limiter.rulebook, a.limiter.meter.buckets⟩

variable {a : App} {clock : Clock} {r : Request} {c : Charge}

theorem limits_serve_of_charge (hc : r.charge? a.limiter.rulebook = some c) :
    (a.serve clock r).2.limits = a.limits.turn clock.elapsed r.turn := by
  have hlimiter := (a.accounted_charge clock hc).1
  have hturn := a.limits.turn_check clock.elapsed (pathOf r.target) (.http r.headers) 1
  rw [show a.limits.rulebook.charge? (.check (pathOf r.target) (.http r.headers) 1) = some c from
    Request.charge?_turn hc] at hturn
  rw [limits, hlimiter, Request.turn, hturn]
  rfl

theorem limits_serve_of_no_charge (hc : r.charge? a.limiter.rulebook = none) :
    (a.serve clock r).2.limits = a.limits := by
  rw [limits, (a.accounted_uncharged clock hc).1, limits]

/-- **A request is told to come back exactly if its charge is refused.** -/
theorem status_serve_iff (a : App) (clock : Clock) (r : Request) :
    (a.serve clock r).1.status = 429 ↔
      ∃ c, r.charge? a.limiter.rulebook = some c ∧
        (a.charge clock.elapsed c).1.allowed = false := by
  have hhandled {route : Route} {start : App} {more : List (String × String)}
      (h : a.Handles clock route r start more) : (a.serve clock r).1.status ≠ 429 := by
    rw [h.answer, route.status_outward]
    exact (start.answers_followOwn clock r route).status
  cases hc : r.charge? a.limiter.rulebook with
  | some c =>
    obtain ⟨route, hobeys⟩ := a.obeys_charge clock hc
    simp only [Obeys] at hobeys
    cases hallowed : (a.charge clock.elapsed c).1.allowed with
    | true =>
      rw [if_pos hallowed] at hobeys
      simp [hhandled hobeys, hallowed]
    | false =>
      rw [if_neg (by simp [hallowed])] at hobeys
      simp [hobeys.status, hallowed]
  | none =>
    -- Nobody but the limiter answers with this status.
    suffices hstatus : (a.serve clock r).1.status ≠ 429 by simp [hstatus]
    rcases a.obeys_uncharged clock hc with hungated | ⟨route, hhandles⟩ | ⟨route, _, hrejects⟩
    · obtain ⟨answer, hstatus, -, hserve⟩ := a.serve_ungated clock hungated
      have hself : a.serve clock r = (answer, a) := hserve a.limiter
      rw [hself]
      exact hstatus
    · exact hhandled hhandles
    · rw [hrejects.status]
      decide

/-- The time to wait is the period of the charge, in whole seconds. -/
theorem secs_of_retryAfter {s : Nat} (hc : r.charge? a.limiter.rulebook = some c)
    (hrefused : (a.charge clock.elapsed c).1.allowed = false)
    (hretry : ("retry-after", toString s) ∈ (a.serve clock r).1.headers) : c.period.secs = s := by
  obtain ⟨route, hobeys⟩ := a.obeys_charge clock hc
  simp only [Obeys] at hobeys
  rw [if_neg (by simp [hrefused])] at hobeys
  rw [hobeys.answer, route.retryAfter_outward] at hretry
  have hvalue : toString s = toString (a.charge clock.elapsed c).1.resetIn.secs := by
    simpa [Response.withHeaders, Response.json, quotaOf, Clearance.quotaHeaders] using hretry
  have hreset : (a.charge clock.elapsed c).1.resetIn = c.period := by
    simp only [charge, Meter.spend, SweptBuckets.spend, TokenBuckets.spend]
    rw [if_neg (by decide)]
    split <;> rfl
  rw [← hreset]
  exact (eq_of_toString_eq hvalue).symm

/-- A request is refused, is told how many seconds to wait, and comes back once they are over.
Before it, the limiter has come about by some turns; while it waits, others are taken, and nothing
of its key is spent. -/
structure ComesBack (b : Rulebook) (before between : List (Nat × LimiterTurn)) (a a' : App)
    (clock clock' : Clock) (r : Request) (s : Nat) : Prop where
  reached : a.limits = (fresh b).run before
  past : ∀ t ∈ before, t.1 ≤ clock.elapsed
  refused : (a.serve clock r).1.status = 429
  told : ("retry-after", toString s) ∈ (a.serve clock r).1.headers
  returned : a'.limits = (a.serve clock r).2.limits.run between
  quiet : ∀ c, r.charge? b = some c → ∀ t ∈ between, b.spendsOf c.key t.2 = false
  later : clock.elapsed + s * 1_000_000_000 ≤ clock'.elapsed

section ComesBack

variable {b : Rulebook} {before between : List (Nat × LimiterTurn)} {a' : App} {clock' : Clock}
  {s : Nat} {maker : RulePlace} {bucket : Bucket}

theorem ComesBack.rulebook (h : ComesBack b before between a a' clock clock' r s) :
    a.limiter.rulebook = b :=
  (congrArg Limiter.rulebook h.reached).trans (Limiter.rulebook_run b before)

/-- There is a charge that was refused, a bucket that has refused it, and the wait is the period of
the charge. -/
theorem ComesBack.refusal (h : ComesBack b before between a a' clock clock' r s) :
    ∃ c bucket, r.charge? b = some c ∧ c.period.secs = s ∧
      ((fresh b).run before).meter.buckets.get? c.key = some bucket := by
  obtain ⟨c, hc, hrefused⟩ := (a.status_serve_iff clock r).mp h.refused
  have hspend : (a.limits.meter.spend clock.elapsed c.key c.allowance c.period 1).1.allowed =
      false := hrefused
  rw [h.reached] at hspend
  obtain ⟨bucket, hfound⟩ :=
    Limiter.exists_bucket_of_refused (Limiter.distinctKeys_run b before) hspend
  exact ⟨c, bucket, h.rulebook ▸ hc, secs_of_retryAfter hc hrefused h.told, hfound⟩

/-- The wait is long enough if it is not shorter than the interval of the bucket. -/
theorem ComesBack.allowed (h : ComesBack b before between a a' clock clock' r s)
    (hc : r.charge? b = some c)
    (hfound : ((fresh b).run before).meter.buckets.get? c.key = some bucket)
    (hwait : bucket.interval ≤ s * 1_000_000_000) : (a'.serve clock' r).1.status ≠ 429 := by
  have hcharged : r.charge? a.limiter.rulebook = some c := by rw [h.rulebook, hc]
  have hlimits : a'.limits =
      (((fresh b).run before).turn clock.elapsed r.turn).run between := by
    rw [h.returned, limits_serve_of_charge hcharged, h.reached]
  have hbook : a'.limits.rulebook = b := by
    rw [hlimits]
    refine Limiter.rulebook_run_of ?_ between
    rw [Limiter.rulebook_turn, Limiter.rulebook_run]
  have hlater : clock.elapsed + bucket.interval ≤ clock'.elapsed :=
    Nat.le_trans (Nat.add_le_add_left hwait clock.elapsed) h.later
  have hallowed := Limiter.allowed_after_interval h.past hfound (h.quiet c hc) hlater r.turn
    c.allowance c.period
  rw [← hlimits] at hallowed
  intro hagain
  -- No turn changes the rulebook, so it is the same charge that would be refused now.
  obtain ⟨c', hc', hrefused⟩ := (a'.status_serve_iff clock' r).mp hagain
  have hsame : c = c' := Option.some.inj ((hc.symm.trans (hbook ▸ rfl)).trans hc')
  rw [← hsame] at hrefused
  exact absurd (hallowed.symm.trans hrefused) (by decide)

theorem interval_le_of_secs (q : Allowance) {p : Duration} (hwhole : .ofSecs p.secs = p)
    (hsecs : 1 ≤ p.secs) : q.interval p ≤ p.secs * 1_000_000_000 := by
  have hnanos : p.nanos ≤ p.secs * 1_000_000_000 := by
    have htruncated := congrArg Duration.nanos ((Duration.ofSecs_secs p).symm.trans hwhole)
    exact Nat.le_of_eq htruncated.symm
  refine Nat.max_le.mpr ⟨?_, Nat.le_trans (Nat.div_le_self _ _) hnanos⟩
  omega

/-- **Whoever is told to wait and waits is let through**, provided that a request takes no longer
than the wait under the rule that has made the bucket. So it is if this is the rule that decides
about the request, and its period is at least a second and whole seconds. -/
theorem retry_after_is_honest (h : ComesBack b before between a a' clock clock' r s) :
    ∃ c, r.charge? b = some c ∧ (∃ maker, MadeBy b c.key maker before) ∧
      ∀ maker, MadeBy b c.key maker before →
        ∃ rule q, b.ruleAt? maker = some rule ∧ rule.quota = .limit q ∧
          (q.interval rule.period ≤ s * 1_000_000_000 → (a'.serve clock' r).1.status ≠ 429) ∧
          (b.decider? (pathOf r.target) (.http r.headers) = some maker →
            .ofSecs rule.period.secs = rule.period → 1 ≤ rule.period.secs →
              (a'.serve clock' r).1.status ≠ 429) := by
  obtain ⟨c, bucket, hc, hsecs, hfound⟩ := h.refusal
  refine ⟨c, hc, Limiter.exists_madeBy hfound, fun maker hmade => ?_⟩
  obtain ⟨rule, hat, hquota, hinterval⟩ := hmade.quota hfound
  refine ⟨rule, bucket.allowance, hat, hquota, fun hwait => ?_, fun hdecides hwhole hsecond => ?_⟩
  · rw [← hinterval] at hwait
    exact h.allowed hc hfound hwait
  · obtain ⟨decider, hdecider, -, hperiod⟩ :=
      Rulebook.rule_of_charge? hdecides (Request.charge?_turn hc)
    obtain rfl := Option.some.inj (hat.symm.trans hdecider)
    have hwait : s = rule.period.secs := by rw [hperiod, hsecs]
    refine h.allowed hc hfound ?_
    rw [hinterval, hwait]
    exact interval_le_of_secs bucket.allowance hwhole hsecond

end ComesBack

/-- A user who may ask once a minute is refused at once, and let through a minute later. -/
theorem retry_after_is_honest_minute :
    let rule : PathRule := ⟨"/get/", ["user-id"], .limit ⟨1, by decide, by decide⟩, .ofSecs 60,
      some "wait"⟩
    let b := Rulebook.empty.addRule rule
    let r : Request := ⟨"GET", "/get/k", [("user-id", "u")], .empty⟩
    let first := ((create .start .standard b none).serve .start r).2
    let back := Clock.start.advance (.ofSecs 60)
    ComesBack b [(0, r.turn)] [] first (first.serve .start r).2 .start back r 60 ∧
      ((first.serve .start r).2.serve back r).1.status ≠ 429 := by
  intro rule b r first back
  have hcharge : r.charge? b = some ⟨".u", ⟨1, by decide, by decide⟩, .ofSecs 60, "wait"⟩ := by
    decide +kernel
  have hcomes : ComesBack b [(0, r.turn)] [] first (first.serve .start r).2 .start back r 60 := by
    refine ⟨limits_serve_of_charge hcharge, ?_, by decide +kernel, by decide +kernel, rfl, ?_,
      by decide +kernel⟩
    · intro t ht
      obtain rfl := List.mem_singleton.mp ht
      exact Nat.le_refl 0
    · intro c hc t ht
      cases ht
  have hmade : MadeBy b ".u" (.listed 0) ([] ++ [(0, r.turn)]) :=
    .make rfl (by decide +kernel) (Request.charge?_turn hcharge) rfl 0
  obtain ⟨c, hc, -, hmakers⟩ := retry_after_is_honest hcomes
  obtain rfl := Option.some.inj (hcharge.symm.trans hc)
  obtain ⟨maker, q, hmaker, -, -, hown⟩ := hmakers (.listed 0) hmade
  obtain rfl : rule = maker := Option.some.inj hmaker
  exact ⟨hcomes, hown (by decide +kernel) (by decide +kernel) (by decide +kernel)⟩

/-- A user who may ask once an hour for the statistics and once a second for a key asks for both:
the answer to the second request says to wait for a second, and after that it is refused again. -/
theorem retry_after_of_another_rule :
    let hourly : PathRule := ⟨"/stats", ["user-id"], .limit ⟨1, by decide, by decide⟩,
      .ofSecs 3600, some "wait"⟩
    let everySecond : PathRule := ⟨"/get/", ["user-id"], .limit ⟨1, by decide, by decide⟩,
      .ofSecs 1, some "wait"⟩
    let b := (Rulebook.empty.addRule hourly).addRule everySecond
    let statistics : Request := ⟨"GET", "/stats", [("user-id", "u")], .empty⟩
    let r : Request := ⟨"GET", "/get/k", [("user-id", "u")], .empty⟩
    let first := ((create .start .standard b none).serve .start statistics).2
    let back := Clock.start.advance (.ofSecs 1)
    ComesBack b [(0, statistics.turn)] [] first (first.serve .start r).2 .start back r 1 ∧
      ((first.serve .start r).2.serve back r).1.status = 429 := by
  intro hourly everySecond b statistics r first back
  have hcharge : statistics.charge? b =
      some ⟨".u", ⟨1, by decide, by decide⟩, .ofSecs 3600, "wait"⟩ := by
    decide +kernel
  refine ⟨⟨limits_serve_of_charge hcharge, ?_, by decide +kernel, by decide +kernel, rfl, ?_,
    by decide +kernel⟩, by decide +kernel⟩
  · intro t ht
    obtain rfl := List.mem_singleton.mp ht
    exact Nat.le_refl 0
  · intro c hc t ht
    cases ht

/-! ## The limiter of a service -/

/-- Some turns at one moment lead from the limiter of an app to that of another. -/
def Turns (now : Nat) (a a' : App) : Prop :=
  ∃ turns : List (Nat × LimiterTurn), (∀ t ∈ turns, t.1 = now) ∧ a'.limits = a.limits.run turns

variable {now : Nat} {a' a'' : App}

theorem Turns.of_eq (h : a'.limits = a.limits) : Turns now a a' := by
  refine ⟨[], ?_, h⟩
  intro t ht
  cases ht

theorem Turns.trans (h : Turns now a a') (h' : Turns now a' a'') : Turns now a a'' := by
  obtain ⟨ts, hts, hlimits⟩ := h
  obtain ⟨ts', hts', hlimits'⟩ := h'
  refine ⟨ts ++ ts', ?_, ?_⟩
  · intro t ht
    rcases List.mem_append.mp ht with ht | ht
    · exact hts t ht
    · exact hts' t ht
  · rw [hlimits', hlimits]
    exact (runTurns_append Limiter.turn a.limits ts ts').symm

theorem turns_serve (a : App) (clock : Clock) (r : Request) :
    Turns clock.elapsed a (a.serve clock r).2 := by
  cases hc : r.charge? a.limiter.rulebook with
  | none => exact .of_eq (limits_serve_of_no_charge hc)
  | some c =>
    refine ⟨[(clock.elapsed, r.turn)], ?_, limits_serve_of_charge hc⟩
    intro t ht
    rw [List.mem_singleton.mp ht]

theorem serveTimes_succ_snd (a : App) (clock : Clock) (r : Request) (n : Nat) :
    (a.serveTimes clock r (n + 1)).2 = ((a.serve clock r).2.serveTimes clock r n).2 := by
  rw [serveTimes]
  cases a.serve clock r with
  | mk response served =>
    cases n with
    | zero => rfl
    | succ n => rfl

/-- What a request keeps is kept by any number of them in a row. -/
theorem serveTimes_induction {clock : Clock} {r : Request} {P : App → Prop}
    (hserve : ∀ a, P a → P (a.serve clock r).2) (ha : P a) (n : Nat) :
    P (a.serveTimes clock r n).2 := by
  induction n generalizing a with
  | zero => exact ha
  | succ n ih =>
    rw [serveTimes_succ_snd]
    exact ih (hserve a ha)

theorem turns_serveTimes (clock : Clock) (r : Request) (n : Nat) (a : App) :
    Turns clock.elapsed a (a.serveTimes clock r n).2 :=
  serveTimes_induction (P := fun a' => Turns clock.elapsed a a')
    (fun a' h => h.trans (a'.turns_serve clock r)) (.of_eq rfl) n

/-- The sweeps that are due are turns. -/
theorem turns_settle (a : App) (clock : Clock) : Turns clock.elapsed a (a.settle clock) := by
  obtain ⟨due, hdue⟩ := TokenBuckets.buckets_settle a.limiter.meter clock.elapsed
  have hsweeps (n : Nat) : ∀ l : Limiter TokenBuckets,
      { l with meter := l.meter.run (List.replicate n (clock.elapsed, .sweep clock.elapsed)) } =
        l.run (List.replicate n (clock.elapsed, .sweep clock.elapsed)) := by
    induction n with
    | zero => exact fun l => rfl
    | succ n ih => exact fun l => ih (l.turn clock.elapsed (.sweep clock.elapsed))
  refine ⟨List.replicate due (clock.elapsed, .sweep clock.elapsed), ?_, ?_⟩
  · intro t ht
    rw [List.eq_of_mem_replicate ht]
  · rw [← hsweeps due a.limits, limits, settle]
    simp only [hdue, limits]

end App

namespace Service

/-- What happens to a service is, for its limiter, some turns at the moment at which it happens. -/
theorem turns_step (s : Service) (e : ServiceEvent) :
    s.clock.elapsed ≤ (s.step e).2.clock.elapsed ∧
      App.Turns (s.step e).2.clock.elapsed s.app (s.step e).2.app := by
  cases e with
  | request r times =>
    exact ⟨Nat.le_refl _, (App.turns_serveTimes s.clock r times s.app).trans (App.turns_settle _ _)⟩
  | advance d => exact ⟨Nat.le_add_right _ _, s.app.turns_settle (s.clock.advance d)⟩
  | setWall millis => exact ⟨Nat.le_refl _, s.app.turns_settle (s.clock.setWall millis)⟩
  | closePool => exact ⟨Nat.le_refl _, s.app.closePool.turns_settle s.clock⟩
  | shutdown => exact ⟨Nat.le_refl _, s.app.shutdown.turns_settle s.clock⟩

/-- **The limiter of a service has come about by turns in its past**, whatever has happened. -/
theorem reaches_limits (cache : CacheConfig) (b : Rulebook) (pool : Option PoolConfig)
    (events : List ServiceEvent) :
    let s := events.foldl (fun s e => (s.step e).2) (start cache b pool)
    ∃ turns : List (Nat × LimiterTurn), (∀ t ∈ turns, t.1 ≤ s.clock.elapsed) ∧
      s.app.limits = (fresh b).run turns := by
  induction events using List.reverseRecOn with
  | nil =>
    refine ⟨[], ?_, rfl⟩
    intro t ht
    cases ht
  | append_singleton events e ih =>
    obtain ⟨past, hpast, hlimits⟩ := ih
    rw [List.foldl_append, List.foldl_cons, List.foldl_nil]
    obtain ⟨hle, turns, hturns, hstep⟩ :=
      turns_step (events.foldl (fun s e => (s.step e).2) (start cache b pool)) e
    refine ⟨past ++ turns, ?_, ?_⟩
    · intro t ht
      rcases List.mem_append.mp ht with ht | ht
      · exact Nat.le_trans (hpast t ht) hle
      · exact Nat.le_of_eq (hturns t ht)
    · rw [hstep, hlimits]
      exact (runTurns_append Limiter.turn (fresh b) past turns).symm

end Service

end BoundedResources.Http
