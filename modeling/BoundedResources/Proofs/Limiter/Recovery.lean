import BoundedResources.Proofs.Limiter.Peeking
import BoundedResources.Proofs.Limiter.RateBound
import BoundedResources.Proofs.Limiter.Waiting

/-!
# How a key recovers

A key that was refused gets back what it has spent, a request per interval, for as long as it is
granted nothing. That others ask in the meantime is no matter if they are refused or ask for
nothing, and so it is enough to know when the key was last granted something
(`TokenBuckets.lastGrant?`): what its bucket has granted reaches a capacity and an interval beyond
that moment at most (`Bucket.SpentBy`).

**`TokenBuckets.recovers`** says that `n` requests can be had `n` intervals later, and the whole
quota one period later. The interval is cut to whole nanoseconds, so that a quota's worth of
intervals takes no longer than the period; but it is never zero, which is why the period must not be
shorter than a nanosecond for each request of the quota. The period is the one that the bucket was
made for (`TokenBuckets.madeFor?`), whatever calls have named since.
-/

set_option autoImplicit false

namespace BoundedResources

/-- A whole quota of intervals takes no longer than the period, unless that is too short for the
clock. -/
theorem Allowance.interval_mul_count_le {q : Allowance} {p : Duration} (h : q.count ≤ p.nanos) :
    q.interval p * q.count ≤ p.nanos := by
  have hone : 1 ≤ p.nanos / q.count := (Nat.one_le_div_iff q.positive).mpr h
  rw [interval, Nat.max_eq_right hone]
  exact Nat.div_mul_le_self p.nanos q.count

namespace Bucket

variable {b : Bucket} {now n : Nat} {moments : List Nat}

/-- What the bucket has granted, it has granted by the last of some moments. -/
def SpentBy (b : Bucket) (moments : List Nat) : Prop :=
  b.arrival = none ∨ ∃ last, moments.getLast? = some last ∧ b.Within last

theorem SpentBy.call (h : b.SpentBy moments) (now n : Nat) :
    (b.call now n).SpentBy
      (moments ++ if 0 < (if b.admits now n then n else 0) then [now] else []) := by
  rcases Nat.eq_zero_or_pos n with rfl | hn
  · simpa [Bucket.call] using h
  · cases hcase : b.admits now n with
    | true =>
      rw [if_pos rfl, if_pos hn]
      -- whatever was granted before, this grant is the last one, and its bound is from now
      refine .inr ⟨now, List.getLast?_concat, fun arrival harrival => ?_⟩
      rw [call_of_admits hcase hn, Option.some.injEq] at harrival
      have hbound := arrivalAfter_le hcase hn
      rw [capacity, allowance_call, interval_call, ← capacity]
      omega
    | false =>
      rw [call_of_refused hcase hn, if_neg Bool.false_ne_true, if_neg (Nat.lt_irrefl 0),
        List.append_nil]
      exact h

/-- **What is spent comes back with time.** -/
theorem SpentBy.admits (h : b.SpentBy moments) (hn : 1 ≤ n) (hcount : n ≤ b.allowance.count)
    (hquiet : ∀ last, moments.getLast? = some last → last + b.interval * n ≤ now) :
    b.admits now n = true := by
  rcases h with hnone | ⟨last, hlast, hwithin⟩
  · exact admits_of_none hnone now hn hcount
  · exact hwithin.admits hn hcount (hquiet last hlast)

end Bucket

namespace TokenBuckets

variable {t : TokenBuckets} {key : String}

/-! ## What is told of a key -/

/-- The moment of a turn that grants something of a key. -/
def grantMoments (key : String) (t : TokenBuckets) (now : Nat) (e : MeterTurn) : List Nat :=
  if 0 < t.grants now key e then [now] else []

/-- When a key was last granted something in the course of some turns. -/
def lastGrant? (key : String) (turns : List (Nat × MeterTurn)) : Option Nat :=
  (runReports turn (grantMoments key) empty turns).getLast?

/-- The quota and the period of a call that finds no bucket for a key. -/
def makes (key : String) (t : TokenBuckets) (_ : Nat) : MeterTurn → List (Allowance × Duration)
  | .spend k q p _ => if k = key ∧ (t.buckets.get? key).isNone then [(q, p)] else []
  | .sweep _ => []

/-- The quota and the period that the bucket of a key was made for: those of the last call that has
found none. -/
def madeFor? (key : String) (turns : List (Nat × MeterTurn)) : Option (Allowance × Duration) :=
  (runReports turn (makes key) empty turns).getLast?

/-- At a moment, a key has not been granted anything for some time, or not at all. -/
def QuietFor (key : String) (turns : List (Nat × MeterTurn)) (now time : Nat) : Prop :=
  ∀ last, lastGrant? key turns = some last → last + time ≤ now

theorem spentBy_bucketFor {moments : List Nat}
    (h : ∀ b, t.buckets.get? key = some b → b.SpentBy moments) (millis : Nat) (q : Allowance)
    (p : Duration) : (t.bucketFor millis key q p).SpentBy moments :=
  bucketFor_induction (P := fun b => b.SpentBy moments) (fun _ => .inl rfl) (fun _ _ hb => hb) h
    millis

/-- What the bucket of a key has granted, it has granted by when the key was last granted
something. -/
structure SpentBy (t : TokenBuckets) (key : String) (moments : List Nat) : Prop where
  distinct : t.buckets.DistinctKeys
  bucket : ∀ b, t.buckets.get? key = some b → b.SpentBy moments

theorem grants_of_not_callsFor (t : TokenBuckets) (now : Nat) {e : MeterTurn}
    (h : e.callsFor key = false) : t.grants now key e = 0 := by
  cases e with
  | spend k q p n => exact t.grants_spend_of_ne now (of_decide_eq_false h) q p n
  | sweep asOf => rfl

theorem SpentBy.turn {moments : List Nat} (h : t.SpentBy key moments) (now : Nat)
    (e : MeterTurn) : (t.turn now e).SpentBy key (moments ++ grantMoments key t now e) := by
  refine ⟨distinctKeys_turn h.distinct now e, fun b hb => ?_⟩
  rcases bucket_turn_cases h.distinct hb with ⟨hkept, hother⟩ | ⟨q, p, n, rfl, rfl⟩
  · rw [grantMoments, t.grants_of_not_callsFor now hother, if_neg (Nat.lt_irrefl 0),
      List.append_nil]
    exact h.bucket b hkept
  · rw [grantMoments, grants_spend]
    exact (spentBy_bucketFor h.bucket _ q p).call now n

theorem spentBy_run (key : String) (turns : List (Nat × MeterTurn)) :
    (empty.run turns).SpentBy key (runReports turn (grantMoments key) empty turns) :=
  have hempty : empty.SpentBy key [] := ⟨List.nodup_nil, fun _ hb => (nomatch hb)⟩
  runReports_induction (grantMoments key) (P := fun t moments => SpentBy t key moments) hempty
    (fun _ _ now e h => h.turn now e) turns

/-- The bucket of a key is for the last of some quotas and periods. -/
structure MadeFor (t : TokenBuckets) (key : String) (terms : List (Allowance × Duration)) :
    Prop where
  distinct : t.buckets.DistinctKeys
  bucket : ∀ b, t.buckets.get? key = some b →
    ∃ p, terms.getLast? = some (b.allowance, p) ∧ b.interval = b.allowance.interval p

theorem MadeFor.turn {terms : List (Allowance × Duration)} (h : t.MadeFor key terms) (now : Nat)
    (e : MeterTurn) : (t.turn now e).MadeFor key (terms ++ makes key t now e) := by
  refine ⟨distinctKeys_turn h.distinct now e, fun b hb => ?_⟩
  rcases bucket_turn_cases h.distinct hb with ⟨hkept, hother⟩ | ⟨q, p, n, rfl, rfl⟩
  · have hnone : makes key t now e = [] := by
      cases e with
      | spend k q p n => exact if_neg fun hk => of_decide_eq_false hother hk.1
      | sweep asOf => rfl
    rw [hnone, List.append_nil]
    exact h.bucket b hkept
  · rw [Bucket.allowance_call, Bucket.interval_call, makes, bucketFor]
    cases hget : t.buckets.get? key with
    | none =>
      rw [if_pos ⟨rfl, rfl⟩]
      exact ⟨p, List.getLast?_concat, rfl⟩
    | some old =>
      rw [if_neg (by simp), List.append_nil]
      exact h.bucket old hget

theorem madeFor_run (key : String) (turns : List (Nat × MeterTurn)) :
    (empty.run turns).MadeFor key (runReports turn (makes key) empty turns) :=
  have hempty : empty.MadeFor key [] := ⟨List.nodup_nil, fun _ hb => (nomatch hb)⟩
  runReports_induction (makes key) (P := fun t terms => MadeFor t key terms) hempty
    (fun _ _ now e h => h.turn now e) turns

/-! ## Recovery -/

/-- **A key recovers a request per interval, and all of its quota in a period.**

Whoever took turns at the meter, in whatever order and under whatever quotas, a call is let through
that asks for at least one request and for no more than the quota of the bucket, if the key was last
granted something as many intervals ago as it asks for requests; or a period ago, if the period that
the bucket was made for has a nanosecond at least for each request of the quota. -/
theorem recovers (turns : List (Nat × MeterTurn)) (now : Nat) (key : String) (q : Allowance)
    (p : Duration) (n : Nat) :
    let b := (empty.run turns).bucketFor (now / 1_000_000) key q p
    let allowed := ((empty.run turns).spend now key q p n).1.allowed = true
    ∃ period, madeFor? key (turns ++ [(now, .spend key q p n)]) = some (b.allowance, period) ∧
      b.interval = b.allowance.interval period ∧
      (1 ≤ n → n ≤ b.allowance.count → QuietFor key turns now (n * b.interval) → allowed) ∧
      (1 ≤ n → n ≤ b.allowance.count → b.allowance.count ≤ period.nanos →
        QuietFor key turns now period.nanos → allowed) := by
  intro b allowed
  have hspent := spentBy_bucketFor (spentBy_run key turns).bucket (now / 1_000_000) q p
  -- The call makes the bucket itself if it finds none; so its maker is read off the state after it.
  have hbucket : (empty.run (turns ++ [(now, .spend key q p n)])).buckets.get? key =
      some (b.call now n) := by
    rw [run, runTurns_append]
    exact (get?_spend _ now key key q p n).trans (if_pos rfl)
  obtain ⟨period, hmade, hinterval⟩ := (madeFor_run key _).bucket _ hbucket
  rw [Bucket.allowance_call] at hmade hinterval
  rw [Bucket.interval_call] at hinterval
  have hrecovers (hn : 1 ≤ n) (hcount : n ≤ b.allowance.count)
      (hquiet : QuietFor key turns now (n * b.interval)) : allowed := by
    show (TokenBuckets.spend _ now key q p n).1.allowed = true
    rw [allowed_spend _ _ _ _ _ (by omega)]
    refine hspent.admits hn hcount fun last hlast => ?_
    rw [Nat.mul_comm]
    exact hquiet last hlast
  refine ⟨period, hmade, hinterval, hrecovers, fun hn hcount hperiod hquiet => ?_⟩
  refine hrecovers hn hcount fun last hlast => Nat.le_trans ?_ (hquiet last hlast)
  have hless : n * b.interval ≤ b.allowance.interval period * b.allowance.count := by
    rw [hinterval, Nat.mul_comm]
    exact Nat.mul_le_mul_left _ hcount
  exact Nat.add_le_add_left
    (Nat.le_trans hless (Allowance.interval_mul_count_le hperiod)) last

/-- A key with three requests per second has spent them. It is refused one and is asked what is
left; it gets two after two thirds of the second, or all three after the second. -/
theorem recovers_three_per_second :
    let q : Allowance := ⟨3, by decide, by decide⟩
    let second := Duration.ofSecs 1
    let turns := [(0, MeterTurn.spend "k" q second 3), (300_000_000, .spend "k" q second 1),
      (600_000_000, .spend "k" q second 0)]
    lastGrant? "k" turns = some 0 ∧
      ((empty.run turns).spend 600_000_000 "k" q second 2).1.allowed = false ∧
      ((empty.run turns).spend 666_666_666 "k" q second 2).1.allowed = true ∧
      ((empty.run turns).spend 1_000_000_000 "k" q second 3).1.allowed = true := by
  intro q second turns
  have hlast : lastGrant? "k" turns = some 0 := by decide +kernel
  have hquiet {now time : Nat} (h : time ≤ now) : QuietFor "k" turns now time := by
    intro last hgranted
    obtain rfl : 0 = last := Option.some.inj (hlast.symm.trans hgranted)
    omega
  refine ⟨hlast, by decide +kernel, ?_, ?_⟩
  · obtain ⟨period, hterms, hinterval, hrecovers, -⟩ := recovers turns 666_666_666 "k" q second 2
    have hmade : madeFor? "k" (turns ++ [(666_666_666, .spend "k" q second 2)]) =
        some (q, second) := by
      decide +kernel
    obtain ⟨hq, rfl⟩ := Prod.mk.inj (Option.some.inj (hmade.symm.trans hterms))
    rw [← hq] at hinterval hrecovers
    exact hrecovers (by decide) (by decide) (hquiet (by rw [hinterval]; decide))
  · obtain ⟨period, hterms, -, -, hrecovers⟩ := recovers turns 1_000_000_000 "k" q second 3
    have hmade : madeFor? "k" (turns ++ [(1_000_000_000, .spend "k" q second 3)]) =
        some (q, second) := by
      decide +kernel
    obtain ⟨hq, rfl⟩ := Prod.mk.inj (Option.some.inj (hmade.symm.trans hterms))
    rw [← hq] at hrecovers
    exact hrecovers (by decide) (by decide) (by decide) (hquiet (by decide))

end TokenBuckets

end BoundedResources
