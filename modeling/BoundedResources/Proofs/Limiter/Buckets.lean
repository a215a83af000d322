import BoundedResources.Limiter.TokenBuckets

/-!
# How full a bucket is

All that a bucket knows about the requests that it has granted is one moment, its arrival time.
This file says how that moment moves: a grant never puts it off further than the capacity and one
interval beyond now (`arrivalAfter_le`), and it is bounded all the time by when the bucket was
last asked (`Bucket.Sound`). Because an idle bucket is kept for longer than its capacity takes to
refill, a bucket that a sweep forgets has nothing left to refill but one interval
(`Sound.arrival_le_of_isIdle`).
-/

set_option autoImplicit false

namespace BoundedResources

/-- The time between two requests at full rate. -/
def Allowance.interval (q : Allowance) (p : Duration) : Nat := max 1 (p.nanos / q.count)

theorem Allowance.interval_pos (q : Allowance) (p : Duration) : 0 < q.interval p :=
  Nat.lt_of_lt_of_le Nat.zero_lt_one (Nat.le_max_left _ _)

namespace Bucket

/-- The bucket after it was asked for `n` requests; asking for none changes nothing. -/
def call (b : Bucket) (now n : Nat) : Bucket := if n = 0 then b else (b.spend now n).2

/-- The moment from which the next granted requests count: the arrival time, unless it has
passed. -/
def level (b : Bucket) (now : Nat) : Nat := max (b.arrivalAt now) now

/-- Requests are granted if there are no more of them than the quota has, and the last of them comes
within the capacity. -/
theorem admits_iff (b : Bucket) (now n : Nat) :
    b.admits now n = true ↔
      n ≤ b.allowance.count ∧ b.arrivalAt now + b.interval * (n - 1) ≤ now + b.capacity := by
  rw [admits, Bool.and_eq_true, decide_eq_true_eq, decide_eq_true_eq]
  apply and_congr_left
  intro _
  exact Nat.mul_le_mul_left_iff b.interval_pos

theorem arrivalAfter_eq (b : Bucket) (now n : Nat) :
    b.arrivalAfter now n = b.level now + b.interval * n := rfl

/-- **A grant puts the arrival time off to the capacity and one interval after now at most.** The
interval beyond the capacity is there because the last of the requests is looked at before it is
counted. -/
theorem arrivalAfter_le {b : Bucket} {now n : Nat} (h : b.admits now n = true) (hn : 1 ≤ n) :
    b.arrivalAfter now n ≤ now + b.capacity + b.interval := by
  obtain ⟨hcount, hroom⟩ := (b.admits_iff now n).mp h
  obtain ⟨m, rfl⟩ : ∃ m, n = m + 1 := ⟨n - 1, by omega⟩
  have hall : b.interval * (m + 1) ≤ b.capacity := Nat.mul_le_mul_left _ hcount
  rw [Nat.add_sub_cancel] at hroom
  rw [Nat.mul_succ] at hall
  rw [arrivalAfter, Nat.mul_succ]
  rcases Nat.le_total (b.arrivalAt now) now with hle | hle
  · rw [Nat.max_eq_right hle]
    omega
  · rw [Nat.max_eq_left hle]
    omega

theorem level_mono (b : Bucket) {now later : Nat} (h : now ≤ later) :
    b.level now ≤ b.level later := by
  unfold level arrivalAt
  cases b.arrival with
  | none =>
    simp only [Option.getD_none]
    omega
  | some arrival =>
    simp only [Option.getD_some]
    omega

/-- A grant moves the arrival time, and a refusal leaves it. -/
theorem arrival_spend (b : Bucket) (now n : Nat) :
    (b.spend now n).2.arrival =
      if b.admits now n then some (b.arrivalAfter now n) else b.arrival := by
  unfold spend
  split <;> rfl

theorem spend_fst (b : Bucket) (now n : Nat) : (b.spend now n).1 = b.admits now n := by
  unfold spend
  split
  · rename_i h
    exact h.symm
  · rename_i h
    exact (Bool.not_eq_true _ ▸ h).symm

@[simp] theorem allowance_spend (b : Bucket) (now n : Nat) :
    (b.spend now n).2.allowance = b.allowance := by
  unfold spend
  split <;> rfl

@[simp] theorem interval_spend (b : Bucket) (now n : Nat) :
    (b.spend now n).2.interval = b.interval := by
  unfold spend
  split <;> rfl

@[simp] theorem lifetime_spend (b : Bucket) (now n : Nat) :
    (b.spend now n).2.lifetime = b.lifetime := by
  unfold spend
  split <;> rfl

@[simp] theorem lastSeen_spend (b : Bucket) (now n : Nat) :
    (b.spend now n).2.lastSeen = b.lastSeen := by
  unfold spend
  split <;> rfl

@[simp] theorem allowance_call (b : Bucket) (now n : Nat) :
    (b.call now n).allowance = b.allowance := by
  unfold call
  split
  · rfl
  · exact b.allowance_spend now n

@[simp] theorem interval_call (b : Bucket) (now n : Nat) :
    (b.call now n).interval = b.interval := by
  unfold call
  split
  · rfl
  · exact b.interval_spend now n

@[simp] theorem lifetime_call (b : Bucket) (now n : Nat) :
    (b.call now n).lifetime = b.lifetime := by
  unfold call
  split
  · rfl
  · exact b.lifetime_spend now n

/-! ## What a bucket keeps -/

/-- What holds of a bucket that was made and asked no later than `now`. -/
structure Sound (b : Bucket) (now : Nat) : Prop where
  /-- An idle bucket is kept for as long as it takes to refill. -/
  refills : b.capacity ≤ b.lifetime * 1_000_000
  /-- It was not seen later than now. -/
  seen : b.lastSeen * 1_000_000 ≤ now
  /-- When it was last seen it was full at most. -/
  bounded : ∀ arrival, b.arrival = some arrival →
    arrival < (b.lastSeen + 1) * 1_000_000 + b.capacity + b.interval

theorem Sound.later {b : Bucket} {now later : Nat} (h : b.Sound now) (hle : now ≤ later) :
    b.Sound later :=
  ⟨h.refills, Nat.le_trans h.seen hle, h.bounded⟩

theorem sound_create (q : Allowance) (p : Duration) (now : Nat) :
    (create q p (now / 1_000_000)).Sound now := by
  refine ⟨?_, ?_, ?_⟩
  · have hq := q.bounded
    have hhour : minBucketLifetime.millis = 3_600_000 := rfl
    have hdiv := Nat.div_mul_le_self p.nanos q.count
    show max 1 (p.nanos / q.count) * q.count ≤
      max (2 * p.nanos / 1_000_000) minBucketLifetime.millis * 1_000_000
    rw [hhour]
    rcases Nat.le_total (p.nanos / q.count) 1 with hle | hle
    · rw [Nat.max_eq_left hle, Nat.one_mul]
      omega
    · rw [Nat.max_eq_right hle]
      omega
  · exact Nat.div_mul_le_self now 1_000_000
  · intro arrival h
    cases h

theorem Sound.touch {b : Bucket} {now : Nat} (h : b.Sound now) :
    (b.touch (now / 1_000_000)).Sound now := by
  refine ⟨h.refills, ?_, ?_⟩
  · show max b.lastSeen (now / 1_000_000) * 1_000_000 ≤ now
    rcases Nat.le_total b.lastSeen (now / 1_000_000) with hle | hle
    · rw [Nat.max_eq_right hle]
      exact Nat.div_mul_le_self now 1_000_000
    · rw [Nat.max_eq_left hle]
      exact h.seen
  · intro arrival ha
    apply Nat.lt_of_lt_of_le (h.bounded arrival ha)
    have hseen : b.lastSeen ≤ (b.touch (now / 1_000_000)).lastSeen := Nat.le_max_left _ _
    have hmillis := Nat.mul_le_mul_right 1_000_000 (Nat.succ_le_succ hseen)
    exact Nat.add_le_add_right (Nat.add_le_add_right hmillis _) _

/-- A bucket that has been seen now stays sound when it is asked. -/
theorem Sound.spend {b : Bucket} {now : Nat} (h : b.Sound now)
    (hseen : now < (b.lastSeen + 1) * 1_000_000) {n : Nat} (hn : 1 ≤ n) :
    (b.spend now n).2.Sound now := by
  refine ⟨?_, ?_, ?_⟩
  · simpa [capacity] using h.refills
  · simpa using h.seen
  · intro arrival ha
    rw [arrival_spend] at ha
    simp only [capacity, lastSeen_spend, interval_spend, allowance_spend]
    split at ha
    · rename_i hadmits
      have := arrivalAfter_le hadmits hn
      rw [Option.some.injEq] at ha
      simp only [capacity] at this
      omega
    · exact h.bounded arrival ha

theorem Sound.call {b : Bucket} {now : Nat} (h : b.Sound now)
    (hseen : now < (b.lastSeen + 1) * 1_000_000) (n : Nat) : (b.call now n).Sound now := by
  unfold Bucket.call
  split
  · exact h
  · rename_i hn
    exact h.spend hseen (Nat.one_le_iff_ne_zero.mpr hn)

/-- **What a sweep forgets is full again, but for one interval.** -/
theorem Sound.arrival_le_of_isIdle {b : Bucket} {now asOf : Nat} (h : b.Sound now)
    (hidle : b.isIdle (asOf / 1_000_000) = true) {arrival : Nat}
    (ha : b.arrival = some arrival) : arrival ≤ asOf + b.interval := by
  have hbound := h.bounded arrival ha
  have hrefill := h.refills
  simp only [isIdle, decide_eq_true_eq] at hidle
  omega

end Bucket

end BoundedResources
