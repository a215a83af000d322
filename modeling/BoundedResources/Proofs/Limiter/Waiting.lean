import BoundedResources.Proofs.Limiter.Isolation

/-!
# How long a key has to wait

What a bucket has granted reaches a capacity and an interval beyond the last grant at most
(`Bucket.Within`). So whoever is refused is let through one interval later, as long as nobody else
spends anything of the key (**`Limiter.allowed_after_interval`**): requests under other keys do not
touch its bucket, and a sweep that forgets the bucket makes room for a new one, which lets a request
through at once (`Limiter.Ready`).

The interval is the one that the bucket was made with. It says nothing about the period of the rule
that has refused the request, unless that rule has made the bucket.
-/

set_option autoImplicit false

namespace BoundedResources

/-! ## Buckets -/

namespace Bucket

variable {b : Bucket} {past now n : Nat}

/-- What the bucket has granted reaches a capacity and an interval beyond a moment at most. -/
def Within (b : Bucket) (now : Nat) : Prop :=
  ∀ arrival, b.arrival = some arrival → arrival ≤ now + b.capacity + b.interval

theorem within_of_none (h : b.arrival = none) (now : Nat) : b.Within now := by
  intro arrival harrival
  rw [h] at harrival
  cases harrival

/-- What is granted now is not beyond what any later moment allows. -/
theorem Within.call (h : b.Within now) (hle : past ≤ now) (n : Nat) :
    (b.call past n).Within now := by
  intro arrival harrival
  rw [capacity, allowance_call, interval_call]
  unfold Bucket.call at harrival
  split at harrival
  · exact h arrival harrival
  · rename_i hn
    rw [arrival_spend] at harrival
    split at harrival
    · rename_i hadmits
      have hbound := arrivalAfter_le hadmits (Nat.one_le_iff_ne_zero.mpr hn)
      obtain rfl := Option.some.inj harrival
      rw [capacity] at hbound
      omega
    · exact h arrival harrival

/-- A bucket whose arrival time is no more than an interval ahead grants its whole quota, but no
more. -/
theorem admits_iff_le_count (h : b.arrivalAt now ≤ now + b.interval) (hn : n ≠ 0) :
    b.admits now n = true ↔ n ≤ b.allowance.count := by
  rw [admits_iff]
  refine and_iff_left_of_imp fun hcount => ?_
  obtain ⟨m, rfl⟩ : ∃ m, n = m + 1 := ⟨n - 1, by omega⟩
  have hall : b.interval * (m + 1) ≤ b.capacity := Nat.mul_le_mul_left _ hcount
  rw [Nat.mul_succ] at hall
  rw [Nat.add_sub_cancel]
  omega

theorem arrivalAt_le_of_none (h : b.arrival = none) (now : Nat) :
    b.arrivalAt now ≤ now + b.interval := by
  simp [arrivalAt, h]

theorem admits_of_none (h : b.arrival = none) (now : Nat) (hn : 1 ≤ n)
    (hcount : n ≤ b.allowance.count) : b.admits now n = true :=
  (admits_iff_le_count (arrivalAt_le_of_none h now) (by omega)).mpr hcount

/-- **A bucket grants as many requests as intervals have passed**, up to its quota. -/
theorem Within.admits (h : b.Within past) (hn : 1 ≤ n) (hcount : n ≤ b.allowance.count)
    (hwait : past + b.interval * n ≤ now) : b.admits now n = true := by
  cases harrival : b.arrival with
  | none => exact admits_of_none harrival now hn hcount
  | some arrival =>
    have hbound := h arrival harrival
    obtain ⟨m, rfl⟩ : ∃ m, n = m + 1 := ⟨n - 1, by omega⟩
    rw [Nat.mul_succ] at hwait
    rw [admits_iff, arrivalAt, harrival, Option.getD_some, Nat.add_sub_cancel]
    exact ⟨hcount, by omega⟩

end Bucket

/-- A key is given its bucket, or a new one that has granted nothing. -/
theorem TokenBuckets.bucketFor_cases (t : TokenBuckets) (millis : Nat) (key : String)
    (q : Allowance) (p : Duration) :
    (∃ b, t.buckets.get? key = some b ∧ t.bucketFor millis key q p = b.touch millis) ∨
      (t.buckets.get? key = none ∧ (t.bucketFor millis key q p).arrival = none) := by
  unfold bucketFor
  cases hget : t.buckets.get? key with
  | some b => exact .inl ⟨b, rfl, rfl⟩
  | none => exact .inr ⟨rfl, rfl⟩

/-! ## Limiters -/

/-- Whether a turn spends something of a key; a request that asks for nothing does not. -/
def Rulebook.spendsOf (b : Rulebook) (key : String) : LimiterTurn → Bool
  | .check path h n => n != 0 && (b.charge? (.check path h n)).any (·.key == key)
  | .sweep _ => false

namespace Limiter

variable {l : Limiter TokenBuckets} {b : Rulebook} {key : String} {bucket : Bucket}
  {past now : Nat} {turns : List (Nat × LimiterTurn)}

/-- What the buckets of a limiter have granted is within a moment. -/
structure Within (l : Limiter TokenBuckets) (now : Nat) : Prop where
  distinct : l.meter.buckets.DistinctKeys
  bucket : ∀ key bucket, l.meter.buckets.get? key = some bucket → bucket.Within now

theorem within_fresh (b : Rulebook) (now : Nat) : (fresh b).Within now := by
  refine ⟨List.nodup_nil, fun key bucket hget => ?_⟩
  cases hget

theorem Within.turn (h : l.Within now) (hle : past ≤ now) (e : LimiterTurn) :
    (l.turn past e).Within now := by
  refine ⟨distinctKeys_turn h.distinct past e, fun key bucket hget => ?_⟩
  rcases get?_turn_cases h.distinct hget with hkept | ⟨path, hs, n, c, -, -, -, rfl⟩
  · exact h.bucket key bucket hkept
  · refine Bucket.Within.call ?_ hle n
    rcases l.meter.bucketFor_cases (past / 1_000_000) key c.allowance c.period with
      ⟨old, hold, htouched⟩ | ⟨-, hnone⟩
    · rw [htouched]
      exact h.bucket key old hold
    · exact Bucket.within_of_none hnone now

theorem Within.run (h : l.Within now) (hpast : ∀ t ∈ turns, t.1 ≤ now) :
    (l.run turns).Within now :=
  runTurns_induction_of (fun past _ => past ≤ now) (P := fun l => Within l now) h
    (fun _ _ e hle hs => hs.turn hle e) turns hpast

/-- A key is ready for a request at a moment: its bucket, if it has one, will grant it. -/
structure Ready (l : Limiter TokenBuckets) (key : String) (now : Nat) : Prop where
  distinct : l.meter.buckets.DistinctKeys
  admits : ∀ bucket, l.meter.buckets.get? key = some bucket → bucket.admits now 1 = true

theorem Within.ready (h : l.Within past)
    (hwait : ∀ bucket, l.meter.buckets.get? key = some bucket → past + bucket.interval ≤ now) :
    l.Ready key now :=
  ⟨h.distinct, fun bucket hget => (h.bucket key bucket hget).admits (Nat.le_refl 1)
    bucket.allowance.positive (by simpa using hwait bucket hget)⟩

theorem Ready.admits_bucketFor (h : l.Ready key now) (millis : Nat) (q : Allowance)
    (p : Duration) : (l.meter.bucketFor millis key q p).admits now 1 = true := by
  rcases l.meter.bucketFor_cases millis key q p with ⟨bucket, hget, htouched⟩ | ⟨-, hnone⟩
  · rw [htouched]
    exact h.admits bucket hget
  · exact Bucket.admits_of_none hnone now (Nat.le_refl 1) (Allowance.positive _)

theorem Ready.allowed (h : l.Ready key now) (q : Allowance) (p : Duration) :
    (l.meter.spend now key q p 1).1.allowed = true := by
  rw [TokenBuckets.allowed_spend _ _ _ _ _ Nat.one_ne_zero]
  exact h.admits_bucketFor _ q p

/-- A key stays ready as long as nothing of it is spent. -/
theorem Ready.turn (h : l.Ready key now) {e : LimiterTurn}
    (hquiet : l.rulebook.spendsOf key e = false) (moment : Nat) :
    (l.turn moment e).Ready key now := by
  refine ⟨distinctKeys_turn h.distinct moment e, fun bucket hget => ?_⟩
  rcases get?_turn_cases h.distinct hget with hkept | ⟨path, hs, n, c, rfl, hc, hkey, rfl⟩
  · exact h.admits bucket hkept
  · -- A request of the key was made, so it can only be one that asks for nothing.
    have hnothing : n = 0 := by
      simpa [Rulebook.spendsOf, hc, hkey] using hquiet
    rw [hnothing, Bucket.call, if_pos rfl]
    exact h.admits_bucketFor _ c.allowance c.period

theorem Ready.run (h : l.Ready key now) (hb : l.rulebook = b)
    (hquiet : ∀ t ∈ turns, b.spendsOf key t.2 = false) : (l.run turns).Ready key now := by
  refine (runTurns_induction_of (fun _ e => b.spendsOf key e = false)
    (P := fun l : Limiter TokenBuckets => l.rulebook = b ∧ l.Ready key now) ⟨hb, h⟩ ?_
    turns hquiet).2
  rintro l moment e he ⟨rfl, h⟩
  exact ⟨l.rulebook_turn moment e, h.turn he moment⟩

theorem exists_bucket_of_refused (hd : l.meter.buckets.DistinctKeys) {q : Allowance}
    {p : Duration} (hrefused : (l.meter.spend now key q p 1).1.allowed = false) :
    ∃ bucket, l.meter.buckets.get? key = some bucket := by
  cases hget : l.meter.buckets.get? key with
  | some bucket => exact ⟨bucket, rfl⟩
  | none =>
    have hready : l.Ready key now := ⟨hd, fun bucket h => nomatch hget.symm.trans h⟩
    rw [hready.allowed q p] at hrefused
    cases hrefused

/-- **After a turn, a request of a key is let through once the interval of the bucket that the turn
has found has passed**, if nothing of the key is spent in the meantime. -/
theorem allowed_after_interval {before between : List (Nat × LimiterTurn)}
    (hpast : ∀ t ∈ before, t.1 ≤ past)
    (hfound : ((fresh b).run before).meter.buckets.get? key = some bucket)
    (hquiet : ∀ t ∈ between, b.spendsOf key t.2 = false)
    (hwait : past + bucket.interval ≤ now) (first : LimiterTurn) (q : Allowance) (p : Duration) :
    (((((fresh b).run before).turn past first).run between).meter.spend now key q p 1).1.allowed =
      true := by
  have hbook := (rulebook_turn _ past first).trans (rulebook_run b before)
  have hwithin := ((within_fresh b past).run hpast).turn (Nat.le_refl past) first
  refine Ready.allowed (Ready.run (hwithin.ready fun left hleft => ?_) hbook hquiet) q p
  rcases bucket_of_turn (distinctKeys_run b before) hleft with
    ⟨old, hold, -, hinterval⟩ | ⟨hnone, -⟩
  · obtain rfl := Option.some.inj (hfound.symm.trans hold)
    rw [hinterval]
    exact hwait
  · rw [hnone] at hfound
    cases hfound

end Limiter

end BoundedResources
