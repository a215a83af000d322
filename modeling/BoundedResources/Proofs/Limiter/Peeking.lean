import BoundedResources.Proofs.Limiter.Spending

/-!
# Calls that ask for nothing

A call for no requests is answered from what the bucket remembers of the last call that asked for
some. It spends nothing and is not counted, but it is a call: the key has a bucket from then on,
made for the quota of this call if it is the first one, and the bucket was seen.

**`TokenBuckets.peek`** says how far such a call can be relied on. What it is told to remain can be
spent (`Bucket.Modest`), and is all that can be spent as long as the bucket was not asked for
anything, or nothing has come back since the last grant (`TokenBuckets.UpToDate`). Later answers
are the same with and without it, unless it has made a bucket that the next call would have made
for another quota, or has kept a bucket from being swept away (`TokenBuckets.Overlooks`).
`TokenBuckets.peek_of_another_quota` is a case of the former.
-/

set_option autoImplicit false

namespace BoundedResources

namespace MeterTurn

/-- Whether a turn asks for requests of a key. -/
def spendsOf (key : String) : MeterTurn → Bool
  | .spend k _ _ n => k = key ∧ n ≠ 0
  | .sweep _ => false

/-- Whether a turn forgets a bucket. -/
def forgets (b : Bucket) : MeterTurn → Bool
  | .spend _ _ _ _ => false
  | .sweep asOf => b.isIdle (asOf / 1_000_000)

end MeterTurn

namespace Bucket

variable {b : Bucket} {now later n : Nat}

theorem spendable_of_none (h : b.arrival = none) (now : Nat) :
    b.spendable now = b.allowance.count := by
  rw [spendable, remaining, arrivalAt, h, Option.getD_none, Nat.add_sub_cancel_left, Nat.min_self,
    capacity, Nat.mul_div_cancel_left _ b.interval_pos]

theorem spendable_mono (b : Bucket) (h : now ≤ later) : b.spendable now ≤ b.spendable later := by
  cases harrival : b.arrival with
  | none =>
    exact Nat.le_of_eq
      ((spendable_of_none harrival now).trans (spendable_of_none harrival later).symm)
  | some arrival =>
    rw [spendable, spendable, remaining, remaining, arrivalAt, arrivalAt, harrival,
      Option.getD_some, Option.getD_some]
    refine Nat.div_le_div_right ?_
    omega

/-- What the bucket remembers to remain can be spent. -/
def Modest (b : Bucket) (now : Nat) : Prop := b.lastRemaining ≤ b.spendable now

/-- What the bucket remembers to remain is all that can be spent. -/
def Exact (b : Bucket) (now : Nat) : Prop := b.lastRemaining = b.spendable now

theorem exact_create (q : Allowance) (p : Duration) (millis now : Nat) :
    (create q p millis).Exact now :=
  (spendable_of_none (b := create q p millis) rfl now).symm

/-- A bucket that was made but not asked is as if it had been made when it is seen again. -/
theorem touch_create (q : Allowance) (p : Duration) {millis seen : Nat} (h : millis ≤ seen) :
    (create q p millis).touch seen = create q p seen := by
  show { create q p millis with lastSeen := max millis seen } = create q p seen
  rw [Nat.max_eq_right h]
  rfl

theorem Modest.call (h : b.Modest now) (n : Nat) : (b.call now n).Modest now := by
  rcases Nat.eq_zero_or_pos n with rfl | hn
  · exact h
  · cases hcase : b.admits now n with
    | true => exact Nat.le_of_eq (lastRemaining_call hcase hn)
    | false =>
      rw [call_of_refused hcase hn]
      exact Nat.zero_le _

end Bucket

namespace TokenBuckets

variable {t t' : TokenBuckets} {past now millis : Nat} {key : String} {q : Allowance}
  {p : Duration} {turns : List (Nat × MeterTurn)}

theorem spend_zero (t : TokenBuckets) (now : Nat) (key : String) (q : Allowance)
    (p : Duration) :
    t.spend now key q p 0 =
      (⟨(t.bucketFor (now / 1_000_000) key q p).lastRemaining, p, true⟩,
        { t with buckets :=
          t.buckets.insert key (t.bucketFor (now / 1_000_000) key q p) }) := rfl

theorem allowed_after_peek (t : TokenBuckets) (now : Nat) (key : String) (q q' : Allowance)
    (p p' : Duration) {m : Nat} (hm : 1 ≤ m) :
    ((t.spend now key q p 0).2.spend now key q' p' m).1.allowed = true ↔
      m ≤ (t.bucketFor (now / 1_000_000) key q p).spendable now := by
  rw [verdict_spend _ now key q' p' hm, bucketFor_spend]
  exact Bucket.admits_iff_le_spendable _ now hm

/-- What holds of a bucket from the start and whenever it was seen holds of the one that a call
gets. -/
theorem bucketFor_induction {P : Bucket → Prop} (hcreate : ∀ millis, P (.create q p millis))
    (htouch : ∀ b millis, P b → P (b.touch millis))
    (h : ∀ b, t.buckets.get? key = some b → P b) (millis : Nat) :
    P (t.bucketFor millis key q p) := by
  refine htouch _ millis ?_
  cases hget : t.buckets.get? key with
  | none => exact hcreate millis
  | some b => exact h b hget

/-! ## What remains -/

/-- The buckets of a meter remember nothing to remain that cannot be spent. -/
structure Modest (t : TokenBuckets) (now : Nat) : Prop where
  distinct : t.buckets.DistinctKeys
  bucket : ∀ key b, t.buckets.get? key = some b → b.Modest now

theorem Modest.later (h : t.Modest past) (hle : past ≤ now) : t.Modest now :=
  ⟨h.distinct, fun key b hb => Nat.le_trans (h.bucket key b hb) (b.spendable_mono hle)⟩

theorem Modest.bucketFor (h : t.Modest now) (millis : Nat) (key : String) (q : Allowance)
    (p : Duration) : (t.bucketFor millis key q p).Modest now :=
  bucketFor_induction (P := fun b => b.Modest now)
    (fun millis => Nat.le_of_eq (Bucket.exact_create q p millis now)) (fun _ _ hb => hb)
    (h.bucket key) millis

theorem Modest.turn (h : t.Modest now) (e : MeterTurn) : (t.turn now e).Modest now := by
  refine ⟨distinctKeys_turn h.distinct now e, fun key b hb => ?_⟩
  rcases bucket_turn_cases h.distinct hb with ⟨hkept, -⟩ | ⟨q, p, n, rfl, rfl⟩
  · exact h.bucket key b hkept
  · exact (h.bucketFor _ key q p).call n

/-- **What is remembered to remain can be spent at any later moment.** -/
theorem Modest.run (h : t.Modest past) (hordered : turns.Pairwise fun x y => x.1 ≤ y.1)
    (hpast : ∀ x ∈ turns, past ≤ x.1) (hnow : ∀ x ∈ turns, x.1 ≤ now) (hle : past ≤ now) :
    (t.run turns).Modest now := by
  obtain ⟨last, hlast, hend⟩ := runTurns_induction_ordered (fun _ _ => True)
    (P := fun now t => Modest t now) (fun _ _ _ hle hs => hs.later hle)
    (fun _ _ e _ hs => hs.turn e) h hordered hpast fun _ _ => trivial
  exact hend.later (hlast now hle hnow)

/-- What holds of the bucket of a key from the start and whenever it was seen is kept by turns that
do not ask for requests of the key. -/
theorem forall_bucket_run {P : Bucket → Prop} (hcreate : ∀ q p millis, P (.create q p millis))
    (htouch : ∀ b millis, P b → P (b.touch millis)) (hd : t.buckets.DistinctKeys)
    (h : ∀ b, t.buckets.get? key = some b → P b)
    (hquiet : ∀ x ∈ turns, x.2.spendsOf key = false) :
    ∀ b, (t.run turns).buckets.get? key = some b → P b := by
  refine (runTurns_induction_of (fun _ e => e.spendsOf key = false)
    (P := fun t : TokenBuckets => t.buckets.DistinctKeys ∧
      ∀ b, t.buckets.get? key = some b → P b) ⟨hd, h⟩ ?_ turns hquiet).2
  rintro t now e he ⟨hd, h⟩
  refine ⟨distinctKeys_turn hd now e, fun b hb => ?_⟩
  rcases bucket_turn_cases hd hb with ⟨hkept, -⟩ | ⟨q, p, n, rfl, rfl⟩
  · exact h b hkept
  · obtain rfl : n = 0 := by simpa [MeterTurn.spendsOf] using he
    exact bucketFor_induction (hcreate q p) htouch h _

/-- After these turns what the bucket of a key remembers is up to date: either the key had no
bucket and was not asked for requests since, or it was granted some, was not asked for more, and
nothing of what its bucket had left has come back. -/
inductive UpToDate (key : String) (now : Nat) : List (Nat × MeterTurn) → Prop where
  | unspent {before between : List (Nat × MeterTurn)}
      (hnone : (empty.run before).buckets.get? key = none)
      (hquiet : ∀ x ∈ between, x.2.spendsOf key = false) :
      UpToDate key now (before ++ between)
  | granted {before between : List (Nat × MeterTurn)} {then' n : Nat} {q : Allowance}
      {p : Duration} (hn : 1 ≤ n)
      (hallowed : ((empty.run before).spend then' key q p n).1.allowed = true)
      (hback : ∀ b, ((empty.run before).spend then' key q p n).2.buckets.get? key = some b →
        b.spendable now = b.spendable then')
      (hquiet : ∀ x ∈ between, x.2.spendsOf key = false) :
      UpToDate key now (before ++ (then', .spend key q p n) :: between)

theorem UpToDate.exact (h : UpToDate key now turns) :
    ∀ b, (empty.run turns).buckets.get? key = some b → b.Exact now := by
  cases h with
  | @unspent before between hnone hquiet =>
    rw [show empty.run (before ++ between) = (empty.run before).run between from
      runTurns_append turn empty before between]
    refine forall_bucket_run (P := fun b => b.Exact now)
      (fun q p millis => Bucket.exact_create q p millis now) (fun _ _ hb => hb)
      (distinctKeys_run before) (fun b hb => ?_) hquiet
    rw [hnone] at hb
    cases hb
  | @granted before between then' n q p hn hallowed hback hquiet =>
    rw [show empty.run (before ++ (then', .spend key q p n) :: between) =
      ((empty.run before).spend then' key q p n).2.run between from
      runTurns_append turn empty before ((then', .spend key q p n) :: between)]
    refine forall_bucket_run (P := fun b => b.Exact now)
      (fun q p millis => Bucket.exact_create q p millis now) (fun _ _ hb => hb)
      (distinctKeys_turn (distinctKeys_run before) then' (.spend key q p n)) (fun b hb => ?_)
      hquiet
    have hlater := hback b hb
    rw [get?_spend, if_pos rfl] at hb
    obtain rfl := Option.some.inj hb
    rw [verdict_spend _ then' key q p hn] at hallowed
    exact (Bucket.lastRemaining_call hallowed hn).trans hlater.symm

/-! ## What later calls are told -/

/-- Later turns overlook a call for nothing: no sweep before the next call for the key would have
forgotten its bucket, and if it had none, the next call would have made the same. -/
structure Overlooks (t : TokenBuckets) (key : String) (q : Allowance) (p : Duration)
    (later : List (Nat × MeterTurn)) : Prop where
  kept : ∀ b, t.buckets.get? key = some b →
    ∀ x ∈ later.takeWhile fun x => !x.2.callsFor key, x.2.forgets b = false
  made : t.buckets.get? key = none →
    ∀ x, later.find? (fun x => x.2.callsFor key) = some x → ∃ n, x.2 = .spend key q p n

/-- The bucket of a key without and with a call for nothing. From the next call for the key on they
are the same. -/
inductive Unnoticed (key : String) (q : Allowance) (p : Duration) (millis : Nat)
    (later : List (Nat × MeterTurn)) : Option Bucket → Option Bucket → Prop where
  | same (o : Option Bucket) : Unnoticed key q p millis later o o
  | seen {b : Bucket}
      (hkept : ∀ x ∈ later.takeWhile fun x => !x.2.callsFor key, x.2.forgets b = false) :
      Unnoticed key q p millis later (some b) (some (b.touch millis))
  | made (hmade : ∀ x, later.find? (fun x => x.2.callsFor key) = some x →
        ∃ n, x.2 = .spend key q p n) :
      Unnoticed key q p millis later none (some (.create q p millis))

variable {later : List (Nat × MeterTurn)} {o o' : Option Bucket} {e : MeterTurn}

theorem Unnoticed.tail (h : Unnoticed key q p millis ((now, e) :: later) o o')
    (he : e.callsFor key = false) : Unnoticed key q p millis later o o' := by
  cases h with
  | same => exact .same o
  | seen hkept =>
    rw [List.takeWhile_cons_of_pos (by simp [he])] at hkept
    exact .seen (List.forall_mem_cons.mp hkept).2
  | made hmade =>
    rw [List.find?_cons_of_neg (by simp [he])] at hmade
    exact .made hmade

theorem Unnoticed.bucketFor_eq {q' : Allowance} {p' : Duration} {n : Nat}
    (h : Unnoticed key q p millis ((now, .spend key q' p' n) :: later)
      (t.buckets.get? key) (t'.buckets.get? key))
    (hle : millis ≤ now / 1_000_000) :
    t.bucketFor (now / 1_000_000) key q' p' = t'.bucketFor (now / 1_000_000) key q' p' := by
  unfold bucketFor
  generalize t.buckets.get? key = o, t'.buckets.get? key = o' at h
  cases h with
  | same => rfl
  | @seen b hkept =>
    show b.touch _ = (b.touch millis).touch _
    rw [Bucket.touch, Bucket.touch, Bucket.touch, Nat.max_assoc, Nat.max_eq_right hle]
  | made hmade =>
    rw [List.find?_cons_of_pos (by simp [MeterTurn.callsFor])] at hmade
    obtain ⟨m, heq⟩ := hmade _ rfl
    cases heq
    show (Bucket.create q p _).touch _ = (Bucket.create q p millis).touch _
    rw [Bucket.touch_create q p hle, Bucket.touch_create q p (Nat.le_refl _)]

theorem Unnoticed.sweep {asOf : Nat}
    (h : Unnoticed key q p millis ((now, .sweep asOf) :: later) o o') :
    Unnoticed key q p millis later (o.filter fun b => !b.isIdle (asOf / 1_000_000))
      (o'.filter fun b => !b.isIdle (asOf / 1_000_000)) := by
  have htail := h.tail rfl
  cases h with
  | same => exact .same _
  | @seen b hkept =>
    -- seen later, the bucket is idle later
    have hstays : b.isIdle (asOf / 1_000_000) = false :=
      hkept (now, .sweep asOf) (by simp [MeterTurn.callsFor])
    have hstays' : (b.touch millis).isIdle (asOf / 1_000_000) = false := by
      rw [Bucket.isIdle, decide_eq_false_iff_not] at hstays ⊢
      simp only [Bucket.touch]
      omega
    rw [Option.filter_some, Option.filter_some, hstays, hstays']
    exact htail
  | made hmade =>
    -- if the bucket is swept away, the call has left nothing behind
    rw [Option.filter_none, Option.filter_some]
    split
    · exact htail
    · exact .same none

/-- A meter at which no call for nothing was made, and one at which it was. -/
structure Peeked (key : String) (q : Allowance) (p : Duration) (millis : Nat)
    (later : List (Nat × MeterTurn)) (t t' : TokenBuckets) : Prop where
  distinct : t.buckets.DistinctKeys
  distinct' : t'.buckets.DistinctKeys
  others : ∀ k, k ≠ key → t.buckets.get? k = t'.buckets.get? k
  here : Unnoticed key q p millis later (t.buckets.get? key) (t'.buckets.get? key)

theorem peeked_spend (hd : t.buckets.DistinctKeys) (now : Nat) (h : t.Overlooks key q p later) :
    Peeked key q p (now / 1_000_000) later t (t.spend now key q p 0).2 := by
  refine ⟨hd, distinctKeys_turn hd now (.spend key q p 0), fun k hk => ?_, ?_⟩
  · rw [get?_spend, if_neg hk]
  · rw [get?_spend, if_pos rfl, Bucket.call, if_pos rfl, bucketFor]
    cases hget : t.buckets.get? key with
    | none =>
      rw [Option.getD_none, Bucket.touch_create q p (Nat.le_refl _)]
      exact .made (h.made hget)
    | some b => exact .seen (h.kept b hget)

theorem spend_fst_congr {k : String} {q' : Allowance} {p' : Duration}
    (h : t.bucketFor (now / 1_000_000) k q' p' = t'.bucketFor (now / 1_000_000) k q' p')
    (n : Nat) : (t.spend now k q' p' n).1 = (t'.spend now k q' p' n).1 := by
  rcases Nat.eq_zero_or_pos n with rfl | hn
  · rw [spend_zero, spend_zero, h]
  · rw [verdict_spend t now k q' p' hn, verdict_spend t' now k q' p' hn, h]

theorem Peeked.turn (h : Peeked key q p millis ((now, e) :: later) t t')
    (hle : millis ≤ now / 1_000_000) :
    (∀ k, t.verdict k now e = t'.verdict k now e) ∧
      Peeked key q p millis later (t.turn now e) (t'.turn now e) := by
  have hd := distinctKeys_turn h.distinct now e
  have hd' := distinctKeys_turn h.distinct' now e
  cases e with
  | spend k q' p' n =>
    have hbucket :
        t.bucketFor (now / 1_000_000) k q' p' = t'.bucketFor (now / 1_000_000) k q' p' := by
      by_cases hk : k = key
      · subst hk
        exact h.here.bucketFor_eq hle
      · exact bucketFor_congr (h.others k hk) _ q' p'
    have hget (t : TokenBuckets) (other : String) :
        (t.turn now (.spend k q' p' n)).buckets.get? other = _ := get?_spend t now k other q' p' n
    refine ⟨fun k' => ?_, hd, hd', fun k' hk' => ?_, ?_⟩
    · rw [verdict, verdict, spend_fst_congr hbucket]
    · rw [hget, hget, hbucket, h.others k' hk']
    · rw [hget, hget, hbucket]
      by_cases hk : key = k
      · rw [if_pos hk, if_pos hk]
        exact .same _
      · rw [if_neg hk, if_neg hk]
        exact h.here.tail (by simp [MeterTurn.callsFor, Ne.symm hk])
  | sweep asOf =>
    have hget (other : String) : (t.turn now (.sweep asOf)).buckets.get? other = _ :=
      get?_sweep h.distinct asOf other
    have hget' (other : String) : (t'.turn now (.sweep asOf)).buckets.get? other = _ :=
      get?_sweep h.distinct' asOf other
    refine ⟨fun k' => rfl, hd, hd', fun k' hk' => ?_, ?_⟩
    · rw [hget, hget', h.others k' hk']
    · rw [hget, hget']
      exact h.here.sweep

/-- **A call for nothing that later turns overlook makes no difference to what they are told.** -/
theorem Peeked.verdicts (h : Peeked key q p millis later t t')
    (hle : ∀ x ∈ later, millis ≤ x.1 / 1_000_000) (k : String) :
    t.verdicts k later = t'.verdicts k later := by
  induction later generalizing t t' with
  | nil => rfl
  | cons x rest ih =>
    obtain ⟨now, e⟩ := x
    obtain ⟨hfirst, hrest⟩ := List.forall_mem_cons.mp hle
    obtain ⟨htold, hnext⟩ := h.turn hfirst
    exact congrArg₂ (· ++ ·) (htold k) (ih hnext hrest)

/-! ## Both together -/

/-- **A call for nothing spends nothing and tells what can be spent.**

After turns in the order of time a key is asked for nothing. The call is granted, not counted, and
leaves all arrival times as they are. What it is told to remain can be spent at that moment, in a
batch of that many requests or fewer, under whatever quota; and nothing more, if what the bucket
remembers is up to date. If later turns overlook the call, all of them are told what they would be
told without it. -/
theorem peek (hordered : turns.Pairwise fun x y => x.1 ≤ y.1) (hnow : ∀ x ∈ turns, x.1 ≤ now)
    (key : String) (q : Allowance) (p : Duration) :
    let t := empty.run turns
    let v := (t.spend now key q p 0).1
    let after := (t.spend now key q p 0).2
    (v.allowed = true ∧ after.allowed = t.allowed ∧ after.denied = t.denied ∧
      ∀ k, (after.buckets.get? k).bind Bucket.arrival = (t.buckets.get? k).bind Bucket.arrival) ∧
    (∀ m q' p', 1 ≤ m → m ≤ v.remaining → (after.spend now key q' p' m).1.allowed = true) ∧
    (UpToDate key now turns → ∀ m q' p', 1 ≤ m →
      ((after.spend now key q' p' m).1.allowed = true ↔ m ≤ v.remaining)) ∧
    ∀ later, (∀ x ∈ later, now ≤ x.1) → t.Overlooks key q p later →
      ∀ k, after.verdicts k later = t.verdicts k later := by
  intro t v after
  have hd : t.buckets.DistinctKeys := distinctKeys_run turns
  have hmodest : t.Modest now :=
    Modest.run ⟨List.nodup_nil, fun _ _ hb => nomatch hb⟩ hordered
      (fun x _ => Nat.zero_le x.1) hnow (Nat.zero_le now)
  refine ⟨⟨rfl, rfl, rfl, fun k => ?_⟩, fun m q' p' hm hle => ?_, fun hupToDate m q' p' hm => ?_,
    fun later hlater hoverlooks k => ?_⟩
  · show ((t.spend now key q p 0).2.buckets.get? k).bind _ = _
    rw [get?_spend]
    split
    · rename_i hkey
      subst hkey
      rw [Option.bind_some, Bucket.call, if_pos rfl, bucketFor]
      cases t.buckets.get? k <;> rfl
    · rfl
  · rw [allowed_after_peek t now key q q' p p' hm]
    exact Nat.le_trans hle (hmodest.bucketFor _ key q p)
  · rw [allowed_after_peek t now key q q' p p' hm]
    have hexact : (t.bucketFor (now / 1_000_000) key q p).Exact now :=
      bucketFor_induction (P := fun b => b.Exact now)
        (fun millis => Bucket.exact_create q p millis now) (fun _ _ hb => hb) hupToDate.exact _
    rw [← show v.remaining = _ from hexact]
  · refine ((peeked_spend hd now hoverlooks).verdicts (fun x hx => ?_) k).symm
    exact Nat.div_le_div_right (hlater x hx)

/-- Two of three requests are spent, and none has come back after a tenth of a second: a call for
nothing is told that one remains, and the next call, behind a sweep, does not notice it. -/
theorem peek_after_grant :
    let q : Allowance := ⟨3, by decide, by decide⟩
    let p := Duration.ofSecs 1
    let now := 100_000_000
    let t := empty.run [(0, .spend "k" q p 2)]
    let after := (t.spend now "k" q p 0).2
    let later := [(now, MeterTurn.sweep now), (now, .spend "k" q p 2)]
    (t.spend now "k" q p 0).1 = ⟨1, p, true⟩ ∧
      (∀ m q' p', 1 ≤ m → ((after.spend now "k" q' p' m).1.allowed = true ↔ m ≤ 1)) ∧
      ∀ k, after.verdicts k later = t.verdicts k later := by
  intro q p now t after later
  have hverdict : (t.spend now "k" q p 0).1 = ⟨1, p, true⟩ := by decide +kernel
  have hgranted : (empty.spend 0 "k" q p 2).1.allowed = true := by decide +kernel
  have hback : ∀ b, (empty.spend 0 "k" q p 2).2.buckets.get? "k" = some b →
      b.spendable now = b.spendable 0 := by
    intro b hb
    rw [get?_spend, if_pos rfl] at hb
    obtain rfl := Option.some.inj hb
    decide +kernel
  have hupToDate : UpToDate "k" now ([] ++ [(0, .spend "k" q p 2)]) :=
    .granted (by decide) hgranted hback (fun _ hx => nomatch hx)
  have hoverlooks : t.Overlooks "k" q p later := by
    constructor
    · intro b hb x hx
      have hbucket := (get?_spend empty 0 "k" "k" q p 2).symm.trans hb
      rw [if_pos rfl, Option.some.injEq] at hbucket
      obtain rfl : x = (now, .sweep now) := by simpa [later, MeterTurn.callsFor] using hx
      subst hbucket
      decide +kernel
    · intro hnone
      have hbucket := (get?_spend empty 0 "k" "k" q p 2).symm.trans hnone
      rw [if_pos rfl] at hbucket
      cases hbucket
  have hlater : ∀ x ∈ later, now ≤ x.1 := by simp [later]
  have hpast : ∀ x ∈ [(0, MeterTurn.spend "k" q p 2)], x.1 ≤ now := by simp
  obtain ⟨-, -, hexact, hsame⟩ := peek (List.pairwise_singleton _ _) hpast "k" q p
  have hremaining := hexact hupToDate
  rw [hverdict] at hremaining
  exact ⟨hverdict, hremaining, hsame later hlater hoverlooks⟩

/-- A key is asked for nothing under a quota of one. Its next call asks for two under a quota of
two, and is refused, as it would not have been otherwise; and from then on the key is told that
nothing remains, although one request is granted. -/
theorem peek_of_another_quota :
    let one : Allowance := ⟨1, by decide, by decide⟩
    let two : Allowance := ⟨2, by decide, by decide⟩
    let minute := Duration.ofSecs 60
    let after := (empty.spend 0 "k" one minute 0).2
    let refused := (after.spend 0 "k" two minute 2).2
    (empty.spend 0 "k" two minute 2).1 = ⟨0, minute, true⟩ ∧
      (after.spend 0 "k" two minute 2).1 = ⟨0, minute, false⟩ ∧
      (refused.spend 0 "k" one minute 0).1 = ⟨0, minute, true⟩ ∧
      (refused.spend 0 "k" one minute 1).1.allowed = true := by
  decide +kernel

end TokenBuckets

end BoundedResources
