import BoundedResources.Proofs.Limiter.Isolation

/-!
# What can be spent at a moment

A bucket decides about a batch by one comparison, and tells what remains by one division. Both are
the same number: a batch is admitted exactly if it asks for no more than `Bucket.spendable`
(`Bucket.admits_iff_le_spendable`), and after a grant that is what remains.

Two theorems follow. **`TokenBuckets.remaining_is_exact`**: whoever is told that `r` requests
remain can spend `r` more at that moment, in a batch or one by one, and not one more.
**`TokenBuckets.batch_eq_singles`**: a batch within the quota is as good as that many single
requests, and leaves the meter with the same buckets.

A bucket that has been left alone until its arrival time has passed can grant its whole quota and
still have a request left, so nothing here subtracts from `spendable` before the first grant; from
then on the arrival time is an interval ahead (`Bucket.Ahead`), and every request counts.
-/

set_option autoImplicit false

namespace BoundedResources

namespace Bucket

variable {b : Bucket} {now m n : Nat}

/-- How many requests a bucket grants at once. -/
def spendable (b : Bucket) (now : Nat) : Nat := b.remaining now (b.arrivalAt now)

/-- **A batch is granted exactly if it asks for no more than can be spent.** -/
theorem admits_iff_le_spendable (b : Bucket) (now : Nat) (hn : 1 ≤ n) :
    b.admits now n = true ↔ n ≤ b.spendable now := by
  -- `m + 1` intervals fit the minimum if they fit the quota and what has come back
  obtain ⟨m, rfl⟩ : ∃ m, n = m + 1 := ⟨n - 1, by omega⟩
  have hcount : m + 1 ≤ b.allowance.count ↔ b.interval * (m + 1) ≤ b.capacity :=
    (Nat.mul_le_mul_left_iff b.interval_pos).symm
  rw [admits_iff, spendable, remaining, Nat.le_div_iff_mul_le b.interval_pos, Nat.le_min, hcount,
    Nat.mul_comm (m + 1), Nat.add_sub_cancel, Nat.mul_succ]
  have hpos := b.interval_pos
  omega

theorem touch_of_le {millis : Nat} (h : millis ≤ b.lastSeen) : b.touch millis = b := by
  rw [touch, Nat.max_eq_left h]

theorem call_of_admits (h : b.admits now n = true) (hn : 1 ≤ n) :
    b.call now n =
      { b with
        arrival := some (b.arrivalAfter now n)
        lastRemaining := b.remaining now (b.arrivalAfter now n) } := by
  rw [call, if_neg (by omega), spend, if_pos h]

theorem call_of_refused (h : b.admits now n = false) (hn : 1 ≤ n) :
    b.call now n = { b with lastRemaining := 0 } := by
  rw [call, if_neg (by omega), spend, if_neg (by simp [h])]

@[simp] theorem lastSeen_call (b : Bucket) (now n : Nat) :
    (b.call now n).lastSeen = b.lastSeen := by
  unfold call
  split
  · rfl
  · exact b.lastSeen_spend now n

theorem lastRemaining_call (h : b.admits now n = true) (hn : 1 ≤ n) :
    (b.call now n).lastRemaining = (b.call now n).spendable now := by
  rw [call_of_admits h hn]
  rfl

/-! ## After a grant -/

/-- The arrival time is an interval ahead at least. -/
def Ahead (b : Bucket) (now : Nat) : Prop := now + b.interval ≤ b.arrivalAt now

theorem ahead_call (h : b.admits now n = true) (hn : 1 ≤ n) : (b.call now n).Ahead now := by
  rw [call_of_admits h hn]
  show now + b.interval ≤ max (b.arrivalAt now) now + b.interval * n
  have hone : b.interval ≤ b.interval * n := Nat.le_mul_of_pos_right _ hn
  omega

theorem Ahead.arrivalAfter (h : b.Ahead now) (n : Nat) :
    b.arrivalAfter now n = b.arrivalAt now + b.interval * n := by
  rw [Bucket.arrivalAfter, Nat.max_eq_left (Nat.le_trans (Nat.le_add_right _ _) h)]

theorem Ahead.spendable_eq (h : b.Ahead now) :
    b.spendable now = (now + b.interval + b.capacity - b.arrivalAt now) / b.interval := by
  unfold Ahead at h
  rw [spendable, remaining, Nat.min_eq_left (by omega)]

/-- **Once something was granted now, every further request takes one off.** -/
theorem Ahead.call_one (h : b.Ahead now) :
    (b.call now 1).Ahead now ∧ (b.call now 1).spendable now = b.spendable now - 1 := by
  have hadmits := b.admits_iff_le_spendable now (Nat.le_refl 1)
  cases hcase : b.admits now 1 with
  | true =>
    have hroom := (b.admits_iff now 1).mp hcase
    have hnext := ahead_call hcase (Nat.le_refl 1)
    refine ⟨hnext, ?_⟩
    rw [hnext.spendable_eq, h.spendable_eq, call_of_admits hcase (Nat.le_refl 1)]
    show (now + b.interval + b.capacity - b.arrivalAfter now 1) / b.interval = _
    rw [h.arrivalAfter, ← Nat.sub_sub, Nat.sub_mul_div]
  | false =>
    have hnothing : b.spendable now = 0 := by
      rw [hcase] at hadmits
      simpa using hadmits
    rw [call_of_refused hcase (Nat.le_refl 1)]
    exact ⟨h, hnothing.trans (by rw [hnothing])⟩

/-! ## Batches -/

theorem arrivalAt_call (h : b.admits now m = true) (hm : 1 ≤ m) :
    (b.call now m).arrivalAt now = max (b.arrivalAt now) now + b.interval * m := by
  rw [call_of_admits h hm]
  rfl

/-- **A batch is admitted exactly if its parts are, one after the other.** -/
theorem admits_add (hm : 1 ≤ m) (hn : 1 ≤ n) (hcount : m + n ≤ b.allowance.count) :
    b.admits now (m + n) = true ↔
      b.admits now m = true ∧ (b.call now m).admits now n = true := by
  obtain ⟨k, rfl⟩ : ∃ k, n = k + 1 := ⟨n - 1, by omega⟩
  have hless : b.interval * (m - 1) ≤ b.interval * (m + k) := Nat.mul_le_mul_left _ (by omega)
  have hall : b.interval * (m + k) ≤ b.capacity := Nat.mul_le_mul_left _ (by omega)
  have hsum := Nat.mul_add b.interval m k
  rw [admits_iff, admits_iff, admits_iff, ← Nat.add_assoc m k 1, Nat.add_sub_cancel,
    Nat.add_sub_cancel]
  constructor
  · rintro ⟨-, hroom⟩
    have hfirst : b.admits now m = true := (b.admits_iff now m).mpr ⟨by omega, by omega⟩
    refine ⟨⟨by omega, by omega⟩, ?_⟩
    rw [arrivalAt_call hfirst hm, capacity, allowance_call, interval_call, ← capacity]
    exact ⟨by omega, by omega⟩
  · rintro ⟨⟨hle, hroom⟩, -, hrest⟩
    have hfirst : b.admits now m = true := (b.admits_iff now m).mpr ⟨hle, hroom⟩
    rw [arrivalAt_call hfirst hm, capacity, allowance_call, interval_call, ← capacity] at hrest
    exact ⟨by omega, by omega⟩

theorem call_add (hm : 1 ≤ m) (hn : 1 ≤ n) (hall : b.admits now (m + n) = true) :
    (b.call now m).call now n = b.call now (m + n) := by
  obtain ⟨hfirst, hrest⟩ := (admits_add hm hn ((b.admits_iff now _).mp hall).1).mp hall
  have harrival : (b.call now m).arrivalAfter now n = b.arrivalAfter now (m + n) := by
    rw [arrivalAfter, arrivalAt_call hfirst hm, interval_call, arrivalAfter, Nat.mul_add]
    omega
  rw [call_of_admits hrest hn, harrival, call_of_admits hfirst hm,
    call_of_admits hall (Nat.le_add_right_of_le hm)]
  rfl

end Bucket

/-- Whether a turn at `now` asks for a key one request at a time, and forgets no bucket before it is
idle. -/
def MeterTurn.AsksSingly (key : String) (now : Nat) : MeterTurn → Prop
  | .spend k _ _ n => k = key → n = 1
  | .sweep asOf => asOf ≤ now

namespace TokenBuckets

variable {t : TokenBuckets} {now m n : Nat} {key : String} {q : Allowance} {p : Duration}

/-! ## Calls and their verdicts -/

theorem verdict_spend (t : TokenBuckets) (now : Nat) (key : String) (q : Allowance)
    (p : Duration) (hn : 1 ≤ n) :
    (t.spend now key q p n).1 =
      ⟨((t.bucketFor (now / 1_000_000) key q p).call now n).lastRemaining, p,
        (t.bucketFor (now / 1_000_000) key q p).admits now n⟩ := by
  have hne : ¬ n = 0 := by omega
  unfold spend
  simp only [if_neg hne]
  cases hcase : (t.bucketFor (now / 1_000_000) key q p).admits now n with
  | true =>
    rw [Bucket.call_of_admits hcase hn, Bucket.spend, if_pos hcase]
    rfl
  | false =>
    rw [Bucket.call_of_refused hcase hn, Bucket.spend, if_neg (by simp [hcase])]

/-- Whoever asks again at the same moment asks the same bucket. -/
theorem bucketFor_spend (t : TokenBuckets) (now : Nat) (key : String) (q q' : Allowance)
    (p p' : Duration) (n : Nat) :
    (t.spend now key q p n).2.bucketFor (now / 1_000_000) key q' p' =
      (t.bucketFor (now / 1_000_000) key q p).call now n := by
  have hseen : now / 1_000_000 ≤ ((t.bucketFor (now / 1_000_000) key q p).call now n).lastSeen := by
    rw [Bucket.lastSeen_call]
    exact Nat.le_max_right _ _
  rw [bucketFor, get?_spend, if_pos rfl, Option.getD_some, Bucket.touch_of_le hseen]

/-- What a turn tells those who ask for a key. -/
def verdict (key : String) (t : TokenBuckets) (now : Nat) : MeterTurn → List Verdict
  | .spend k allowance period n =>
    if k = key then [(t.spend now k allowance period n).1] else []
  | .sweep _ => []

/-- What those who ask for a key are told in the course of some turns. -/
def verdicts (t : TokenBuckets) (key : String) (turns : List (Nat × MeterTurn)) : List Verdict :=
  runReports turn (verdict key) t turns

theorem distinctKeys_run (turns : List (Nat × MeterTurn)) :
    (empty.run turns).buckets.DistinctKeys :=
  have hempty : empty.buckets.DistinctKeys := List.nodup_nil
  runTurns_induction (P := fun t : TokenBuckets => t.buckets.DistinctKeys) hempty
    (fun _ now e h => distinctKeys_turn h now e) turns

/-! ## One request after the other -/

/-- A key has a bucket that was asked now and can grant some more requests. -/
structure HasLeft (t : TokenBuckets) (key : String) (now left : Nat) : Prop where
  distinct : t.buckets.DistinctKeys
  bucket : ∃ b, t.buckets.get? key = some b ∧ now / 1_000_000 ≤ b.lastSeen ∧ b.Ahead now ∧
    b.spendable now = left

theorem HasLeft.spend {left : Nat} (h : t.HasLeft key now left) (q : Allowance) (p : Duration) :
    ((t.spend now key q p 1).1.allowed = true ↔ 0 < left) ∧
      (t.turn now (.spend key q p 1)).HasLeft key now (left - 1) := by
  obtain ⟨hd, b, hb, hseen, hahead, hleft⟩ := h
  have hbucket : t.bucketFor (now / 1_000_000) key q p = b := by
    rw [bucketFor, hb, Option.getD_some, Bucket.touch_of_le hseen]
  have hget : (t.turn now (.spend key q p 1)).buckets.get? key = some (b.call now 1) := by
    rw [← hbucket]
    exact (get?_spend t now key key q p 1).trans (if_pos rfl)
  obtain ⟨hahead', hleft'⟩ := hahead.call_one
  refine ⟨?_, distinctKeys_turn hd now _, b.call now 1, hget, ?_, hahead', ?_⟩
  · rw [verdict_spend t now key q p (Nat.le_refl 1), hbucket,
      b.admits_iff_le_spendable now (Nat.le_refl 1), hleft]
    exact Iff.rfl
  · rw [Bucket.lastSeen_call]
    exact hseen
  · rw [hleft', hleft]

/-- Neither other clients nor a sweep take anything from a key. -/
theorem HasLeft.turn_quiet {left : Nat} (h : t.HasLeft key now left) {e : MeterTurn}
    (he : e.AsksSingly key now) (hquiet : ∀ q p n, e ≠ .spend key q p n) :
    t.verdict key now e = [] ∧ (t.turn now e).HasLeft key now left := by
  obtain ⟨hd, b, hb, hseen, hrest⟩ := h
  cases e with
  | spend k q p n =>
    have hk : k ≠ key := by
      rintro rfl
      exact hquiet q p n rfl
    refine ⟨if_neg hk, distinctKeys_turn hd now _, b, ?_, hseen, hrest⟩
    exact (get?_spend t now k key q p n).trans ((if_neg hk.symm).trans hb)
  | sweep asOf =>
    have hkept : b.isIdle (asOf / 1_000_000) = false := by
      have hmillis : asOf / 1_000_000 ≤ now / 1_000_000 := Nat.div_le_div_right he
      rw [Bucket.isIdle, decide_eq_false_iff_not]
      omega
    refine ⟨rfl, distinctKeys_turn hd now _, b, ?_, hseen, hrest⟩
    refine (get?_sweep hd asOf key).trans ?_
    rw [hb, Option.filter_some, hkept]
    rfl

/-- **As many requests are granted as there are left**, whatever others do in between. -/
theorem HasLeft.verdicts {left : Nat} (h : t.HasLeft key now left)
    {later : List (Nat × MeterTurn)} (hlater : ∀ x ∈ later, x.1 = now ∧ x.2.AsksSingly key now) :
    ∀ i v, (t.verdicts key later)[i]? = some v → (v.allowed = true ↔ i < left) := by
  -- a request of the key takes one off and moves the others up by one; no other turn does either
  induction later generalizing t left with
  | nil => exact fun i v hv => nomatch hv
  | cons x rest ih =>
    obtain ⟨moment, e⟩ := x
    obtain ⟨⟨rfl, he⟩, hrest⟩ := List.forall_mem_cons.mp hlater
    intro i v hv
    rw [TokenBuckets.verdicts, runReports] at hv
    by_cases hasks : ∃ q p n, e = .spend key q p n
    · obtain ⟨q, p, n, rfl⟩ := hasks
      obtain rfl : n = 1 := he rfl
      obtain ⟨hfirst, hnext⟩ := h.spend q p
      rw [verdict, if_pos rfl, List.singleton_append] at hv
      cases i with
      | zero =>
        obtain rfl := Option.some.inj hv
        exact hfirst
      | succ i => exact (ih hnext hrest i v hv).trans (by omega)
    · obtain ⟨hnothing, hnext⟩ := h.turn_quiet he fun q p n heq => hasks ⟨q, p, n, heq⟩
      rw [hnothing, List.nil_append] at hv
      exact ih hnext hrest i v hv

theorem hasLeft_spend (hd : t.buckets.DistinctKeys) (hn : 1 ≤ n)
    (hallowed : (t.spend now key q p n).1.allowed = true) :
    (t.spend now key q p n).2.HasLeft key now (t.spend now key q p n).1.remaining := by
  rw [verdict_spend t now key q p hn] at hallowed ⊢
  refine ⟨distinctKeys_turn hd now (.spend key q p n), _,
    (get?_spend t now key key q p n).trans (if_pos rfl), ?_, Bucket.ahead_call hallowed hn,
    (Bucket.lastRemaining_call hallowed hn).symm⟩
  rw [Bucket.lastSeen_call]
  exact Nat.le_max_right _ _

/-- **What is told to remain is exactly what can still be spent.**

After any turns somebody is granted some requests of a key and told that `r` remain. From then on,
at the same moment and under whatever quotas, a batch is granted exactly if it asks for no more than
`r` requests; and of the requests that are made one by one exactly the first `r` are granted, while
other clients spend and idle buckets are swept away. -/
theorem remaining_is_exact {turns : List (Nat × MeterTurn)} (hn : 1 ≤ n)
    (hallowed : ((empty.run turns).spend now key q p n).1.allowed = true) :
    let after := ((empty.run turns).spend now key q p n).2
    let r := ((empty.run turns).spend now key q p n).1.remaining
    (∀ m q' p', 1 ≤ m → ((after.spend now key q' p' m).1.allowed = true ↔ m ≤ r)) ∧
    ∀ later, (∀ x ∈ later, x.1 = now ∧ x.2.AsksSingly key now) →
      ∀ i v, (after.verdicts key later)[i]? = some v → (v.allowed = true ↔ i < r) := by
  intro after r
  refine ⟨fun m q' p' hm => ?_, fun later hlater => ?_⟩
  · have hverdict := verdict_spend (empty.run turns) now key q p hn
    rw [hverdict] at hallowed
    rw [verdict_spend after now key q' p' hm, bucketFor_spend, show r = _ from
      congrArg Verdict.remaining hverdict, Bucket.lastRemaining_call hallowed hn]
    exact Bucket.admits_iff_le_spendable _ now hm
  · exact (hasLeft_spend (distinctKeys_run turns) hn hallowed).verdicts hlater

/-- A key that has spent its quota of three per second is told, when a little less than the whole
quota has come back, that after one more request one remains. -/
theorem remaining_is_exact_partly_refilled :
    let q : Allowance := ⟨3, by decide, by decide⟩
    let turns := [(0, MeterTurn.spend "k" q (.ofSecs 1) 3)]
    let now := 900_000_000
    let after := ((empty.run turns).spend now "k" q (.ofSecs 1) 1).2
    ((empty.run turns).spend now "k" q (.ofSecs 1) 1).1 = ⟨1, .ofSecs 1, true⟩ ∧
      (∀ m q' p', 1 ≤ m → ((after.spend now "k" q' p' m).1.allowed = true ↔ m ≤ 1)) ∧
      ∀ later, (∀ x ∈ later, x.1 = now ∧ x.2.AsksSingly "k" now) →
        ∀ i v, (after.verdicts "k" later)[i]? = some v → (v.allowed = true ↔ i < 1) := by
  intro q turns now after
  have hverdict : ((empty.run turns).spend now "k" q (.ofSecs 1) 1).1 = ⟨1, .ofSecs 1, true⟩ := by
    decide +kernel
  have hallowed : ((empty.run turns).spend now "k" q (.ofSecs 1) 1).1.allowed = true :=
    congrArg Verdict.allowed hverdict
  have hexact := remaining_is_exact (Nat.le_refl 1) hallowed
  rw [hverdict] at hexact
  exact ⟨hverdict, hexact⟩

/-! ## Batches and single requests -/

/-- A batch of a key in two parts, both granted: the second is told what the batch would be told,
and the buckets are the same. -/
theorem spend_add (t : TokenBuckets) (now : Nat) (key : String) (q : Allowance) (p : Duration)
    (hm : 1 ≤ m) (hn : 1 ≤ n)
    (hall : (t.bucketFor (now / 1_000_000) key q p).admits now (m + n) = true) :
    ((t.spend now key q p m).2.spend now key q p n).1 = (t.spend now key q p (m + n)).1 ∧
      ((t.spend now key q p m).2.spend now key q p n).2.buckets =
        (t.spend now key q p (m + n)).2.buckets := by
  have hcall := Bucket.call_add hm hn hall
  have hrest := ((Bucket.admits_add hm hn ((Bucket.admits_iff _ now _).mp hall).1).mp hall).2
  constructor
  · rw [verdict_spend _ now key q p hn, verdict_spend t now key q p (Nat.le_add_right_of_le hm),
      bucketFor_spend, hcall, hrest, hall]
  · rw [buckets_spend, bucketFor_spend, hcall, buckets_spend, buckets_spend, Table.insert_insert]

/-- As many requests of a key at one moment, one by one. -/
def singles (key : String) (q : Allowance) (p : Duration) (now n : Nat) :
    List (Nat × MeterTurn) :=
  List.replicate n (now, .spend key q p 1)

theorem verdicts_singles_succ (t : TokenBuckets) (key : String) (q : Allowance) (p : Duration)
    (now n : Nat) :
    t.verdicts key (singles key q p now (n + 1)) =
      (t.spend now key q p 1).1 ::
        (t.spend now key q p 1).2.verdicts key (singles key q p now n) := by
  show t.verdict key now (.spend key q p 1) ++ _ = _
  rw [verdict, if_pos rfl]
  rfl

theorem run_singles_succ (t : TokenBuckets) (key : String) (q : Allowance) (p : Duration)
    (now n : Nat) :
    t.run (singles key q p now (n + 1)) =
      (t.spend now key q p 1).2.run (singles key q p now n) :=
  rfl

/-- **What is granted as a batch is granted one by one, and leaves the same buckets.** -/
theorem singles_of_batch (t : TokenBuckets) (now : Nat) (key : String) (q : Allowance)
    (p : Duration) (n : Nat)
    (hall : (t.bucketFor (now / 1_000_000) key q p).admits now (n + 1) = true) :
    (∀ v ∈ t.verdicts key (singles key q p now (n + 1)), v.allowed = true) ∧
      (t.verdicts key (singles key q p now (n + 1))).getLast? =
        some (t.spend now key q p (n + 1)).1 ∧
      (t.run (singles key q p now (n + 1))).buckets = (t.spend now key q p (n + 1)).2.buckets := by
  -- the first request is cut off, and the rest is a batch for the meter behind it
  induction n generalizing t with
  | zero =>
    rw [verdicts_singles_succ]
    refine ⟨?_, rfl, rfl⟩
    intro v hv
    obtain rfl := List.mem_singleton.mp hv
    rw [verdict_spend t now key q p (Nat.le_refl 1), hall]
  | succ n ih =>
    have hsplit : n + 1 + 1 = 1 + (n + 1) := Nat.add_comm _ _
    rw [hsplit] at hall
    have hcount := ((Bucket.admits_iff _ now _).mp hall).1
    obtain ⟨hfirst, hrest⟩ := (Bucket.admits_add (Nat.le_refl 1) (Nat.succ_pos n) hcount).mp hall
    rw [← bucketFor_spend t now key q q p p 1] at hrest
    obtain ⟨hgranted, hlast, hbuckets⟩ := ih _ hrest
    obtain ⟨hverdict, hsame⟩ := t.spend_add now key q p (Nat.le_refl 1) (Nat.succ_pos n) hall
    rw [← hsplit] at hverdict hsame
    rw [verdicts_singles_succ, run_singles_succ]
    refine ⟨List.forall_mem_cons.mpr ⟨?_, hgranted⟩, ?_, hbuckets.trans hsame⟩
    · rw [verdict_spend t now key q p (Nat.le_refl 1), hfirst]
    · rw [List.getLast?_cons, hlast, Option.getD_some, hverdict]

theorem batch_of_singles (t : TokenBuckets) (now : Nat) (key : String) (q : Allowance)
    (p : Duration) (n : Nat)
    (hcount : n + 1 ≤ (t.bucketFor (now / 1_000_000) key q p).allowance.count)
    (hgranted : ∀ v ∈ t.verdicts key (singles key q p now (n + 1)), v.allowed = true) :
    (t.bucketFor (now / 1_000_000) key q p).admits now (n + 1) = true := by
  induction n generalizing t with
  | zero =>
    rw [verdicts_singles_succ] at hgranted
    have hfirst := (List.forall_mem_cons.mp hgranted).1
    rwa [verdict_spend t now key q p (Nat.le_refl 1)] at hfirst
  | succ n ih =>
    rw [verdicts_singles_succ] at hgranted
    obtain ⟨hfirst, hrest⟩ := List.forall_mem_cons.mp hgranted
    rw [verdict_spend t now key q p (Nat.le_refl 1)] at hfirst
    rw [Nat.add_comm (n + 1) 1] at hcount ⊢
    refine (Bucket.admits_add (Nat.le_refl 1) (Nat.succ_pos n) hcount).mpr ⟨hfirst, ?_⟩
    rw [← bucketFor_spend t now key q q p p 1]
    refine ih _ ?_ hrest
    rw [bucketFor_spend, Bucket.allowance_call]
    omega

/-- A refusal leaves the arrival time of every bucket as it was; a bucket that it makes has none. -/
theorem arrival_of_refused (t : TokenBuckets) (now : Nat) (key : String) (q : Allowance)
    (p : Duration) (hn : 1 ≤ n) (hrefused : (t.spend now key q p n).1.allowed = false)
    (other : String) :
    ((t.spend now key q p n).2.buckets.get? other).bind Bucket.arrival =
      (t.buckets.get? other).bind Bucket.arrival := by
  rw [verdict_spend t now key q p hn] at hrefused
  rw [get?_spend]
  split
  · rename_i hkey
    subst hkey
    rw [Bucket.call_of_refused hrefused hn, Option.bind_some, bucketFor]
    cases t.buckets.get? other <;> rfl
  · rfl

/-- **A batch within the quota is all or nothing, and the same as single requests.**

Whatever state a meter is in: a batch of no more than the quota of the bucket is granted exactly if
that many single requests at the same moment are all granted. Then the meter has the same buckets
after the one and after the others, and the batch is told what the last of the single requests is
told. A batch of any size that is refused spends nothing. -/
theorem batch_eq_singles (t : TokenBuckets) (now : Nat) (key : String) (q : Allowance)
    (p : Duration) (n : Nat) (hn : 1 ≤ n) :
    (n ≤ (t.bucketFor (now / 1_000_000) key q p).allowance.count →
      ((t.spend now key q p n).1.allowed = true ↔
        ∀ v ∈ t.verdicts key (singles key q p now n), v.allowed = true)) ∧
    ((t.spend now key q p n).1.allowed = true →
      (t.spend now key q p n).2.buckets = (t.run (singles key q p now n)).buckets ∧
        (t.verdicts key (singles key q p now n)).getLast? = some (t.spend now key q p n).1) ∧
    ((t.spend now key q p n).1.allowed = false → ∀ other,
      ((t.spend now key q p n).2.buckets.get? other).bind Bucket.arrival =
        (t.buckets.get? other).bind Bucket.arrival) := by
  have hallowed := congrArg Verdict.allowed (t.verdict_spend now key q p hn)
  obtain ⟨m, rfl⟩ : ∃ m, n = m + 1 := ⟨n - 1, by omega⟩
  refine ⟨fun hcount => ⟨fun hbatch => ?_, fun hgranted => ?_⟩, fun hbatch => ?_,
    t.arrival_of_refused now key q p hn⟩
  · exact (t.singles_of_batch now key q p m (hallowed.symm.trans hbatch)).1
  · exact hallowed.trans (t.batch_of_singles now key q p m hcount hgranted)
  · obtain ⟨-, hlast, hbuckets⟩ := t.singles_of_batch now key q p m (hallowed.symm.trans hbatch)
    exact ⟨hbuckets.symm, hlast⟩

/-- A key with a quota of three per second that was left alone for ten seconds: the whole quota at
once is the same as three requests, and a batch of four leaves the arrival time alone. -/
theorem batch_eq_singles_after_a_pause :
    let q : Allowance := ⟨3, by decide, by decide⟩
    let t := empty.run [(0, .spend "k" q (.ofSecs 1) 1)]
    let now := 10_000_000_000
    ((t.spend now "k" q (.ofSecs 1) 3).1 = ⟨1, .ofSecs 1, true⟩ ∧
      (t.spend now "k" q (.ofSecs 1) 3).2.buckets =
        (t.run (singles "k" q (.ofSecs 1) now 3)).buckets ∧
      (t.verdicts "k" (singles "k" q (.ofSecs 1) now 3)).getLast? =
        some (t.spend now "k" q (.ofSecs 1) 3).1) ∧
    (t.spend now "k" q (.ofSecs 1) 4).1.allowed = false ∧
      ((t.spend now "k" q (.ofSecs 1) 4).2.buckets.get? "k").bind Bucket.arrival =
        (t.buckets.get? "k").bind Bucket.arrival := by
  intro q t now
  have hgranted : (t.spend now "k" q (.ofSecs 1) 3).1 = ⟨1, .ofSecs 1, true⟩ := by decide +kernel
  have hrefused : (t.spend now "k" q (.ofSecs 1) 4).1.allowed = false := by decide +kernel
  have hthree := batch_eq_singles t now "k" q (.ofSecs 1) 3 (by decide)
  have hfour := batch_eq_singles t now "k" q (.ofSecs 1) 4 (by decide)
  exact ⟨⟨hgranted, hthree.2.1 (congrArg Verdict.allowed hgranted)⟩, hrefused,
    hfour.2.2 hrefused "k"⟩

end TokenBuckets

end BoundedResources
