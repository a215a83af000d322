import BoundedResources.Limiter.ClockRange
import BoundedResources.Limiter.RulebookJson
import BoundedResources.Proofs.Limiter.Independence
import BoundedResources.Proofs.Limiter.Peeking
import BoundedResources.Proofs.Limiter.Waiting

/-!
# How long the clock of a bucket lasts

What a bucket has granted reaches a capacity and an interval beyond now at most (`Bucket.Within`),
and a call for some requests looks an interval less than these requests take beyond that. So how far
the clock of a bucket has to go depends on how many requests a call may ask for
(`Bucket.Within.fits`), and a bucket that is filled one by one in the last moment and then asked for
that many comes that far (`ClockedBuckets.filling`).

**`ClockedBuckets.clock_lasts_iff`** says when that is within the range of the clock. Nothing makes
sure that it is: a rulebook may have a quota that no clock can tell the interval of, and then the
first request under it stops the program (`Limiter.first_request_halts`).
-/

set_option autoImplicit false

namespace BoundedResources

/-! ## One call -/

namespace Bucket

variable {b : Bucket} {most uptime now n : Nat}

theorem interval_le_capacity (b : Bucket) : b.interval ≤ b.capacity :=
  Nat.le_mul_of_pos_right _ b.allowance.positive

theorem Within.arrivalAt_le (h : b.Within uptime) (hnow : now ≤ uptime) :
    b.arrivalAt now ≤ uptime + b.capacity + b.interval := by
  unfold arrivalAt
  cases harrival : b.arrival with
  | none =>
    rw [Option.getD_none]
    omega
  | some arrival => exact h arrival harrival

/-- No moment that is worked out for some requests is later than the capacity and the time that
they take from now. -/
theorem Within.moments_le (h : b.Within uptime) (hnow : now ≤ uptime) (hn : 1 ≤ n)
    (hcount : n ≤ b.allowance.count) :
    ∀ x ∈ b.moments now n, x ≤ uptime + b.capacity + b.interval * n := by
  have harrival := h.arrivalAt_le hnow
  have hone : b.interval ≤ b.interval * n := Nat.le_mul_of_pos_right _ hn
  obtain ⟨m, rfl⟩ : ∃ m, n = m + 1 := ⟨n - 1, by omega⟩
  rw [Nat.mul_succ] at hone ⊢
  intro x hx
  rw [moments, Nat.add_sub_cancel, List.mem_cons, List.mem_cons] at hx
  rcases hx with rfl | rfl | hx
  · omega
  · omega
  · split at hx
    · rename_i hadmits
      have hafter := arrivalAfter_le hadmits hn
      rw [List.mem_cons, List.mem_singleton] at hx
      rcases hx with rfl | rfl
      · omega
      · omega
    · cases hx

/-- **Every time that is worked out for a call fits the clock**, if the clock goes as far as the
capacity and the requests that can be granted take it, and the requests can be weighed. -/
theorem Within.fits (h : b.Within uptime) (hnow : now ≤ uptime) (hmost : n ≤ most)
    (hroom : uptime + b.capacity + b.interval * min most b.allowance.count ≤ lastNano)
    (hweight : b.interval * most ≤ lastNano) (made : Nat) : b.fits made now n = true := by
  have hinterval := b.interval_le_capacity
  refine List.all_eq_true.mpr fun x hx => decide_eq_true ?_
  rw [times, List.mem_cons, List.mem_cons] at hx
  rcases hx with rfl | rfl | hx
  · omega
  · omega
  · split at hx
    · cases hx
    · rename_i hn
      rcases List.mem_cons.mp hx with rfl | hx
      · exact Nat.le_trans (Nat.mul_le_mul_left _ hmost) hweight
      · split at hx
        · rename_i hcapacity
          obtain ⟨moment, hmoment, rfl⟩ := List.mem_map.mp hx
          have hcount : n ≤ b.allowance.count := Nat.le_of_mul_le_mul_left hcapacity b.interval_pos
          have hle := h.moments_le hnow (Nat.one_le_iff_ne_zero.mpr hn) hcount moment hmoment
          have hgrantable : b.interval * n ≤ b.interval * min most b.allowance.count :=
            Nat.mul_le_mul_left _ (Nat.le_min.mpr ⟨hmost, hcount⟩)
          omega
        · cases hx

theorem le_of_fits {made x : Nat} (h : b.fits made now n = true) (hx : x ∈ b.times made now n) :
    x ≤ lastNano :=
  of_decide_eq_true (List.all_eq_true.mp h x hx)

theorem capacity_le_of_fits {made : Nat} (h : b.fits made now n = true) :
    b.capacity ≤ lastNano :=
  le_of_fits h (List.mem_cons_of_mem _ List.mem_cons_self)

/-- Requests have to be weighed before they are granted or refused. -/
theorem weight_le_of_fits {made : Nat} (hn : n ≠ 0) (h : b.fits made now n = true) :
    b.interval * n ≤ lastNano := by
  refine le_of_fits h (List.mem_cons_of_mem _ (List.mem_cons_of_mem _ ?_))
  rw [if_neg hn]
  exact List.mem_cons_self

end Bucket

/-! ## Buckets that are filled -/

/-- The time that the whole quota takes at full rate. -/
def Allowance.capacity (q : Allowance) (p : Duration) : Nat := q.interval p * q.count

namespace Bucket

variable {b : Bucket} {q : Allowance} {p : Duration} {now k n : Nat}

/-- A bucket of a quota that has granted `k` requests now, and none before that still count. -/
structure Filled (b : Bucket) (q : Allowance) (p : Duration) (now k : Nat) : Prop where
  allowance : b.allowance = q
  interval : b.interval = q.interval p
  arrival : b.arrivalAt now = now + q.interval p * (k + 1)

theorem Filled.capacity (h : b.Filled q p now k) : b.capacity = q.capacity p := by
  rw [Bucket.capacity, h.interval, h.allowance, Allowance.capacity]

theorem Filled.call_one (h : b.Filled q p now k) (hk : k < q.count) :
    (b.call now 1).Filled q p now (k + 1) := by
  have hadmits : b.admits now 1 = true := by
    refine (b.admits_iff now 1).mpr ⟨b.allowance.positive, ?_⟩
    rw [h.arrival, h.capacity, Nat.sub_self, Nat.mul_zero, Nat.add_zero]
    exact Nat.add_le_add_left (Nat.mul_le_mul_left _ hk) now
  refine ⟨(b.allowance_call now 1).trans h.allowance, (b.interval_call now 1).trans h.interval, ?_⟩
  rw [arrivalAt_call hadmits (Nat.le_refl 1), h.arrival, h.interval,
    Nat.max_eq_left (Nat.le_add_right _ _), Nat.mul_succ _ (k + 1), Nat.mul_one, Nat.add_assoc]

/-- **Once the whole quota is granted, the next call looks as far ahead as any call can.** -/
theorem Filled.room_of_fits (h : b.Filled q p now q.count) (hn : 1 ≤ n) (hcount : n ≤ q.count)
    (hfits : b.fits 0 now n = true) :
    now + q.capacity p + q.interval p * n ≤ lastNano := by
  have hweight : b.interval * n ≤ b.capacity :=
    Nat.mul_le_mul_left _ (h.allowance.symm ▸ hcount)
  have hmoment : b.arrivalAt now + b.interval * (n - 1) ∈ b.times 0 now n := by
    rw [times, if_neg (Nat.one_le_iff_ne_zero.mp hn), if_pos hweight]
    simp [moments]
  have hlast := le_of_fits hfits hmoment
  obtain ⟨m, rfl⟩ : ∃ m, n = m + 1 := ⟨n - 1, by omega⟩
  rw [h.arrival, h.interval, Nat.add_sub_cancel, Nat.mul_succ] at hlast
  rw [Allowance.capacity, Nat.mul_succ]
  omega

end Bucket

/-! ## Buckets under some quotas -/

/-- The clock of a bucket lasts up to a moment for calls for `most` requests each at most: it goes as
far as the capacity and those of them that can be granted take it, and all of them can be
weighed. -/
def Allowance.Lasts (q : Allowance) (p : Duration) (most uptime : Nat) : Prop :=
  uptime + q.capacity p + q.interval p * min most q.count ≤ lastNano ∧
    q.interval p * most ≤ lastNano

/-- A bucket is made for one of some quotas, and what it has granted is within a moment. -/
structure Bucket.Under (b : Bucket) (terms : List (Allowance × Duration)) (uptime : Nat) :
    Prop where
  within : b.Within uptime
  terms : ∃ c ∈ terms, b.allowance = c.1 ∧ b.interval = c.1.interval c.2

/-- Whether a turn asks under one of some quotas only, and for `most` requests at most. -/
def SweptTurn.Under (terms : List (Allowance × Duration)) (most : Nat) : SweptTurn → Prop
  | .spend _ q p n => (q, p) ∈ terms ∧ n ≤ most
  | .sweep _ | .settle | .close => True

section Under

variable {terms : List (Allowance × Duration)} {most uptime now : Nat}

theorem Bucket.Under.call {b : Bucket} (h : b.Under terms uptime) (hnow : now ≤ uptime) (n : Nat) :
    (b.call now n).Under terms uptime := by
  refine ⟨h.within.call hnow n, ?_⟩
  rw [interval_call, allowance_call]
  exact h.terms

/-- A clock that lasts under all quotas lasts for a call of a bucket. -/
theorem Bucket.Under.fits {b : Bucket} (h : b.Under terms uptime)
    (hlasts : ∀ c ∈ terms, c.1.Lasts c.2 most uptime) (hnow : now ≤ uptime) {n : Nat}
    (hmost : n ≤ most) (made : Nat) : b.fits made now n = true := by
  obtain ⟨c, hc, hallowance, hinterval⟩ := h.terms
  obtain ⟨hroom, hweight⟩ := hlasts c hc
  rw [Allowance.capacity, ← hinterval, ← hallowance] at hroom
  rw [← hinterval] at hweight
  exact h.within.fits hnow hmost hroom hweight made

namespace TokenBuckets

variable {t : TokenBuckets}

/-- All buckets are made for some quotas, and what they have granted is within a moment. -/
structure Under (t : TokenBuckets) (terms : List (Allowance × Duration)) (uptime : Nat) :
    Prop where
  distinct : t.buckets.DistinctKeys
  bucket : ∀ key b, t.buckets.get? key = some b → b.Under terms uptime

theorem under_empty (terms : List (Allowance × Duration)) (uptime : Nat) :
    empty.Under terms uptime :=
  ⟨List.nodup_nil, fun _ _ hb => (nomatch hb)⟩

theorem Under.bucketFor (h : t.Under terms uptime) {q : Allowance} {p : Duration}
    (hterms : (q, p) ∈ terms) (millis : Nat) (key : String) :
    (t.bucketFor millis key q p).Under terms uptime :=
  bucketFor_induction (P := fun b => b.Under terms uptime)
    (fun _ => ⟨Bucket.within_of_none rfl uptime, (q, p), hterms, rfl, rfl⟩)
    (fun _ _ hb => ⟨hb.within, hb.terms⟩) (h.bucket key) millis

theorem Under.spend (h : t.Under terms uptime) (hnow : now ≤ uptime) {q : Allowance} {p : Duration}
    (hterms : (q, p) ∈ terms) (key : String) (n : Nat) :
    (t.spend now key q p n).2.Under terms uptime := by
  refine ⟨distinctKeys_turn h.distinct now (.spend key q p n), fun other b hb => ?_⟩
  rw [get?_spend] at hb
  split at hb
  · cases hb
    exact (h.bucketFor hterms _ key).call hnow n
  · exact h.bucket other b hb

theorem Under.sweep (h : t.Under terms uptime) (asOf : Nat) :
    (t.sweep asOf).2.Under terms uptime := by
  refine ⟨distinctKeys_turn h.distinct 0 (.sweep asOf), fun key b hb => ?_⟩
  rw [get?_sweep h.distinct] at hb
  exact h.bucket key b (Option.filter_eq_some_iff.mp hb).1

end TokenBuckets

namespace SweptBuckets

theorem under_settle {s : SweptBuckets} (h : s.buckets.Under terms uptime) (now : Nat) :
    (s.settle now).buckets.Under terms uptime := by
  obtain ⟨due, hsettle⟩ := TokenBuckets.buckets_settle s now
  rw [hsettle]
  refine runTurns_induction_of (fun _ e => e = .sweep now)
    (P := fun t : TokenBuckets => t.Under terms uptime) h ?_ _ fun e he => ?_
  · rintro t _ _ rfl ht
    exact ht.sweep now
  · rw [List.eq_of_mem_replicate he]

theorem under_turn {s : SweptBuckets} (h : s.buckets.Under terms uptime) (hnow : now ≤ uptime)
    {e : SweptTurn} (he : e.Under terms most) : (s.turn now e).buckets.Under terms uptime := by
  cases e with
  | spend key q p n => exact h.spend hnow he.1 key n
  | sweep asOf => exact h.sweep asOf
  | settle => exact under_settle h now
  | close => exact h

theorem under_run {s : SweptBuckets} (h : s.buckets.Under terms uptime)
    {turns : List (Nat × SweptTurn)}
    (hturns : ∀ x ∈ turns, x.1 ≤ uptime ∧ x.2.Under terms most) :
    (s.run turns).buckets.Under terms uptime :=
  runTurns_induction_of (fun now e => now ≤ uptime ∧ e.Under terms most)
    (P := fun s : SweptBuckets => s.buckets.Under terms uptime) h
    (fun _ _ _ he hs => under_turn hs he.1 he.2) turns hturns

end SweptBuckets

end Under

/-! ## Clocks -/

namespace ClockedBuckets

/-- The buckets after a turn at `now`. -/
def turn (c : ClockedBuckets) (now : Nat) : SweptTurn → ClockedBuckets
  | .spend key allowance period n => (c.spend now key allowance period n).2
  | .sweep asOf => (c.sweep asOf).2
  | .settle => c.settle now
  | .close => c.close

/-- The buckets after some turns, each with the moment at which it is taken. -/
def run (c : ClockedBuckets) (turns : List (Nat × SweptTurn)) : ClockedBuckets :=
  runTurns turn c turns

/-- With a clock, the buckets are what they are without. -/
theorem swept_turn (c : ClockedBuckets) (now : Nat) (e : SweptTurn) :
    (c.turn now e).swept = c.swept.turn now e := by
  cases e <;> rfl

theorem swept_run (c : ClockedBuckets) (turns : List (Nat × SweptTurn)) :
    (c.run turns).swept = c.swept.run turns := by
  induction turns generalizing c with
  | nil => rfl
  | cons e rest ih => exact (ih (c.turn e.1 e.2)).trans (c.swept_turn e.1 e.2 ▸ rfl)

/-- Turns in the order of time and none after a moment, that ask under some quotas only, and for
`most` requests at most each time. -/
structure TurnsUnder (terms : List (Allowance × Duration)) (most uptime : Nat)
    (turns : List (Nat × SweptTurn)) : Prop where
  ordered : turns.Pairwise fun x y => x.1 ≤ y.1
  under : ∀ x ∈ turns, x.1 ≤ uptime ∧ x.2.Under terms most

/-! ## Clocks that last -/

variable {c : ClockedBuckets} {terms : List (Allowance × Duration)} {most uptime now : Nat}

/-- The buckets are made for some quotas, and all times have fit so far. -/
structure Running (c : ClockedBuckets) (terms : List (Allowance × Duration)) (uptime : Nat) :
    Prop where
  buckets : c.swept.buckets.Under terms uptime
  runs : c.halted = false

theorem Running.turn (hlasts : ∀ c ∈ terms, c.1.Lasts c.2 most uptime)
    (h : c.Running terms uptime) (hnow : now ≤ uptime) {e : SweptTurn} (he : e.Under terms most) :
    (c.turn now e).Running terms uptime := by
  refine ⟨c.swept_turn now e ▸ SweptBuckets.under_turn h.buckets hnow he, ?_⟩
  cases e with
  | spend key q p n =>
    obtain ⟨hterms, hmost⟩ := he
    have hbucket := h.buckets.bucketFor hterms (now / 1_000_000) key
    have hfits := hbucket.fits hlasts hnow hmost (c.madeAt now key)
    show (c.halted || !Bucket.fits _ _ now n) = false
    rw [h.runs, hfits]
    rfl
  | sweep | settle | close => exact h.runs

/-- **A clock that lasts under every quota lasts**, whichever of them share the keys. -/
theorem Running.run (hlasts : ∀ c ∈ terms, c.1.Lasts c.2 most uptime)
    (h : c.Running terms uptime) {turns : List (Nat × SweptTurn)}
    (hturns : ∀ x ∈ turns, x.1 ≤ uptime ∧ x.2.Under terms most) :
    (c.run turns).Running terms uptime :=
  runTurns_induction_of (fun now e => now ≤ uptime ∧ e.Under terms most)
    (P := fun c : ClockedBuckets => c.Running terms uptime) h
    (fun _ _ _ he hc => hc.turn hlasts he.1 he.2) turns hturns

/-! ## Clocks that do not last -/

theorem get?_spend (c : ClockedBuckets) (now : Nat) (key : String) (q : Allowance) (p : Duration)
    (n : Nat) :
    (c.spend now key q p n).2.swept.buckets.buckets.get? key =
      some ((c.swept.buckets.bucketFor (now / 1_000_000) key q p).call now n) :=
  (TokenBuckets.get?_spend c.swept.buckets now key key q p n).trans (if_pos rfl)

/-- A call does not change when the bucket of its key was made. -/
theorem madeAt_spend (c : ClockedBuckets) (now later : Nat) (key : String) (q : Allowance)
    (p : Duration) (n : Nat) :
    (c.spend now key q p n).2.madeAt later key = c.madeAt now key := by
  have hmade : (c.spend now key q p n).2.made.get? key = some (c.madeAt now key) :=
    (Table.get?_insert _ key key _).trans (if_pos rfl)
  rw [madeAt, get?_spend, hmade]
  rfl

theorem halted_spend (c : ClockedBuckets) (now : Nat) (key : String) (q : Allowance) (p : Duration)
    (n : Nat) :
    (c.spend now key q p n).2.halted = false ↔
      c.halted = false ∧
        (c.swept.buckets.bucketFor (now / 1_000_000) key q p).fits (c.madeAt now key) now n =
          true := by
  show (c.halted || !Bucket.fits _ _ now n) = false ↔ _
  rw [Bool.or_eq_false_iff, Bool.not_eq_false']

theorem bucketFor_of_none {key : String} (hnew : c.swept.buckets.buckets.get? key = none)
    (millis : Nat) (q : Allowance) (p : Duration) :
    c.swept.buckets.bucketFor millis key q p = (Bucket.create q p millis).touch millis := by
  rw [TokenBuckets.bucketFor, hnew, Option.getD_none]

/-- **The first call for a key stops the program if the capacity does not fit**, whatever it asks
for. -/
theorem halted_of_first_call {key : String} {q : Allowance} {p : Duration}
    (hnew : c.swept.buckets.buckets.get? key = none) (hlong : lastNano < q.capacity p) (n : Nat) :
    (c.spend now key q p n).2.halted = true := by
  by_contra hruns
  obtain ⟨-, hfits⟩ := (halted_spend c now key q p n).mp (Bool.eq_false_iff.mpr hruns)
  rw [bucketFor_of_none hnew] at hfits
  exact Nat.not_le_of_lt hlong (Bucket.capacity_le_of_fits hfits)

/-- One request after the other in the last moment, of a bucket that was made in the first. -/
def filling (key : String) (q : Allowance) (p : Duration) (uptime k : Nat) :
    List (Nat × SweptTurn) :=
  (0, .spend key q p 0) :: List.replicate k (uptime, .spend key q p 1)

theorem filling_succ (key : String) (q : Allowance) (p : Duration) (uptime k : Nat) :
    filling key q p uptime (k + 1) = filling key q p uptime k ++ [(uptime, .spend key q p 1)] := by
  rw [filling, List.replicate_succ', filling, List.cons_append]

theorem run_append (c : ClockedBuckets) (turns more : List (Nat × SweptTurn)) :
    c.run (turns ++ more) = (c.run turns).run more :=
  runTurns_append turn c turns more

/-- A bucket can be filled one by one, up to its quota. -/
theorem filled_filling (sweeper : Option Ticker) (key : String) (q : Allowance) (p : Duration)
    (uptime : Nat) {k : Nat} (hk : k ≤ q.count) :
    let c := (start ⟨.empty, sweeper⟩).run (filling key q p uptime k)
    (c.swept.buckets.bucketFor (uptime / 1_000_000) key q p).Filled q p uptime k ∧
      c.madeAt uptime key = 0 := by
  induction k with
  | zero =>
    let c := ((start ⟨.empty, sweeper⟩).spend 0 key q p 0).2
    have hfresh : c.swept.buckets.bucketFor (uptime / 1_000_000) key q p =
        (Bucket.create q p 0).touch (uptime / 1_000_000) := by
      show ((c.swept.buckets.buckets.get? key).getD _).touch _ = _
      rw [get?_spend]
      rfl
    refine ⟨?_, madeAt_spend _ 0 uptime key q p 0⟩
    show (c.swept.buckets.bucketFor (uptime / 1_000_000) key q p).Filled q p uptime 0
    rw [hfresh]
    exact ⟨rfl, rfl, congrArg (uptime + ·) (Nat.mul_one _).symm⟩
  | succ k ih =>
    obtain ⟨hfilled, hmade⟩ := ih (Nat.le_of_succ_le hk)
    rw [filling_succ, run_append]
    refine ⟨?_, (madeAt_spend _ uptime uptime key q p 1).trans hmade⟩
    have hnext := TokenBuckets.bucketFor_spend
      ((start ⟨.empty, sweeper⟩).run (filling key q p uptime k)).swept.buckets
      uptime key q q p p 1
    exact hnext.symm ▸ hfilled.call_one hk

theorem turnsUnder_filling {q : Allowance} {p : Duration} (hterms : (q, p) ∈ terms)
    (hmost : 1 ≤ most) (key : String) (uptime k : Nat) {n : Nat} (hn : n ≤ most) :
    TurnsUnder terms most uptime (filling key q p uptime k ++ [(uptime, .spend key q p n)]) := by
  refine ⟨?_, ?_⟩
  · simp [filling, List.pairwise_append, List.pairwise_replicate]
  · simp only [filling, List.cons_append, List.mem_cons, List.mem_append, List.mem_replicate,
      List.not_mem_nil, or_false]
    rintro x (rfl | ⟨-, rfl⟩ | rfl)
    · exact ⟨Nat.zero_le _, hterms, Nat.zero_le _⟩
    · exact ⟨Nat.le_refl _, hterms, hmost⟩
    · exact ⟨Nat.le_refl _, hterms, hn⟩

/-- **If no run stops the program, the clock lasts under every quota.** -/
theorem lasts_of_runs {sweeper : Option Ticker} (hmost : 1 ≤ most)
    (hruns : ∀ turns, TurnsUnder terms most uptime turns →
      ((start ⟨.empty, sweeper⟩).run turns).halted = false)
    {q : Allowance} {p : Duration} (hterms : (q, p) ∈ terms) : q.Lasts p most uptime := by
  refine ⟨?_, ?_⟩
  · -- A key is filled in the last moment, and then asked for all that can be granted at once.
    have hpositive : 1 ≤ min most q.count := Nat.le_min.mpr ⟨hmost, q.positive⟩
    have hlast := hruns _
      (turnsUnder_filling hterms hmost "" uptime q.count (Nat.min_le_left most q.count))
    rw [run_append] at hlast
    obtain ⟨-, hfits⟩ := (halted_spend _ _ _ _ _ _).mp hlast
    obtain ⟨hfilled, hmade⟩ := filled_filling sweeper "" q p uptime (Nat.le_refl q.count)
    rw [hmade] at hfits
    exact hfilled.room_of_fits hpositive (Nat.min_le_right most q.count) hfits
  · have hfirst : ((start ⟨.empty, sweeper⟩).spend 0 "" q p most).2.halted = false :=
      hruns [(0, .spend "" q p most)] ⟨List.pairwise_singleton _ _,
        List.forall_mem_singleton.mpr ⟨Nat.zero_le _, hterms, Nat.le_refl _⟩⟩
    obtain ⟨-, hfits⟩ := (halted_spend _ _ _ _ _ _).mp hfirst
    rw [bucketFor_of_none rfl] at hfits
    exact Bucket.weight_le_of_fits (Nat.one_le_iff_ne_zero.mp hmost) hfits

/-! ## How long a clock lasts -/

/-- **How long a clock lasts.**

Some quotas are given, and a bound for the requests of one call. Whoever calls within it under these
quotas, and whatever is swept, up to a last moment: each bucket was made for one of the quotas, and
its arrival time is not beyond the capacity and an interval from the last moment. But all that is
added up and multiplied fits the clock in all these runs if and only if, under each of the quotas,
it goes as far beyond the last moment as the capacity and the requests of one call take that can be
granted, and the requests of one call can be weighed.

A quota whose capacity does not fit the clock stops the program when a key is first called under it,
whatever the call asks for. -/
theorem clock_lasts_iff (sweeper : Option Ticker) (terms : List (Allowance × Duration))
    {most : Nat} (hmost : 1 ≤ most) (uptime : Nat) :
    (∀ turns, TurnsUnder terms most uptime turns → ∀ key b,
      ((start ⟨.empty, sweeper⟩).run turns).swept.buckets.buckets.get? key = some b →
        ∃ c ∈ terms, b.allowance = c.1 ∧ b.interval = c.1.interval c.2 ∧
          ∀ arrival, b.arrival = some arrival →
            arrival ≤ uptime + c.1.capacity c.2 + c.1.interval c.2) ∧
    ((∀ turns, TurnsUnder terms most uptime turns →
        ((start ⟨.empty, sweeper⟩).run turns).halted = false) ↔
      ∀ c ∈ terms,
        uptime + c.1.capacity c.2 + c.1.interval c.2 * min most c.1.count ≤ lastNano ∧
          c.1.interval c.2 * most ≤ lastNano) ∧
    ∀ (c : ClockedBuckets) (now : Nat) (key : String) (q : Allowance) (p : Duration) (n : Nat),
      c.swept.buckets.buckets.get? key = none → lastNano < q.capacity p →
        (c.spend now key q p n).2.halted = true := by
  have hempty := TokenBuckets.under_empty terms uptime
  refine ⟨fun turns hturns key b hb => ?_, ⟨fun hruns c hc => ?_, fun hlasts turns hturns => ?_⟩,
    fun c now key q p n hnew hlong => halted_of_first_call hnew hlong n⟩
  · rw [swept_run] at hb
    have hunder := SweptBuckets.under_run (s := ⟨.empty, sweeper⟩) hempty hturns.under
    obtain ⟨hwithin, c, hc, hallowance, hinterval⟩ := hunder.bucket key b hb
    refine ⟨c, hc, hallowance, hinterval, fun arrival harrival => ?_⟩
    rw [Allowance.capacity, ← hinterval, ← hallowance]
    exact hwithin arrival harrival
  · exact lasts_of_runs hmost hruns hc
  · exact (Running.run hlasts ⟨hempty, rfl⟩ hturns.under).runs

/-- For a hundred years a clock lasts under one request per 242 years, if nobody asks for more than
two at once. It does not last if somebody may ask for three, or under one request per 243 years. -/
theorem clock_lasts_century :
    let century := (Duration.ofSecs 3_155_760_000).nanos
    let once : Allowance := ⟨1, by decide, by decide⟩
    let lasts (years most : Nat) : Prop := ∀ turns,
      TurnsUnder [(once, .ofSecs (years * 31_557_600))] most century turns →
        ((start .unswept).run turns).halted = false
    lasts 242 2 ∧ ¬lasts 242 3 ∧ ¬lasts 243 1 ∧
      ((start .unswept).spend 0 "k" once (.ofSecs (600 * 31_557_600)) 0).2.halted = true := by
  intro century once lasts
  have hiff (years : Nat) {most : Nat} (hmost : 1 ≤ most) :=
    (clock_lasts_iff none [(once, .ofSecs (years * 31_557_600))] hmost century).2.1
  have hhalts := (clock_lasts_iff none [] (Nat.le_refl 1) century).2.2
  refine ⟨(hiff 242 (by decide)).mpr (by decide +kernel),
    fun h => absurd ((hiff 242 (by decide)).mp h) (by decide +kernel),
    fun h => absurd ((hiff 243 (by decide)).mp h) (by decide +kernel), ?_⟩
  exact hhalts (start .unswept) 0 "k" once _ 0 rfl (by decide +kernel)

end ClockedBuckets

/-! ## Requests -/

/-- The quotas of a rulebook, with their periods. -/
def Rulebook.terms (b : Rulebook) : List (Allowance × Duration) :=
  (b.rules ++ b.fallback.toList).filterMap fun r =>
    match r.quota with
    | .limit q => some (q, r.period)
    | .unlimited | .block => none

theorem Rulebook.mem_terms_of_limit {b : Rulebook} {path : String} {h : Headers} {c : Charge}
    (hc : b.limit path h = .limited c) : (c.allowance, c.period) ∈ b.terms := by
  have hcharge : b.charge? (.check path h 1) = some c := by
    rw [charge?, hc]
    rfl
  obtain ⟨place, hplace⟩ := decider?_of_charge? hcharge
  obtain ⟨r, hr, hquota, hperiod⟩ := rule_of_charge? hplace hcharge
  refine List.mem_filterMap.mpr ⟨r, ?_, by rw [hquota, hperiod]⟩
  cases place with
  | listed i => exact List.mem_append_left _ (List.mem_of_getElem? hr)
  | fallback => exact List.mem_append_right _ (Option.mem_toList.mpr hr)

namespace Limiter

/-- **No request stops the program while the clock lasts under every quota of the rulebook.** -/
theorem running_check {l : Limiter ClockedBuckets} {most uptime now n : Nat}
    (h : l.meter.Running l.rulebook.terms uptime) (hnow : now ≤ uptime)
    (hlasts : ∀ c ∈ l.rulebook.terms, c.1.Lasts c.2 most uptime) (hmost : n ≤ most)
    (path : String) (headers : Headers) :
    (l.check now path headers n).2.meter.Running l.rulebook.terms uptime := by
  unfold check
  cases hlimit : l.rulebook.limit path headers with
  | unlimited | blocked => exact h
  | limited c =>
    have hturn : (SweptTurn.spend c.key c.allowance c.period n).Under l.rulebook.terms most :=
      ⟨Rulebook.mem_terms_of_limit hlimit, hmost⟩
    exact h.turn hlasts hnow hturn

/-- A rulebook that is accepted, with a request per thousand years: the first one stops the
program. -/
theorem first_request_halts :
    let text := "\x7b\"rules\":[\x7b\"path_prefix\":\"/\",\"header_keys\":[\"user-id\"]," ++
      "\"quota\":1,\"period_secs\":31536000000\x7d]\x7d"
    ((Rulebook.ofJson text).toOption.map fun b =>
      let l : Limiter ClockedBuckets := ⟨b, .start .unswept⟩
      (l.check 0 "/x" (.pairs [("user-id", "u")]) 1).2.meter.halted) = some true := by
  decide +kernel

end Limiter

end BoundedResources
