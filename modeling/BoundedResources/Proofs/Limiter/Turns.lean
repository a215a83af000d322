import BoundedResources.Limiter.TokenBuckets
import BoundedResources.Proofs.Limiter.Buckets
import BoundedResources.Proofs.Runs

/-!
# Turns at a meter

The callers of a meter of token buckets and its sweeper take turns at it. A turn is one call
(`MeterTurn.spend`) or one sweep, and it is taken at a moment; a sweep by hand may pretend another
moment (`MeterTurn.sweep`). This file says what a turn does to the bucket of a key:
`get?_spend` and `get?_sweep` are all that later proofs know about `spend` and `sweep`.

A key that is always asked for under the same quota has, in every state that turns lead to, a
bucket for that quota or none (`TokenBuckets.Keeps`).
-/

set_option autoImplicit false

namespace BoundedResources

/-- What happens to a meter in one turn. -/
inductive MeterTurn where
  /-- Somebody asks for requests of a key. -/
  | spend (key : String) (allowance : Allowance) (period : Duration) (n : Nat)
  /-- The buckets that are idle at a moment are forgotten. -/
  | sweep (asOf : Nat)

/-- Whether a turn is a call for a key. -/
def MeterTurn.callsFor (key : String) : MeterTurn → Bool
  | .spend k _ _ _ => k = key
  | .sweep _ => false

namespace TokenBuckets

/-- The meter after a turn at `now`. -/
def turn (t : TokenBuckets) (now : Nat) : MeterTurn → TokenBuckets
  | .spend key allowance period n => (t.spend now key allowance period n).2
  | .sweep asOf => (t.sweep asOf).2

/-- How many requests of a key a turn at `now` grants. -/
def grants (t : TokenBuckets) (now : Nat) (key : String) : MeterTurn → Nat
  | .spend k allowance period n =>
    if k = key ∧ (t.spend now k allowance period n).1.allowed then n else 0
  | .sweep _ => 0

/-- The meter after some turns, each with the moment at which it is taken. -/
def run (t : TokenBuckets) (turns : List (Nat × MeterTurn)) : TokenBuckets := runTurns turn t turns

/-- How many requests of a key are granted from one moment to another, both included, in the
course of some turns. -/
def granted (t : TokenBuckets) (key : String) (first last : Nat) : List (Nat × MeterTurn) → Nat
  | [] => 0
  | (now, e) :: rest =>
    (if first ≤ now ∧ now ≤ last then t.grants now key e else 0) +
      (t.turn now e).granted key first last rest

theorem granted_append (t : TokenBuckets) (key : String) (first last : Nat)
    (ts ts' : List (Nat × MeterTurn)) :
    t.granted key first last (ts ++ ts') =
      t.granted key first last ts + (t.run ts).granted key first last ts' := by
  induction ts generalizing t with
  | nil => exact (Nat.zero_add _).symm
  | cons e rest ih =>
    rw [List.cons_append, granted, granted, ih, Nat.add_assoc]
    rfl

/-- Nothing is granted in a stretch of time that begins after the last turn. -/
theorem granted_eq_zero (t : TokenBuckets) (key : String) {first last : Nat}
    {ts : List (Nat × MeterTurn)} (h : ∀ x ∈ ts, x.1 < first) :
    t.granted key first last ts = 0 := by
  induction ts generalizing t with
  | nil => rfl
  | cons e rest ih =>
    have hlt : ¬ (first ≤ e.1 ∧ e.1 ≤ last) := fun hin =>
      absurd (h e List.mem_cons_self) (Nat.not_lt.mpr hin.1)
    rw [granted, if_neg hlt, ih _ fun x hx => h x (List.mem_cons_of_mem _ hx)]

/-! ## What a turn does to a bucket -/

theorem buckets_spend (t : TokenBuckets) (now : Nat) (key : String) (q : Allowance)
    (p : Duration) (n : Nat) :
    (t.spend now key q p n).2.buckets =
      t.buckets.insert key ((t.bucketFor (now / 1_000_000) key q p).call now n) := by
  unfold spend Bucket.call
  by_cases hn : n = 0
  · simp only [hn, if_pos]
  · simp only [if_neg hn]
    split <;> rfl

theorem allowed_spend (t : TokenBuckets) (now : Nat) (key : String) (q : Allowance)
    (p : Duration) {n : Nat} (hn : n ≠ 0) :
    (t.spend now key q p n).1.allowed = (t.bucketFor (now / 1_000_000) key q p).admits now n := by
  unfold spend
  simp only [if_neg hn]
  rw [← Bucket.spend_fst]
  cases (Bucket.spend _ now n).1 <;> rfl

theorem get?_spend (t : TokenBuckets) (now : Nat) (key other : String) (q : Allowance)
    (p : Duration) (n : Nat) :
    (t.spend now key q p n).2.buckets.get? other =
      if other = key then some ((t.bucketFor (now / 1_000_000) key q p).call now n)
      else t.buckets.get? other := by
  rw [buckets_spend, Table.get?_insert]

theorem get?_sweep {t : TokenBuckets} (hd : t.buckets.DistinctKeys) (asOf : Nat)
    (key : String) :
    (t.sweep asOf).2.buckets.get? key =
      (t.buckets.get? key).filter fun b => !b.isIdle (asOf / 1_000_000) :=
  Table.get?_filter hd _ key

theorem distinctKeys_turn {t : TokenBuckets} (hd : t.buckets.DistinctKeys) (now : Nat)
    (e : MeterTurn) : (t.turn now e).buckets.DistinctKeys := by
  cases e with
  | spend key q p n =>
    show (t.spend now key q p n).2.buckets.DistinctKeys
    rw [buckets_spend]
    exact hd.insert _ _
  | sweep asOf => exact hd.filter _

/-- The bucket that a key has after a turn is the one that it had, or one that was called. -/
theorem bucket_turn_cases {t : TokenBuckets} (hd : t.buckets.DistinctKeys) {now : Nat}
    {e : MeterTurn} {key : String} {b : Bucket}
    (hb : (t.turn now e).buckets.get? key = some b) :
    (t.buckets.get? key = some b ∧ e.callsFor key = false) ∨
      ∃ q p n, e = .spend key q p n ∧
        b = (t.bucketFor (now / 1_000_000) key q p).call now n := by
  cases e with
  | spend k q p n =>
    have hget := (get?_spend t now k key q p n).symm.trans hb
    split at hget
    · rename_i hkey
      subst hkey
      exact .inr ⟨q, p, n, rfl, (Option.some.inj hget).symm⟩
    · rename_i hkey
      exact .inl ⟨hget, decide_eq_false (Ne.symm hkey)⟩
  | sweep asOf =>
    have hget := (get?_sweep hd asOf key).symm.trans hb
    exact .inl ⟨(Option.filter_eq_some_iff.mp hget).1, rfl⟩

/-! ## The sweeper takes turns -/

/-- The sweeps that are due are turns at the moment at which they are run. -/
theorem buckets_settle (s : SweptBuckets) (now : Nat) :
    ∃ due, (s.settle now).buckets = s.buckets.run (List.replicate due (now, .sweep now)) := by
  unfold SweptBuckets.settle
  cases s.sweeper with
  | none => exact ⟨0, rfl⟩
  | some ticker => exact ⟨_, foldl_range_eq_runTurns turn now (.sweep now) _ s.buckets⟩

end TokenBuckets

/-! ## One quota for a key -/

/-- Whether a turn at `now` leaves a key its quota: the key is asked for under that quota only, and
no sweep pretends a later moment. -/
def MeterTurn.Respects (key : String) (q : Allowance) (p : Duration) (now : Nat) :
    MeterTurn → Prop
  | .spend k allowance period _ => k = key → allowance = q ∧ period = p
  | .sweep asOf => asOf ≤ now

/-- Turns in the order of time that leave a key its quota. -/
structure RegularTurns (key : String) (q : Allowance) (p : Duration)
    (turns : List (Nat × MeterTurn)) : Prop where
  ordered : turns.Pairwise fun x y => x.1 ≤ y.1
  respects : ∀ x ∈ turns, x.2.Respects key q p x.1

theorem RegularTurns.tail {key : String} {q : Allowance} {p : Duration} {e : Nat × MeterTurn}
    {rest : List (Nat × MeterTurn)} (h : RegularTurns key q p (e :: rest)) :
    RegularTurns key q p rest :=
  ⟨(List.pairwise_cons.mp h.ordered).2, fun x hx => h.respects x (List.mem_cons_of_mem _ hx)⟩

/-- Regular turns up to a moment and regular turns from it on are regular turns. -/
theorem RegularTurns.append {key : String} {q : Allowance} {p : Duration} {now : Nat}
    {ts ts' : List (Nat × MeterTurn)} (h : RegularTurns key q p ts)
    (h' : RegularTurns key q p ts') (hbefore : ∀ x ∈ ts, x.1 < now)
    (hafter : ∀ x ∈ ts', now ≤ x.1) : RegularTurns key q p (ts ++ ts') := by
  refine ⟨List.pairwise_append.mpr ⟨h.ordered, h'.ordered, fun x hx y hy => ?_⟩, fun x hx => ?_⟩
  · exact Nat.le_trans (Nat.le_of_lt (hbefore x hx)) (hafter y hy)
  · rcases List.mem_append.mp hx with hx | hx
    · exact h.respects x hx
    · exact h'.respects x hx

namespace TokenBuckets

variable {t : TokenBuckets} {key : String} {q : Allowance} {p : Duration} {past now : Nat}

/-- What holds of a meter, no later than `now`, that gives a key one quota only. -/
structure Keeps (t : TokenBuckets) (key : String) (q : Allowance) (p : Duration)
    (now : Nat) : Prop where
  distinct : t.buckets.DistinctKeys
  allowance : ∀ b, t.buckets.get? key = some b → b.allowance = q
  interval : ∀ b, t.buckets.get? key = some b → b.interval = q.interval p
  sound : ∀ b, t.buckets.get? key = some b → b.Sound now

theorem keeps_empty (key : String) (q : Allowance) (p : Duration) (now : Nat) :
    empty.Keeps key q p now :=
  ⟨List.nodup_nil, fun _ h => (nomatch h), fun _ h => (nomatch h), fun _ h => (nomatch h)⟩

theorem Keeps.later (h : t.Keeps key q p past) (hle : past ≤ now) : t.Keeps key q p now :=
  ⟨h.distinct, h.allowance, h.interval, fun b hb => (h.sound b hb).later hle⟩

theorem Keeps.allowance_bucketFor (h : t.Keeps key q p past) (millis : Nat) :
    (t.bucketFor millis key q p).allowance = q := by
  show ((t.buckets.get? key).getD (.create q p millis)).allowance = q
  cases hget : t.buckets.get? key with
  | none => rfl
  | some b => exact h.allowance b hget

theorem Keeps.interval_bucketFor (h : t.Keeps key q p past) (millis : Nat) :
    (t.bucketFor millis key q p).interval = q.interval p := by
  show ((t.buckets.get? key).getD (.create q p millis)).interval = q.interval p
  cases hget : t.buckets.get? key with
  | none => rfl
  | some b => exact h.interval b hget

/-- A key has a sound bucket if the one that it had before was sound. -/
theorem sound_bucketFor (h : ∀ b, t.buckets.get? key = some b → b.Sound now) (q : Allowance)
    (p : Duration) : (t.bucketFor (now / 1_000_000) key q p).Sound now := by
  apply Bucket.Sound.touch
  cases hget : t.buckets.get? key with
  | none => exact Bucket.sound_create q p now
  | some b => exact h b hget

/-- The bucket of a key that is asked for now was seen in this millisecond. -/
theorem lt_lastSeen_bucketFor (t : TokenBuckets) (now : Nat) (key : String) (q : Allowance)
    (p : Duration) :
    now < ((t.bucketFor (now / 1_000_000) key q p).lastSeen + 1) * 1_000_000 := by
  have hseen : now / 1_000_000 ≤ (t.bucketFor (now / 1_000_000) key q p).lastSeen :=
    Nat.le_max_right _ _
  exact Nat.lt_of_lt_of_le (Nat.lt_mul_of_div_lt (Nat.lt_succ_self _) (by decide))
    (Nat.mul_le_mul_right _ (Nat.succ_le_succ hseen))

theorem Keeps.turn (h : t.Keeps key q p now) {e : MeterTurn} (he : e.Respects key q p now) :
    (t.turn now e).Keeps key q p now := by
  have hdistinct := distinctKeys_turn h.distinct now e
  suffices hall : ∀ b, (t.turn now e).buckets.get? key = some b →
      b.allowance = q ∧ b.interval = q.interval p ∧ b.Sound now from
    ⟨hdistinct, fun b hb => (hall b hb).1, fun b hb => (hall b hb).2.1,
      fun b hb => (hall b hb).2.2⟩
  intro b hb
  rcases bucket_turn_cases h.distinct hb with ⟨hkept, -⟩ | ⟨q', p', n, rfl, rfl⟩
  · exact ⟨h.allowance b hkept, h.interval b hkept, h.sound b hkept⟩
  · obtain ⟨rfl, rfl⟩ := he rfl
    rw [Bucket.allowance_call, Bucket.interval_call]
    exact ⟨h.allowance_bucketFor _, h.interval_bucketFor _,
      (sound_bucketFor h.sound q' p').call (lt_lastSeen_bucketFor t now key q' p') n⟩

/-- **After regular turns a key has a bucket for its quota or none.** -/
theorem Keeps.run {turns : List (Nat × MeterTurn)} (h : t.Keeps key q p past)
    (hturns : RegularTurns key q p turns) (hpast : ∀ x ∈ turns, past ≤ x.1)
    (hnow : ∀ x ∈ turns, x.1 ≤ now) (hle : past ≤ now) : (t.run turns).Keeps key q p now := by
  obtain ⟨last, hlast, hend⟩ := runTurns_induction_ordered (fun now e => e.Respects key q p now)
    (P := fun now t => Keeps t key q p now) (fun _ _ _ hle hs => hs.later hle)
    (fun _ _ _ he hs => hs.turn he) h hturns.ordered hpast hturns.respects
  exact hend.later (hlast now hle hnow)

end TokenBuckets

end BoundedResources
