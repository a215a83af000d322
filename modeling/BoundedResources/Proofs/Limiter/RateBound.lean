import BoundedResources.Proofs.Limiter.Turns

/-!
# How much a key is granted in a stretch of time

A key with a quota of `q` requests and an interval `t` between them would ideally be granted no
more than `q + W / t` requests in any stretch of length `W`. A bucket that nobody has asked yet is
taken to arrive one interval after now, and keeps to that. A bucket that has granted something and
has then been left alone until its arrival time has passed counts from now instead, and grants one
request more: **`granted_in_stretch`** says that one more is the worst, and that the ideal bound
holds for whatever is asked from `first` on exactly if the arrival time that the key has by then is
beyond `first + W % t`.

The proof measures a meter by one moment, the level of the key: the moment from which the next
granted requests count. Every turn puts it off by an interval for every request that it grants
(`Keeps.level_turn`), and a turn that grants something leaves it at most a capacity and an interval
ahead of now (`Keeps.level_turn_le`). Forgetting an idle bucket never pulls the level back.
-/

set_option autoImplicit false

namespace BoundedResources

theorem Bucket.le_level (b : Bucket) (now : Nat) : now ≤ b.level now := Nat.le_max_right _ _

/-- The level goes up by an interval for each granted request. -/
theorem Bucket.level_call (b : Bucket) (now n : Nat) :
    b.level now + b.interval * (if b.admits now n then n else 0) ≤ (b.call now n).level now := by
  unfold call
  by_cases hn : n = 0
  · simp only [hn, if_pos, ite_self, Nat.mul_zero, Nat.add_zero, Nat.le_refl]
  · rw [if_neg hn]
    split
    · rename_i hadmits
      have harrival := b.arrival_spend now n
      rw [if_pos hadmits] at harrival
      rw [← b.arrivalAfter_eq, level, arrivalAt, harrival]
      exact Nat.le_max_left _ _
    · rename_i hadmits
      have harrival := b.arrival_spend now n
      rw [if_neg hadmits] at harrival
      rw [level, level, arrivalAt, arrivalAt, harrival, interval_spend, Nat.mul_zero]
      exact Nat.le_refl _

theorem Bucket.level_call_le {b : Bucket} {now n : Nat} (hadmits : b.admits now n = true)
    (hn : n ≠ 0) : (b.call now n).level now ≤ now + b.capacity + b.interval := by
  have harrival := b.arrival_spend now n
  rw [if_pos hadmits] at harrival
  rw [call, if_neg hn, level, arrivalAt, harrival]
  -- A bucket that was just asked has an arrival time of its own, so `now` is the smaller part.
  refine Nat.max_le.mpr ⟨arrivalAfter_le hadmits (Nat.one_le_iff_ne_zero.mpr hn), ?_⟩
  omega

namespace TokenBuckets

variable {t : TokenBuckets} {key : String} {q : Allowance} {p : Duration} {past now : Nat}

/-- The moment from which the next granted requests of a key count. -/
def level (t : TokenBuckets) (key : String) (q : Allowance) (p : Duration) (now : Nat) : Nat :=
  (t.bucketFor (now / 1_000_000) key q p).level now

theorem level_of_some {b : Bucket} (h : t.buckets.get? key = some b) :
    t.level key q p now = b.level now := by
  unfold level bucketFor
  rw [h]
  rfl

theorem level_of_none (h : t.buckets.get? key = none) :
    t.level key q p now = now + q.interval p := by
  unfold level bucketFor
  rw [h]
  exact Nat.max_eq_left (Nat.le_add_right _ _)

theorem level_congr {t' : TokenBuckets} (h : t'.buckets.get? key = t.buckets.get? key) :
    t'.level key q p now = t.level key q p now := by
  unfold level bucketFor
  rw [h]

theorem le_level (t : TokenBuckets) (key : String) (q : Allowance) (p : Duration) (now : Nat) :
    now ≤ t.level key q p now :=
  Bucket.le_level _ now

theorem level_mono (t : TokenBuckets) (key : String) (q : Allowance) (p : Duration)
    (h : past ≤ now) : t.level key q p past ≤ t.level key q p now := by
  cases hget : t.buckets.get? key with
  | none =>
    rw [level_of_none hget, level_of_none hget]
    omega
  | some b =>
    rw [level_of_some hget, level_of_some hget]
    exact b.level_mono h

/-! ## What a turn does to the level -/

theorem grants_spend (t : TokenBuckets) (now : Nat) (key : String) (q : Allowance)
    (p : Duration) (n : Nat) :
    t.grants now key (.spend key q p n) =
      if (t.bucketFor (now / 1_000_000) key q p).admits now n then n else 0 := by
  by_cases hn : n = 0
  · simp only [grants, hn, ite_self]
  · simp only [grants, true_and, t.allowed_spend now key q p hn]

theorem grants_spend_of_ne (t : TokenBuckets) (now : Nat) {key k : String} (h : k ≠ key)
    (q : Allowance) (p : Duration) (n : Nat) : t.grants now key (.spend k q p n) = 0 :=
  if_neg fun hk => h hk.1

theorem level_spend (t : TokenBuckets) (now : Nat) (key : String) (q : Allowance)
    (p : Duration) (n : Nat) :
    (t.turn now (.spend key q p n)).level key q p now =
      ((t.bucketFor (now / 1_000_000) key q p).call now n).level now := by
  apply level_of_some
  rw [show t.turn now (.spend key q p n) = (t.spend now key q p n).2 from rfl, get?_spend,
    if_pos rfl]

/-- Nothing is gained by being forgotten. -/
theorem Keeps.level_sweep (h : t.Keeps key q p now) {asOf : Nat} (hasOf : asOf ≤ now) :
    t.level key q p now ≤ (t.turn now (.sweep asOf)).level key q p now := by
  have hsweep : (t.turn now (.sweep asOf)).buckets.get? key =
      (t.buckets.get? key).filter fun b => !b.isIdle (asOf / 1_000_000) :=
    get?_sweep h.distinct asOf key
  cases hget : t.buckets.get? key with
  | none =>
    rw [hget] at hsweep
    apply Nat.le_of_eq
    rw [level_of_none hget, level_of_none hsweep]
  | some b =>
    rw [hget, Option.filter_some] at hsweep
    by_cases hidle : b.isIdle (asOf / 1_000_000) = true
    · rw [hidle, if_neg (by decide)] at hsweep
      rw [level_of_some hget, level_of_none hsweep, Bucket.level, Bucket.arrivalAt,
        ← h.interval b hget]
      -- A new bucket begins one interval from now; the forgotten one must not be further.
      refine Nat.max_le.mpr ⟨?_, Nat.le_add_right _ _⟩
      cases harrival : b.arrival with
      | none => exact Nat.le_refl _
      | some arrival =>
        have := (h.sound b hget).arrival_le_of_isIdle hidle harrival
        rw [Option.getD_some]
        omega
    · rw [Bool.eq_false_iff.mpr hidle, if_pos (by decide)] at hsweep
      apply Nat.le_of_eq
      rw [level_of_some hget, level_of_some hsweep]

/-- **Every turn puts the level off by an interval for each request that it grants.** -/
theorem Keeps.level_turn (h : t.Keeps key q p now) {e : MeterTurn}
    (he : e.Respects key q p now) :
    t.level key q p now + q.interval p * t.grants now key e ≤
      (t.turn now e).level key q p now := by
  cases e with
  | spend k q' p' n =>
    by_cases hk : k = key
    · obtain ⟨rfl, rfl⟩ := he hk
      subst hk
      rw [level_spend, grants_spend, ← h.interval_bucketFor (now / 1_000_000)]
      exact Bucket.level_call _ now n
    · rw [grants_spend_of_ne t now hk, Nat.mul_zero, Nat.add_zero]
      refine Nat.le_of_eq (level_congr ?_).symm
      exact (get?_spend t now k key q' p' n).trans (if_neg (Ne.symm hk))
  | sweep asOf =>
    rw [show t.grants now key (.sweep asOf) = 0 from rfl, Nat.mul_zero, Nat.add_zero]
    exact h.level_sweep he

/-- **A turn that grants something leaves the level at most a capacity and an interval ahead.** -/
theorem Keeps.level_turn_le (h : t.Keeps key q p now) {e : MeterTurn}
    (he : e.Respects key q p now) (hg : 0 < t.grants now key e) :
    (t.turn now e).level key q p now ≤ now + q.interval p * q.count + q.interval p := by
  cases e with
  | spend k q' p' n =>
    by_cases hk : k = key
    · obtain ⟨rfl, rfl⟩ := he hk
      subst hk
      rw [grants_spend] at hg
      split at hg
      · rename_i hadmits
        have hle := Bucket.level_call_le hadmits (Nat.ne_of_gt hg)
        rw [Bucket.capacity, h.interval_bucketFor, h.allowance_bucketFor] at hle
        rw [level_spend]
        exact hle
      · exact absurd hg (Nat.lt_irrefl 0)
    · rw [grants_spend_of_ne t now hk] at hg
      exact absurd hg (Nat.lt_irrefl 0)
  | sweep asOf => exact absurd hg (Nat.lt_irrefl 0)

/-! ## What any number of turns do -/

variable {turns : List (Nat × MeterTurn)} {first last : Nat}

/-- The requests that are granted up to a moment fit between the level before and the capacity and
one interval after that moment. -/
theorem Keeps.granted_le (h : t.Keeps key q p past) (hturns : RegularTurns key q p turns)
    (hpast : ∀ x ∈ turns, past ≤ x.1) (hg : 0 < t.granted key first last turns) :
    t.level key q p past + q.interval p * t.granted key first last turns ≤
      last + q.interval p * q.count + q.interval p := by
  induction turns generalizing t past with
  | nil => exact absurd hg (Nat.lt_irrefl 0)
  | cons x rest ih =>
    obtain ⟨now, e⟩ := x
    have hle : past ≤ now := hpast (now, e) List.mem_cons_self
    have he : e.Respects key q p now := hturns.respects (now, e) List.mem_cons_self
    have hnow := h.later hle
    have hturn := hnow.level_turn he
    have hmono := t.level_mono key q p hle
    have hrest := ih (hnow.turn he) hturns.tail (List.pairwise_cons.mp hturns.ordered).1
    rw [granted] at hg ⊢
    rcases Nat.eq_zero_or_pos ((t.turn now e).granted key first last rest) with hzero | hpos
    · -- Nothing follows, so this turn grants what is granted, and it is in the stretch.
      rw [hzero, Nat.add_zero] at hg ⊢
      split at hg
      · rename_i hin
        have hcap := hnow.level_turn_le he hg
        rw [if_pos hin]
        omega
      · exact absurd hg (Nat.lt_irrefl 0)
    · have hrest := hrest hpos
      rw [Nat.mul_add]
      split
      · omega
      · rw [Nat.mul_zero, Nat.zero_add]
        omega

theorem granted_le_of_level_le {level interval granted window capacity : Nat}
    (hpos : 0 < interval) (hlevel : first ≤ level)
    (h : level + interval * granted ≤ first + window + interval * capacity + interval) :
    granted ≤ capacity + 1 + window / interval := by
  have hroom : granted * interval ≤ window + (capacity + 1) * interval := by
    rw [Nat.mul_comm granted, Nat.mul_comm (capacity + 1), Nat.mul_succ]
    omega
  have hdiv := (Nat.le_div_iff_mul_le hpos).mpr hroom
  rw [Nat.add_mul_div_right _ _ hpos] at hdiv
  omega

theorem granted_le_of_level_lt {level interval granted window capacity : Nat}
    (hlevel : first + window % interval < level)
    (h : level + interval * granted ≤ first + window + interval * capacity + interval) :
    granted ≤ capacity + window / interval := by
  have hsplit := Nat.div_add_mod window interval
  refine Nat.le_of_lt_succ (Nat.lt_of_mul_lt_mul_left (a := interval) ?_)
  rw [Nat.mul_succ, Nat.mul_add]
  omega

/-- One request more than the ideal bound is the worst. -/
theorem Keeps.granted_le_succ (h : t.Keeps key q p past) (hturns : RegularTurns key q p turns)
    (hpast : ∀ x ∈ turns, past ≤ x.1) (first window : Nat) :
    t.granted key first (first + window) turns ≤ q.count + 1 + window / q.interval p := by
  induction turns generalizing t past with
  | nil => exact Nat.zero_le _
  | cons x rest ih =>
    obtain ⟨now, e⟩ := x
    have hnow : t.Keeps key q p now := h.later (hpast (now, e) List.mem_cons_self)
    have he : e.Respects key q p now := hturns.respects (now, e) List.mem_cons_self
    have hafter := (List.pairwise_cons.mp hturns.ordered).1
    by_cases hfirst : first ≤ now
    · rcases Nat.eq_zero_or_pos (t.granted key first (first + window) ((now, e) :: rest))
        with hzero | hpos
      · rw [hzero]
        exact Nat.zero_le _
      · have hgranted := hnow.granted_le hturns
          (List.forall_mem_cons.mpr ⟨Nat.le_refl now, hafter⟩) hpos
        exact granted_le_of_level_le (q.interval_pos p)
          (Nat.le_trans hfirst (t.le_level key q p now)) hgranted
    · rw [granted, if_neg fun hin => hfirst hin.1, Nat.zero_add]
      exact ih (hnow.turn he) hturns.tail hafter

/-- What is asked from a moment on keeps to the ideal bound if the level is high by then. -/
theorem Keeps.granted_le_of_lt_level {window : Nat} (h : t.Keeps key q p first)
    (hturns : RegularTurns key q p turns) (hfirst : ∀ x ∈ turns, first ≤ x.1)
    (hlevel : first + window % q.interval p < t.level key q p first) :
    t.granted key first (first + window) turns ≤ q.count + window / q.interval p := by
  rcases Nat.eq_zero_or_pos (t.granted key first (first + window) turns) with hzero | hpos
  · rw [hzero]
    exact Nat.zero_le _
  · exact granted_le_of_level_lt hlevel (h.granted_le hturns hfirst hpos)

/-! ## One request too many -/

/-- A request at a moment and one more each interval after it, `k` of them. -/
def pulses (key : String) (q : Allowance) (p : Duration) (now : Nat) :
    Nat → List (Nat × MeterTurn)
  | 0 => []
  | k + 1 => (now, .spend key q p 1) :: pulses key q p (now + q.interval p) k

/-- The whole quota at once, and then a request per interval. -/
def surge (key : String) (q : Allowance) (p : Duration) (now k : Nat) :
    List (Nat × MeterTurn) :=
  (now, .spend key q p q.count) :: pulses key q p now k

theorem le_of_mem_pulses {k : Nat} {x : Nat × MeterTurn} (hx : x ∈ pulses key q p now k) :
    now ≤ x.1 := by
  induction k generalizing now with
  | zero => cases hx
  | succ k ih =>
    rcases List.mem_cons.mp hx with rfl | hx
    · exact Nat.le_refl _
    · have := ih hx
      omega

theorem regularTurns_pulses (key : String) (q : Allowance) (p : Duration) (now k : Nat) :
    RegularTurns key q p (pulses key q p now k) := by
  induction k generalizing now with
  | zero => exact ⟨List.Pairwise.nil, fun _ hx => (nomatch hx)⟩
  | succ k ih =>
    refine ⟨List.pairwise_cons.mpr ⟨fun x hx => ?_, (ih _).ordered⟩,
      List.forall_mem_cons.mpr ⟨fun _ => ⟨rfl, rfl⟩, (ih _).respects⟩⟩
    exact Nat.le_trans (Nat.le_add_right _ _) (le_of_mem_pulses hx)

theorem regularTurns_surge (key : String) (q : Allowance) (p : Duration) (now k : Nat) :
    RegularTurns key q p (surge key q p now k) :=
  have hpulses := regularTurns_pulses key q p now k
  ⟨List.pairwise_cons.mpr ⟨fun _ hx => le_of_mem_pulses hx, hpulses.ordered⟩,
    List.forall_mem_cons.mpr ⟨fun _ => ⟨rfl, rfl⟩, hpulses.respects⟩⟩

/-- What a key with an arrival time is granted if there is room for it. -/
theorem Keeps.grants_eq (h : t.Keeps key q p now) {b : Bucket} {arrival n : Nat}
    (hb : t.buckets.get? key = some b) (harrival : b.arrival = some arrival) (hn : 1 ≤ n)
    (hcount : n ≤ q.count)
    (hroom : arrival + q.interval p * (n - 1) ≤ now + q.interval p * q.count) :
    t.grants now key (.spend key q p n) = n ∧
      ∃ b', (t.turn now (.spend key q p n)).buckets.get? key = some b' ∧
        b'.arrival = some (max arrival now + q.interval p * n) := by
  have hfor : (t.bucketFor (now / 1_000_000) key q p).arrival = some arrival := by
    rw [bucketFor, hb]
    exact harrival
  have hadmits : (t.bucketFor (now / 1_000_000) key q p).admits now n = true := by
    rw [Bucket.admits_iff, Bucket.capacity, Bucket.arrivalAt, hfor, h.interval_bucketFor,
      h.allowance_bucketFor]
    exact ⟨hcount, hroom⟩
  refine ⟨by rw [grants_spend, if_pos hadmits], _,
    (get?_spend t now key key q p n).trans (if_pos rfl), ?_⟩
  rw [Bucket.call, if_neg (Nat.ne_of_gt hn), Bucket.arrival_spend, if_pos hadmits,
    Bucket.arrivalAfter, Bucket.arrivalAt, hfor, h.interval_bucketFor]
  rfl

/-- A bucket that has its whole quota ahead of it still grants a request per interval. -/
theorem Keeps.granted_pulses {k : Nat} (h : t.Keeps key q p now) {b : Bucket}
    (hb : t.buckets.get? key = some b)
    (harrival : b.arrival = some (now + q.interval p * q.count)) (hfirst : first ≤ now)
    (hlast : now + q.interval p * k ≤ last + q.interval p) :
    t.granted key first last (pulses key q p now k) = k := by
  induction k generalizing t now b with
  | zero => rfl
  | succ k ih =>
    rw [Nat.mul_succ] at hlast
    -- The arrival time is as far ahead of the next pulse as it is of this one.
    obtain ⟨hgrants, b', hb', harrival'⟩ :=
      h.grants_eq hb harrival (Nat.le_refl 1) q.positive (Nat.le_refl _)
    rw [Nat.max_eq_left (Nat.le_add_right _ _), Nat.mul_one, Nat.add_right_comm] at harrival'
    have hnext : (t.turn now (.spend key q p 1)).Keeps key q p (now + q.interval p) :=
      (h.turn (e := .spend key q p 1) fun _ => ⟨rfl, rfl⟩).later (Nat.le_add_right _ _)
    rw [pulses, granted, if_pos ⟨hfirst, by omega⟩, hgrants,
      ih hnext hb' harrival' (by omega) (by omega), Nat.add_comm]

/-- **After the arrival time has passed a key is granted its whole quota and one request more.** -/
theorem Keeps.granted_surge {k : Nat} (h : t.Keeps key q p now) {b : Bucket} {arrival : Nat}
    (hb : t.buckets.get? key = some b) (harrival : b.arrival = some arrival)
    (hpassed : arrival ≤ now) (hfirst : first ≤ now) (hlast : now + q.interval p * k ≤ last) :
    t.granted key first last (surge key q p now (k + 1)) = q.count + (k + 1) := by
  have hroom : arrival + q.interval p * (q.count - 1) ≤ now + q.interval p * q.count :=
    Nat.add_le_add hpassed (Nat.mul_le_mul_left _ (Nat.sub_le _ _))
  obtain ⟨hgrants, b', hb', harrival'⟩ :=
    h.grants_eq hb harrival q.positive (Nat.le_refl _) hroom
  rw [Nat.max_eq_right hpassed] at harrival'
  have hnext : (t.turn now (.spend key q p q.count)).Keeps key q p now :=
    h.turn (e := .spend key q p q.count) fun _ => ⟨rfl, rfl⟩
  rw [surge, granted, if_pos ⟨hfirst, by omega⟩, hgrants,
    hnext.granted_pulses hb' harrival' hfirst (by rw [Nat.mul_succ]; omega)]

/-! ## The bound -/

/-- **No stretch of time sees more than one request above the ideal bound, and the ideal bound
itself holds from `first` on exactly if the key has no arrival time by then or one beyond
`first + window % t`.** -/
theorem granted_in_stretch (key : String) (q : Allowance) (p : Duration) (first window : Nat) :
    (∀ turns, RegularTurns key q p turns →
      empty.granted key first (first + window) turns ≤
        q.count + 1 + window / q.interval p) ∧
    ∀ before, RegularTurns key q p before → (∀ x ∈ before, x.1 < first) →
      ((∀ after, RegularTurns key q p (before ++ after) → (∀ x ∈ after, first ≤ x.1) →
        empty.granted key first (first + window) (before ++ after) ≤
          q.count + window / q.interval p) ↔
        ∀ b arrival, (empty.run before).buckets.get? key = some b →
          b.arrival = some arrival → first + window % q.interval p < arrival) := by
  refine ⟨fun turns hturns => (keeps_empty key q p 0).granted_le_succ hturns
    (fun _ _ => Nat.zero_le _) first window, fun before hbefore hlt => ?_⟩
  have hkeeps : (empty.run before).Keeps key q p first :=
    (keeps_empty key q p 0).run hbefore (fun _ _ => Nat.zero_le _)
      (fun x hx => Nat.le_of_lt (hlt x hx)) (Nat.zero_le _)
  constructor
  · -- If the arrival time has passed in time, the surge that begins then grants too much.
    intro hbound b arrival hb harrival
    apply Nat.lt_of_not_le
    intro hpassed
    have hsplit := Nat.div_add_mod window (q.interval p)
    have hmod : first ≤ max arrival first := Nat.le_max_right _ _
    have hafter : ∀ x ∈ surge key q p (max arrival first) (window / q.interval p + 1),
        first ≤ x.1 := by
      intro x hx
      rcases List.mem_cons.mp hx with rfl | hx
      · exact hmod
      · exact Nat.le_trans hmod (le_of_mem_pulses hx)
    have htoo := hbound _ (hbefore.append (regularTurns_surge _ _ _ _ _) hlt hafter) hafter
    rw [granted_append, granted_eq_zero _ _ hlt, Nat.zero_add,
      (hkeeps.later hmod).granted_surge hb harrival (Nat.le_max_left _ _) hmod (by omega)] at htoo
    omega
  · intro hcond after hregular hafter
    -- Without a bucket or an arrival time the level is one interval ahead, which is beyond any
    -- remainder.
    rw [granted_append, granted_eq_zero _ _ hlt, Nat.zero_add]
    have hturns : RegularTurns key q p after :=
      ⟨(List.pairwise_append.mp hregular.ordered).2.1,
        fun x hx => hregular.respects x (List.mem_append_right _ hx)⟩
    apply hkeeps.granted_le_of_lt_level hturns hafter
    have hmod := Nat.mod_lt window (q.interval_pos p)
    cases hget : (empty.run before).buckets.get? key with
    | none =>
      rw [level_of_none hget]
      omega
    | some b =>
      rw [level_of_some hget, Bucket.level, Bucket.arrivalAt, hkeeps.interval b hget]
      refine Nat.lt_of_lt_of_le ?_ (Nat.le_max_left _ _)
      cases harrival : b.arrival with
      | none =>
        rw [Option.getD_none]
        omega
      | some arrival => exact hcond b arrival hget harrival

/-- A key that is asked for once in the first second, and whose bucket has refilled when the tenth
is over: the ideal bound fails for what is asked then. -/
theorem granted_in_stretch_refilled :
    let q : Allowance := ⟨2, by decide, by decide⟩
    let before := [(0, MeterTurn.spend "k" q (.ofSecs 2) 1)]
    ¬ ∀ after, RegularTurns "k" q (.ofSecs 2) (before ++ after) →
      (∀ x ∈ after, 10_000_000_000 ≤ x.1) →
        empty.granted "k" 10_000_000_000 (10_000_000_000 + 0) (before ++ after) ≤
          q.count + 0 / q.interval (.ofSecs 2) := by
  intro q before hbound
  have hregular : RegularTurns "k" q (.ofSecs 2) before :=
    ⟨List.pairwise_singleton _ _, List.forall_mem_singleton.mpr fun _ => ⟨rfl, rfl⟩⟩
  have hcond := ((granted_in_stretch "k" q (.ofSecs 2) 10_000_000_000 0).2 before hregular
    (List.forall_mem_singleton.mpr (by decide))).mp hbound
  have hb := (get?_spend empty 0 "k" "k" q (.ofSecs 2) 1).trans (if_pos rfl)
  exact absurd (hcond _ 2_000_000_000 hb (by decide +kernel)) (by decide +kernel)

/-- Three requests at one moment under a quota of two per two seconds, after ten seconds without
any. -/
theorem granted_three_of_two :
    let q : Allowance := ⟨2, by decide, by decide⟩
    let one (now : Nat) := (now, MeterTurn.spend "k" q (.ofSecs 2) 1)
    let turns := [one 0, one 10_000_000_000, one 10_000_000_000, one 10_000_000_000]
    RegularTurns "k" q (.ofSecs 2) turns ∧
      ¬ empty.granted "k" 10_000_000_000 (10_000_000_000 + 0) turns ≤
        q.count + 0 / q.interval (.ofSecs 2) := by
  intro q one turns
  refine ⟨⟨?_, ?_⟩, ?_⟩
  · decide
  · intro x hx
    simp only [turns, one, List.mem_cons, List.not_mem_nil, or_false] at hx
    rcases hx with rfl | rfl | rfl | rfl <;> exact fun _ => ⟨rfl, rfl⟩
  · decide +kernel

end TokenBuckets

end BoundedResources
