import Mathlib.Data.List.Basic
import BoundedResources.Proofs.Limiter.Spending

/-!
# The books of a meter

A meter counts what it grants and refuses, the buckets that it holds and those that it has
forgotten, and each bucket knows when it was seen and how long it may be idle. None of this says
what has happened. The journal of a run does (`TokenBuckets.journal`): it notes each call, whether a
bucket was made for it, and each bucket that goes.

**`TokenBuckets.books_balance`** says that the journal and the meter agree after every run in the
order of time, so that what a sweep will do can be read off the journal alone. A sweep by hand can
pretend any moment, and is told it in milliseconds of 64 bits. `TokenBuckets.sweep_beyond_words` is
about the moments that do not fit.
-/

set_option autoImplicit false

namespace BoundedResources

/-- What there is to note about a turn at a meter. -/
inductive MeterNote where
  /-- A key was called at a moment and with a period; `makes` if it had no bucket before, so that
  one was made. -/
  | call (key : String) (now : Nat) (period : Duration) (makes : Bool)
  /-- The bucket of a key was forgotten. -/
  | forgotten (key : String)

/-- Whether a turn is a call that asks for requests. -/
def MeterTurn.asks : MeterTurn → Bool
  | .spend _ _ _ n => n ≠ 0
  | .sweep _ => false

namespace MeterNote

/-- Whether a bucket was made. -/
def makes : MeterNote → Bool
  | .call _ _ _ makes => makes
  | .forgotten _ => false

/-- When the key was called, if this is a note about that. -/
def calledAt? (key : String) : MeterNote → Option Nat
  | .call k now _ _ => if k = key then some now else none
  | .forgotten _ => none

/-- The period for which a bucket of the key was made, if this is a note about that. -/
def madeFor? (key : String) : MeterNote → Option Duration
  | .call k _ period makes => if k = key ∧ makes = true then some period else none
  | .forgotten _ => none

/-- When a key was last called, by the notes in a journal. -/
def lastCall? (journal : List MeterNote) (key : String) : Option Nat :=
  (journal.filterMap (calledAt? key)).getLast?

/-- The period of the call for which the last bucket of a key was made. -/
def lastPeriod? (journal : List MeterNote) (key : String) : Option Duration :=
  (journal.filterMap (madeFor? key)).getLast?

/-- A key was called, and has not been forgotten since. -/
def CalledSinceForgotten (journal : List MeterNote) (key : String) : Prop :=
  ∃ past note rest, journal = past ++ note :: rest ∧ note.calledAt? key ≠ none ∧
    .forgotten key ∉ rest

/-- Whether in a whole millisecond the last call of a key is longer ago than an hour and than twice
the period of its bucket, all in whole milliseconds. -/
def idleIn (journal : List MeterNote) (millis : Nat) (key : String) : Bool :=
  match lastCall? journal key, lastPeriod? journal key with
  | some called, some period =>
    called / 1_000_000 + max 3_600_000_000_000 (2 * period.nanos) / 1_000_000 < millis
  | _, _ => false

variable {journal notes : List MeterNote} {key : String}

theorem lastCall?_append (h : notes.filterMap (calledAt? key) = []) :
    lastCall? (journal ++ notes) key = lastCall? journal key := by
  rw [lastCall?, List.filterMap_append, h, List.append_nil, lastCall?]

theorem lastPeriod?_append (h : notes.filterMap (madeFor? key) = []) :
    lastPeriod? (journal ++ notes) key = lastPeriod? journal key := by
  rw [lastPeriod?, List.filterMap_append, h, List.append_nil, lastPeriod?]

theorem lastCall?_call (journal : List MeterNote) (key : String) (now : Nat) (period : Duration)
    (makes : Bool) : lastCall? (journal ++ [.call key now period makes]) key = some now := by
  rw [lastCall?, List.filterMap_append,
    List.filterMap_cons_some (show calledAt? key (.call key now period makes) = some now from
      if_pos rfl)]
  exact List.getLast?_concat

theorem lastPeriod?_call (journal : List MeterNote) (key : String) (now : Nat)
    (period : Duration) :
    lastPeriod? (journal ++ [.call key now period true]) key = some period := by
  rw [lastPeriod?, List.filterMap_append,
    List.filterMap_cons_some (show madeFor? key (.call key now period true) = some period from
      if_pos ⟨rfl, rfl⟩)]
  exact List.getLast?_concat

theorem calledSinceForgotten_call (journal : List MeterNote) (key : String) (now : Nat)
    (period : Duration) (makes : Bool) :
    CalledSinceForgotten (journal ++ [.call key now period makes]) key :=
  ⟨journal, _, [], rfl, by simp [calledAt?], List.not_mem_nil⟩

/-- Notes that are not about calls of a key tell nothing new but that it was forgotten. -/
theorem calledSinceForgotten_append (h : ∀ note ∈ notes, note.calledAt? key = none) :
    CalledSinceForgotten (journal ++ notes) key ↔
      CalledSinceForgotten journal key ∧ .forgotten key ∉ notes := by
  constructor
  · rintro ⟨past, note, rest, hsplit, hcalled, hkept⟩
    rcases List.append_eq_append_iff.mp hsplit with ⟨more, -, hnotes⟩ | ⟨more, hjournal, hnotes⟩
    · exact absurd (h note (by simp [hnotes])) hcalled
    · cases more with
      | nil =>
        obtain rfl : note :: rest = notes := hnotes
        exact absurd (h note List.mem_cons_self) hcalled
      | cons first more =>
        rw [List.cons_append] at hnotes
        obtain ⟨rfl, rfl⟩ := List.cons_eq_cons.mp hnotes
        rw [List.mem_append, not_or] at hkept
        exact ⟨⟨past, note, more, hjournal, hcalled, hkept.1⟩, hkept.2⟩
  · rintro ⟨⟨past, note, rest, rfl, hcalled, hkept⟩, hnotes⟩
    refine ⟨past, note, rest ++ notes, List.append_assoc past (note :: rest) notes, hcalled, ?_⟩
    rw [List.mem_append, not_or]
    exact ⟨hkept, hnotes⟩

end MeterNote

/-! ## What is noted about a bucket -/

namespace Bucket

variable {b : Bucket} {journal notes : List MeterNote} {key : String} {past now : Nat}

theorem lifetime_create (q : Allowance) (p : Duration) (millis : Nat) :
    (create q p millis).lifetime = max 3_600_000_000_000 (2 * p.nanos) / 1_000_000 := by
  have hhour : minBucketLifetime.millis = 3_600_000 := rfl
  show max (2 * p.nanos / 1_000_000) minBucketLifetime.millis = _
  rw [hhour]
  omega

/-- A bucket was last seen in the last call of its key that is noted, no later than `now`, and lives
as long as the noted period makes it. -/
structure Noted (b : Bucket) (journal : List MeterNote) (key : String) (now : Nat) : Prop where
  seen : ∃ called, MeterNote.lastCall? journal key = some called ∧ called ≤ now ∧
    b.lastSeen = called / 1_000_000
  lives : ∃ period, MeterNote.lastPeriod? journal key = some period ∧
    b.lifetime = max 3_600_000_000_000 (2 * period.nanos) / 1_000_000

theorem Noted.later (h : b.Noted journal key past) (hle : past ≤ now) :
    b.Noted journal key now := by
  obtain ⟨called, hcalled, hpast, hseen⟩ := h.seen
  exact ⟨⟨called, hcalled, Nat.le_trans hpast hle, hseen⟩, h.lives⟩

theorem Noted.append (h : b.Noted journal key now)
    (hcalls : notes.filterMap (MeterNote.calledAt? key) = [])
    (hmade : notes.filterMap (MeterNote.madeFor? key) = []) :
    b.Noted (journal ++ notes) key now :=
  ⟨(MeterNote.lastCall?_append hcalls).symm ▸ h.seen,
    (MeterNote.lastPeriod?_append hmade).symm ▸ h.lives⟩

/-- **Whether a bucket is idle can be read off the journal.** -/
theorem Noted.isIdle_eq (h : b.Noted journal key now) (millis : Nat) :
    b.isIdle millis = MeterNote.idleIn journal millis key := by
  obtain ⟨called, hcalled, -, hseen⟩ := h.seen
  obtain ⟨period, hperiod, hlives⟩ := h.lives
  rw [isIdle, MeterNote.idleIn, hcalled, hperiod, hseen, hlives]
  exact decide_eq_decide.mpr (by omega)

end Bucket

/-! ## The journal of a run -/

namespace TokenBuckets

variable {t : TokenBuckets} {noted : List MeterNote} {key : String} {past now : Nat}

/-- The notes on a turn at `now`, by what there was before it and what it has left. -/
def notes (t : TokenBuckets) (now : Nat) : MeterTurn → List MeterNote
  | .spend key _ period _ => [.call key now period (t.buckets.get? key).isNone]
  | .sweep asOf =>
    ((t.buckets.map Prod.fst).filter fun key =>
      ((t.sweep asOf).2.buckets.get? key).isNone).map .forgotten

/-- The notes on a run. -/
def journal (t : TokenBuckets) (turns : List (Nat × MeterTurn)) : List MeterNote :=
  runReports turn notes t turns

theorem mem_notes_sweep (asOf : Nat) (key : String) :
    .forgotten key ∈ t.notes now (.sweep asOf) ↔
      (t.buckets.get? key).isSome = true ∧ (t.sweep asOf).2.buckets.get? key = none := by
  have hthere : key ∈ t.buckets.map Prod.fst ↔ (t.buckets.get? key).isSome = true := by
    rw [Option.isSome_iff_ne_none, ne_eq, Table.get?_eq_none_iff, not_not]
  rw [notes, List.mem_map_of_injective fun _ _ h => MeterNote.forgotten.inj h, List.mem_filter,
    hthere, Option.isNone_iff_eq_none]

/-- A sweep is noted without calls. -/
theorem filterMap_notes_sweep {α : Type} (f : MeterNote → Option α)
    (hf : ∀ key, f (.forgotten key) = none) (asOf : Nat) :
    (t.notes now (.sweep asOf)).filterMap f = [] := by
  rw [notes, List.filterMap_map, List.filterMap_eq_nil_iff]
  exact fun key _ => hf key

theorem makes_notes_sweep (asOf : Nat) :
    (t.notes now (.sweep asOf)).countP MeterNote.makes = 0 := by
  rw [notes, List.countP_map, List.countP_eq_zero]
  exact fun key _ => Bool.false_ne_true

theorem counts_spend (t : TokenBuckets) (now : Nat) (key : String) (q : Allowance)
    (p : Duration) (n : Nat) :
    (t.spend now key q p n).2.allowed + (t.spend now key q p n).2.denied =
        t.allowed + t.denied + (if n = 0 then 0 else 1) ∧
      (t.spend now key q p n).2.evicted = t.evicted := by
  unfold spend
  by_cases hn : n = 0
  · simp only [if_pos hn]
    exact ⟨rfl, trivial⟩
  · simp only [if_neg hn]
    split
    · exact ⟨Nat.add_right_comm _ _ _, rfl⟩
    · exact ⟨rfl, rfl⟩

theorem length_spend (hd : t.buckets.DistinctKeys) (now : Nat) (key : String) (q : Allowance)
    (p : Duration) (n : Nat) :
    (t.spend now key q p n).2.buckets.length =
      t.buckets.length + (if t.buckets.get? key = none then 1 else 0) := by
  rw [buckets_spend]
  cases hget : t.buckets.get? key with
  | none => rw [Table.length_insert hget, if_pos rfl]
  | some b =>
    rw [Table.insert, List.length_cons, Table.length_erase hd hget, if_neg (Option.some_ne_none b),
      Nat.add_zero]

/-! ## What every turn keeps -/

/-- A meter and a journal agree, no later than `now`. -/
structure Booked (now : Nat) (t : TokenBuckets) (noted : List MeterNote) : Prop where
  distinct : t.buckets.DistinctKeys
  made : t.buckets.length + t.evicted = noted.countP MeterNote.makes
  tracked : ∀ key, (t.buckets.get? key).isSome = true ↔
    MeterNote.CalledSinceForgotten noted key
  bucket : ∀ key b, t.buckets.get? key = some b → b.Noted noted key now

theorem booked_empty (now : Nat) : Booked now empty [] := by
  refine ⟨List.nodup_nil, rfl, fun key => ⟨fun h => (nomatch h), ?_⟩, fun _ _ hb => nomatch hb⟩
  rintro ⟨past, note, rest, hnil, -⟩
  exact absurd hnil (by simp)

theorem Booked.later (h : Booked past t noted) (hle : past ≤ now) : Booked now t noted :=
  ⟨h.distinct, h.made, h.tracked, fun key b hb => (h.bucket key b hb).later hle⟩

/-- The bucket of a call was seen now, and lives as it did or as its period makes it. -/
theorem Booked.noted_spend (h : Booked now t noted) (key : String) (q : Allowance)
    (p : Duration) (n : Nat) :
    ((t.bucketFor (now / 1_000_000) key q p).call now n).Noted
      (noted ++ t.notes now (.spend key q p n)) key now := by
  have hcalled := MeterNote.lastCall?_call noted key now p (t.buckets.get? key).isNone
  have hnow : (t.bucketFor (now / 1_000_000) key q p).lastSeen = now / 1_000_000 := by
    refine Nat.max_eq_right ?_
    cases hget : t.buckets.get? key with
    | none => exact Nat.le_refl _
    | some b =>
      obtain ⟨called, -, hle, hseen⟩ := (h.bucket key b hget).seen
      rw [Option.getD_some, hseen]
      exact Nat.div_le_div_right hle
  refine ⟨⟨now, hcalled, Nat.le_refl now, (Bucket.lastSeen_call _ now n).trans hnow⟩, ?_⟩
  rw [Bucket.lifetime_call, bucketFor, notes]
  cases hget : t.buckets.get? key with
  | none => exact ⟨p, MeterNote.lastPeriod?_call noted key now p, Bucket.lifetime_create q p _⟩
  | some b =>
    have hnone : [MeterNote.call key now p false].filterMap (MeterNote.madeFor? key) = [] := by
      simp [MeterNote.madeFor?]
    have hlives := (h.bucket key b hget).lives
    rwa [← MeterNote.lastPeriod?_append hnone] at hlives

theorem Booked.spend (h : Booked now t noted) (key : String) (q : Allowance) (p : Duration)
    (n : Nat) :
    Booked now (t.turn now (.spend key q p n)) (noted ++ t.notes now (.spend key q p n)) := by
  have hevicted := (t.counts_spend now key q p n).2
  have hget (other : String) : (t.turn now (.spend key q p n)).buckets.get? other = _ :=
    get?_spend t now key other q p n
  refine ⟨distinctKeys_turn h.distinct now _, ?_, fun other => ?_, fun other b hb => ?_⟩
  · show (t.spend now key q p n).2.buckets.length + (t.spend now key q p n).2.evicted = _
    rw [length_spend h.distinct, hevicted, List.countP_append, ← h.made, notes,
      List.countP_singleton, Nat.add_right_comm]
    cases t.buckets.get? key with
    | none => rfl
    | some b => rfl
  · rw [hget]
    by_cases hkey : other = key
    · subst hkey
      rw [if_pos rfl]
      exact iff_of_true rfl (MeterNote.calledSinceForgotten_call noted other now p _)
    · rw [if_neg hkey, MeterNote.calledSinceForgotten_append, h.tracked, notes]
      · simp
      · simp [notes, MeterNote.calledAt?, Ne.symm hkey]
  · rw [hget] at hb
    split at hb
    · rename_i hkey
      obtain rfl := Option.some.inj hb
      exact hkey ▸ h.noted_spend key q p n
    · rename_i hkey
      refine (h.bucket other b hb).append ?_ ?_
      · simp [notes, MeterNote.calledAt?, Ne.symm hkey]
      · simp [notes, MeterNote.madeFor?, Ne.symm hkey]

theorem Booked.sweep (h : Booked now t noted) (asOf : Nat) :
    Booked now (t.turn now (.sweep asOf)) (noted ++ t.notes now (.sweep asOf)) := by
  refine ⟨distinctKeys_turn h.distinct now _, ?_, fun key => ?_, fun key b hb => ?_⟩
  · rw [List.countP_append, makes_notes_sweep, Nat.add_zero, ← h.made]
    have hfewer : (t.sweep asOf).2.buckets.length ≤ t.buckets.length := List.length_filter_le _ _
    show (t.sweep asOf).2.buckets.length +
      (t.evicted + (t.buckets.length - (t.sweep asOf).2.buckets.length)) = _
    omega
  · rw [MeterNote.calledSinceForgotten_append
      (List.filterMap_eq_nil_iff.mp (filterMap_notes_sweep _ (fun _ => rfl) asOf)),
      ← h.tracked, mem_notes_sweep]
    show ((t.sweep asOf).2.buckets.get? key).isSome = true ↔ _
    cases hbefore : t.buckets.get? key with
    | none =>
      rw [get?_sweep h.distinct, hbefore, Option.filter_none]
      simp
    | some b => simp [Option.isSome_iff_ne_none]
  · have hkept := (get?_sweep h.distinct asOf key).symm.trans hb
    exact (h.bucket key b (Option.filter_eq_some_iff.mp hkept).1).append
      (filterMap_notes_sweep _ (fun _ => rfl) asOf) (filterMap_notes_sweep _ (fun _ => rfl) asOf)

/-- **After turns in the order of time the journal says what the meter knows.** -/
theorem booked_run {turns : List (Nat × MeterTurn)}
    (hordered : turns.Pairwise fun x y => x.1 ≤ y.1) :
    ∃ now, Booked now (empty.run turns) (empty.journal turns) :=
  runReports_induction_ordered notes (P := Booked) (fun _ _ _ _ hle h => h.later hle)
    (fun now t noted e h => by
      cases e with
      | spend key q p n => exact h.spend key q p n
      | sweep asOf => exact h.sweep asOf)
    (booked_empty 0) hordered fun x _ => Nat.zero_le x.1

/-- Every call that asks for requests is counted, once. -/
theorem counted_run (t : TokenBuckets) (turns : List (Nat × MeterTurn)) :
    (t.run turns).allowed + (t.run turns).denied =
      t.allowed + t.denied + turns.countP fun x => x.2.asks := by
  induction turns generalizing t with
  | nil => rfl
  | cons x rest ih =>
    obtain ⟨now, e⟩ := x
    rw [List.countP_cons, show t.run ((now, e) :: rest) = (t.turn now e).run rest from rfl, ih]
    cases e with
    | spend key q p n =>
      rw [show t.turn now (.spend key q p n) = (t.spend now key q p n).2 from rfl,
        (t.counts_spend now key q p n).1]
      by_cases hn : n = 0
      · simp [MeterTurn.asks, hn]
      · simp [MeterTurn.asks, hn, Nat.add_assoc, Nat.add_comm]
    | sweep asOf => rfl

/-! ## Sweeps as of any moment -/

theorem millisOf_eq {moment : Int} (h : moment < 18_446_744_073_709_551_616_000_000) :
    millisOf moment = moment.toNat / 1_000_000 := by
  rw [millisOf]
  omega

/-- A sweep keeps the buckets that are not idle in the millisecond that it is told. -/
theorem buckets_sweepAt (t : TokenBuckets) (moment : Int) :
    (t.sweepAt moment).2.buckets = t.buckets.filter fun x => !x.2.isIdle (millisOf moment) := by
  rw [sweepAt, sweep, Nat.mul_div_cancel _ (by decide)]

theorem Booked.isIdle_eq (h : Booked now t noted) {x : String × Bucket} (hx : x ∈ t.buckets)
    (millis : Nat) : x.2.isIdle millis = MeterNote.idleIn noted millis x.1 :=
  (h.bucket x.1 x.2 (Table.get?_of_mem h.distinct hx)).isIdle_eq millis

theorem Booked.get?_sweepAt (h : Booked now t noted) (moment : Int) (key : String) :
    (t.sweepAt moment).2.buckets.get? key =
      (t.buckets.get? key).filter fun _ => !MeterNote.idleIn noted (millisOf moment) key := by
  rw [buckets_sweepAt, Table.get?_filter h.distinct]
  cases hb : t.buckets.get? key with
  | none => rfl
  | some b => rw [Option.filter_some, Option.filter_some, (h.bucket key b hb).isIdle_eq]

theorem Booked.removed_sweepAt (h : Booked now t noted) (moment : Int) :
    (t.sweepAt moment).1 =
      ((t.buckets.map Prod.fst).filter (MeterNote.idleIn noted (millisOf moment))).length := by
  have hidle : t.buckets.filter (fun x => MeterNote.idleIn noted (millisOf moment) x.1) =
      t.buckets.filter fun x => x.2.isIdle (millisOf moment) :=
    List.filter_congr fun x hx => (h.isIdle_eq hx _).symm
  have hsplit := t.buckets.length_eq_length_filter_add fun x => x.2.isIdle (millisOf moment)
  rw [List.filter_map, List.length_map]
  show t.buckets.length - (t.sweepAt moment).2.buckets.length =
    (t.buckets.filter fun x => MeterNote.idleIn noted (millisOf moment) x.1).length
  rw [buckets_sweepAt, hidle]
  omega

/-- A sweep does nothing if no bucket is idle in its millisecond or a later one. -/
theorem sweepAt_eq_self {millis : Nat} (h : ∀ x ∈ t.buckets, x.2.isIdle millis = false)
    {moment : Int} (hle : millisOf moment ≤ millis) : t.sweepAt moment = (0, t) := by
  have hkept : t.buckets.filter (fun x => !x.2.isIdle (millisOf moment)) = t.buckets := by
    refine List.filter_eq_self.mpr fun x hx => ?_
    have hlater := h x hx
    rw [Bucket.isIdle, decide_eq_false_iff_not] at hlater
    rw [Bool.not_eq_true', Bucket.isIdle, decide_eq_false_iff_not]
    omega
  rw [sweepAt, sweep, Nat.mul_div_cancel _ (by decide), hkept, Nat.sub_self]
  rfl

/-- **Nothing is left to forget for a sweep as of a moment that was swept before**, unless there
were calls in between. -/
theorem sweepAt_again (t : TokenBuckets) {moment moment' : Int}
    (hle : millisOf moment' ≤ millisOf moment) {between : List (Nat × MeterTurn)}
    (hbetween : ∀ x ∈ between, ∃ asOf, x.2 = .sweep asOf) :
    ((t.sweepAt moment).2.run between).sweepAt moment' =
      (0, (t.sweepAt moment).2.run between) := by
  refine sweepAt_eq_self (runTurns_induction_of (fun _ e => ∃ asOf, e = .sweep asOf)
    (P := fun t : TokenBuckets => ∀ x ∈ t.buckets, x.2.isIdle (millisOf moment) = false)
    ?_ ?_ between hbetween) hle
  · intro x hx
    rw [buckets_sweepAt] at hx
    simpa using List.of_mem_filter hx
  · rintro t now e ⟨asOf, rfl⟩ h x hx
    exact h x (List.mem_of_mem_filter hx)

/-! ## Meter and journal -/

/-- **The books of a meter balance.**

Whoever calls a meter in the order of time, and whatever moments the sweeps pretend: the calls that
asked for requests are those that are counted as granted or refused, the buckets that were made are
those that are held or counted as forgotten, and a key has a bucket exactly if it was called and not
forgotten since.

A sweep as of any moment, before now or later, forgets the keys whose last call is by the journal
longer ago than an hour and twice the period of their bucket, and no others; it tells how many these
are, and without calls in between no sweep as of that moment or an earlier one does anything. The
moment counts in whole milliseconds, zero before the meter was made, as long as they fit a 64-bit
word. -/
theorem books_balance {turns : List (Nat × MeterTurn)}
    (hordered : turns.Pairwise fun x y => x.1 ≤ y.1) :
    let t := empty.run turns
    let noted := empty.journal turns
    (t.counts.allowed + t.counts.denied = turns.countP (fun x => x.2.asks) ∧
      t.counts.trackedKeys + t.counts.evicted = noted.countP MeterNote.makes ∧
      ∀ key, (t.buckets.get? key).isSome = true ↔ MeterNote.CalledSinceForgotten noted key) ∧
    (∀ moment,
      (∀ key, (t.sweepAt moment).2.buckets.get? key =
        (t.buckets.get? key).filter fun _ => !MeterNote.idleIn noted (millisOf moment) key) ∧
      (t.sweepAt moment).1 =
        ((t.buckets.map Prod.fst).filter (MeterNote.idleIn noted (millisOf moment))).length ∧
      ∀ moment' between, millisOf moment' ≤ millisOf moment →
        (∀ x ∈ between, ∃ asOf, x.2 = .sweep asOf) →
        ((t.sweepAt moment).2.run between).sweepAt moment' =
          (0, (t.sweepAt moment).2.run between)) ∧
    ∀ moment : Int, moment < 18_446_744_073_709_551_616_000_000 →
      millisOf moment = moment.toNat / 1_000_000 ∧
      ∀ moment' ≤ moment, millisOf moment' ≤ millisOf moment := by
  intro t noted
  obtain ⟨now, hbooked⟩ : ∃ now, Booked now t noted := booked_run hordered
  refine ⟨⟨?_, hbooked.made, hbooked.tracked⟩, fun moment => ⟨hbooked.get?_sweepAt moment,
    hbooked.removed_sweepAt moment, fun moment' between hle hbetween => ?_⟩,
    fun moment hfits => ⟨millisOf_eq hfits, fun moment' hle => ?_⟩⟩
  · exact (counted_run empty turns).trans (Nat.zero_add _)
  · exact t.sweepAt_again hle hbetween
  · rw [millisOf_eq hfits, millisOf_eq (Int.lt_of_le_of_lt hle hfits)]
    omega

/-- One key is called for a request, another one for nothing, and a sweep as of two hours later
forgets the former. A sweep as of seven hours forgets the latter, whose period is three hours. -/
theorem books_balance_two_keys :
    let q : Allowance := ⟨1, by decide, by decide⟩
    let turns := [(0, MeterTurn.spend "short" q (.ofSecs 1) 1),
      (5_000_000, .spend "long" q (.ofSecs 10_800) 0), (6_000_000, .sweep 7_200_000_000_000)]
    let t := empty.run turns
    let later := (t.sweepAt 25_200_000_000_000).2
    turns.Pairwise (fun x y => x.1 ≤ y.1) ∧
      t.counts.allowed + t.counts.denied = 1 ∧ t.counts.trackedKeys + t.counts.evicted = 2 ∧
      (t.sweepAt 25_200_000_000_000).1 = 1 ∧ later.buckets.get? "long" = none ∧
      (later.run [(7_000_000, .sweep 8_000_000)]).sweepAt (-1) =
        (0, later.run [(7_000_000, .sweep 8_000_000)]) := by
  intro q turns t later
  have hordered : turns.Pairwise fun x y => x.1 ≤ y.1 := by decide
  obtain ⟨⟨hcounted, hmade, -⟩, hsweep, -⟩ := books_balance hordered
  obtain ⟨hkept, hremoved, hagain⟩ := hsweep 25_200_000_000_000
  refine ⟨hordered, hcounted, hmade.trans (by decide +kernel), hremoved.trans (by decide +kernel),
    (hkept "long").trans (Option.isNone_iff_eq_none.mp (by decide +kernel)), ?_⟩
  exact hagain (-1) [(7_000_000, .sweep 8_000_000)] (by decide) (by simp)

/-- A sweep as of the first moment whose milliseconds do not fit a word forgets nothing, although
the only bucket is idle by then. As of a millisecond before it is forgotten. -/
theorem sweep_beyond_words :
    let turns := [(0, MeterTurn.spend "k" ⟨1, by decide, by decide⟩ (.ofSecs 1) 1)]
    let t := empty.run turns
    let moment : Int := 18_446_744_073_709_551_616_000_000
    MeterNote.idleIn (empty.journal turns) (moment.toNat / 1_000_000) "k" = true ∧
      (t.sweepAt moment).1 = 0 ∧ (t.sweepAt (moment - 1_000_000)).1 = 1 := by
  decide +kernel

end TokenBuckets

end BoundedResources
