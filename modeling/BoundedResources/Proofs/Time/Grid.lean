import Mathlib.Algebra.Ring.Nat
import BoundedResources.Time.Task

/-!
# Tickers stay on their grid

A ticker is made for moments that lie whole periods apart. The clock need not stop at any of them:
it jumps, what is due is handled after the jump, and how late that is decides whether the ticker
catches up one grid point at a time or skips those that have passed. **`Ticker.stays_on_grid`** says
that neither way leads off the grid, handles a grid point twice or goes on for ever.

One grid point carries the proof, the last one before the ticker is due (`Ticking.OnGrid`): it has
passed, there are no more ticks than grid points up to it, and handling a tick moves it forward.
-/

set_option autoImplicit false

namespace BoundedResources

namespace Ticker

theorem period_handle (t : Ticker) (now : Nat) : (t.handle now).period = t.period := by
  unfold handle
  split <;> rfl

/-- **A tick that is handled makes the ticker due one period after a point of its grid that has
passed.** -/
theorem due_handle {t : Ticker} {now : Nat} (hdue : t.due ≤ now) :
    ∃ skipped, (t.handle now).due = t.due + t.period * skipped + t.period ∧
      t.due + t.period * skipped ≤ now := by
  unfold handle
  split
  · refine ⟨(now - t.due) / t.period, ?_⟩
    have hsplit := Nat.div_add_mod (now - t.due) t.period
    have hrest := Nat.mod_lt (now - t.due) t.period_pos
    simp only
    omega
  · exact ⟨0, by simp, by simpa using hdue⟩

/-! ## The loop -/

/-- The ticks that are due at `now` are handled until none is left; the list is of the moments at
which they were due. -/
inductive Settles (now : Nat) : Ticker → List Nat → Ticker → Prop where
  | done {t : Ticker} (hdue : now < t.due) : Settles now t [] t
  | tick {t t' : Ticker} {dues : List Nat} (hdue : t.due ≤ now)
      (hrest : Settles now (t.handle now) dues t') : Settles now t (t.due :: dues) t'

/-- The moments at which the ticks were due that are handled at `now`. -/
def dues (t : Ticker) (now : Nat) : List Nat :=
  if t.due ≤ now then t.due :: (t.handle now).dues now else []
termination_by now + 1 - t.due
decreasing_by
  have := due_lt_due_handle t now
  omega

/-- **The loop ends, for every ticker and at every moment**, with the ticker that has caught up. -/
theorem settles_catchUp (t : Ticker) (now : Nat) :
    t.Settles now (t.dues now) (t.catchUp now).2 := by
  fun_induction Ticker.dues t now with
  | case1 t hdue ih =>
    rw [catchUp, if_pos hdue]
    exact .tick hdue ih
  | case2 t hdue =>
    rw [catchUp, if_neg hdue]
    exact .done (Nat.lt_of_not_le hdue)

theorem length_dues (t : Ticker) (now : Nat) : (t.dues now).length = (t.catchUp now).1 := by
  fun_induction Ticker.dues t now with
  | case1 t hdue ih => rw [catchUp, if_pos hdue, List.length_cons, ih]
  | case2 t hdue =>
    rw [catchUp, if_neg hdue]
    rfl

theorem Settles.lt_due {t t' : Ticker} {now : Nat} {dues : List Nat}
    (h : t.Settles now dues t') : now < t'.due := by
  induction h with
  | done hdue => exact hdue
  | tick _ _ ih => exact ih

theorem lt_due_catchUp (t : Ticker) (now : Nat) : now < (t.catchUp now).2.due :=
  (t.settles_catchUp now).lt_due

end Ticker

/-! ## Jumps of the clock -/

/-- A ticker with its clock, and the moments at which the ticks were due that it has handled. -/
structure Ticking where
  now : Nat
  ticker : Ticker
  handled : List Nat

namespace Ticking

/-- A ticker that has just been made. -/
def start (now : Nat) (period : Duration) : Ticking := ⟨now, .start now period, []⟩

/-- The clock jumps, and what is due then is handled. -/
def jump (s : Ticking) (time : Duration) : Ticking :=
  let now := s.now + time.nanos
  ⟨now, (s.ticker.catchUp now).2, s.handled ++ s.ticker.dues now⟩

/-- A ticker after some jumps of the clock. -/
def after (s : Ticking) (jumps : List Duration) : Ticking := jumps.foldl jump s

/-- The last grid point before the ticker is due, the `k`-th one after it was made. -/
structure OnGrid (made period : Nat) (s : Ticking) (k : Nat) : Prop where
  spaced : s.ticker.period = period
  due : s.ticker.due = made + k * period + period
  passed : made + k * period ≤ s.now
  ticks : s.handled.length ≤ k
  begun : s.handled = [] → k = 0
  earlier : ∀ due ∈ s.handled, due < s.ticker.due
  increasing : s.handled.Pairwise (· < ·)

variable {made period k : Nat} {s : Ticking}

theorem onGrid_start (now : Nat) (period : Duration) :
    (start now period).OnGrid now (max period.nanos minPeriod) 0 := by
  refine ⟨rfl, ?_, ?_, Nat.le_refl 0, fun _ => rfl, ?_, .nil⟩
  · rw [Nat.zero_mul]
    rfl
  · rw [Nat.zero_mul]
    exact Nat.le_refl now
  · exact fun due hdue => nomatch hdue

theorem OnGrid.later (h : s.OnGrid made period k) {now : Nat} (hle : s.now ≤ now) :
    OnGrid made period { s with now := now } k :=
  ⟨h.spaced, h.due, Nat.le_trans h.passed hle, h.ticks, h.begun, h.earlier, h.increasing⟩

/-- **A tick moves the last grid point forward**, by one or by as many as are skipped. -/
theorem OnGrid.tick (h : s.OnGrid made period k) (hdue : s.ticker.due ≤ s.now) :
    ∃ k', OnGrid made period
      { s with ticker := s.ticker.handle s.now, handled := s.handled ++ [s.ticker.due] } k' := by
  obtain ⟨skipped, hnext, hpassed⟩ := Ticker.due_handle hdue
  have hforward := s.ticker.due_lt_due_handle s.now
  have hpoint : made + (k + 1 + skipped) * period = s.ticker.due + s.ticker.period * skipped := by
    rw [h.due, h.spaced, Nat.add_mul, Nat.add_mul, Nat.one_mul, Nat.mul_comm period skipped]
    omega
  refine ⟨k + 1 + skipped, ?_, ?_, ?_, ?_, ?_, ?_, ?_⟩
  · exact (s.ticker.period_handle s.now).trans h.spaced
  · exact hnext.trans (by rw [hpoint, h.spaced])
  · exact Nat.le_trans (Nat.le_of_eq hpoint) hpassed
  · have hticks := h.ticks
    rw [List.length_append, List.length_singleton]
    omega
  · exact fun hnil => absurd hnil (List.append_ne_nil_of_right_ne_nil _ (List.cons_ne_nil _ _))
  · intro due hmem
    rcases List.mem_append.mp hmem with hmem | hmem
    · exact Nat.lt_trans (h.earlier due hmem) hforward
    · exact List.mem_singleton.mp hmem ▸ hforward
  · refine List.pairwise_append.mpr ⟨h.increasing, List.pairwise_singleton _ _, ?_⟩
    intro due hmem due' hmem'
    exact List.mem_singleton.mp hmem' ▸ h.earlier due hmem

theorem OnGrid.settles {t' : Ticker} {dues : List Nat} (h : s.OnGrid made period k)
    (hsettles : s.ticker.Settles s.now dues t') :
    ∃ k', OnGrid made period { s with ticker := t', handled := s.handled ++ dues } k' := by
  obtain ⟨now, ticker, handled⟩ := s
  change ticker.Settles now dues t' at hsettles
  induction hsettles generalizing handled k with
  | done hdue =>
    rw [List.append_nil]
    exact ⟨k, h⟩
  | @tick t t' dues hdue _ ih =>
    obtain ⟨k', hnext⟩ := h.tick hdue
    rw [List.append_cons]
    exact ih _ hnext

theorem OnGrid.jump (h : s.OnGrid made period k) (time : Duration) :
    ∃ k', (s.jump time).OnGrid made period k' :=
  (h.later (Nat.le_add_right s.now time.nanos)).settles (s.ticker.settles_catchUp _)

theorem OnGrid.after (h : s.OnGrid made period k) (jumps : List Duration) :
    ∃ k', (s.after jumps).OnGrid made period k' := by
  induction jumps generalizing s k with
  | nil => exact ⟨k, h⟩
  | cons time rest ih =>
    obtain ⟨k', hnext⟩ := h.jump time
    exact ih hnext

theorem now_after (s : Ticking) (jumps : List Duration) :
    (s.after jumps).now = s.now + (jumps.map Duration.nanos).sum := by
  induction jumps generalizing s with
  | nil => rfl
  | cons time rest ih =>
    rw [List.map_cons, List.sum_cons, ← Nat.add_assoc]
    exact ih (s.jump time)

/-- After every jump the ticker has caught up. -/
theorem lt_due_after (h : s.now < s.ticker.due) (jumps : List Duration) :
    (s.after jumps).now < (s.after jumps).ticker.due := by
  induction jumps generalizing s with
  | nil => exact h
  | cons time rest ih => exact ih (s.ticker.lt_due_catchUp _)

end Ticking

/-! ## Tasks count ticks -/

namespace TaskRecord

/-- A task after some jumps of the clock, from `now` on. -/
def afterJumps (r : TaskRecord) (now : Nat) : List Duration → TaskRecord
  | [] => r
  | time :: rest => (r.settle (now + time.nanos)).afterJumps (now + time.nanos) rest

theorem runTicks_of_settles {t t' : Ticker} {now : Nat} {dues : List Nat}
    (h : t.Settles now dues t') (count : Nat) :
    runTicks count t none now = ⟨some (.periodic t' none), count + dues.length, 0⟩ := by
  induction h generalizing count with
  | done hdue => rw [runTicks, if_neg (Nat.not_le.mpr hdue), List.length_nil, Nat.add_zero]
  | tick hdue _ ih =>
    rw [runTicks, if_pos hdue, if_neg (by simp), ih, List.length_cons]
    congr 1
    omega

/-- A task has counted the ticks that its ticker has handled. -/
theorem afterJumps_eq (s : Ticking) (jumps : List Duration) :
    afterJumps ⟨some (.periodic s.ticker none), s.handled.length, 0⟩ s.now jumps =
      ⟨some (.periodic (s.after jumps).ticker none), (s.after jumps).handled.length, 0⟩ := by
  induction jumps generalizing s with
  | nil => rfl
  | cons time rest ih =>
    have hsettled : settle ⟨some (.periodic s.ticker none), s.handled.length, 0⟩
        (s.now + time.nanos) = ⟨some (.periodic (s.jump time).ticker none),
          (s.jump time).handled.length, 0⟩ := by
      refine (runTicks_of_settles (s.ticker.settles_catchUp _) _).trans ?_
      rw [← List.length_append]
      rfl
    rw [afterJumps, hsettled]
    exact ih (s.jump time)

end TaskRecord

/-! ## The grid -/

namespace Ticker

/-- **A ticker stays on its grid, and its task counts grid points.**

Whatever the period, which is a millisecond at least, and however the clock jumps: when all that is
due has been handled the next tick is due whole periods after the ticker was made, one at least, and
later than now. No tick is handled twice, or ahead of one that was due before it; so there are no
more ticks than periods have passed, and there is one as soon as a period has. The task counts
these ticks. At every later moment the loop that handles what is due comes to its end. -/
theorem stays_on_grid (made : Nat) (period : Duration) (jumps : List Duration) :
    let p := max period.nanos minPeriod
    let elapsed := (jumps.map Duration.nanos).sum
    let s := (Ticking.start made period).after jumps
    let task := (TaskRecord.start (.periodic (start made period) none)).afterJumps made jumps
    (∃ k, 1 ≤ k ∧ s.ticker.due = made + k * p) ∧ made + elapsed < s.ticker.due ∧
      s.handled.Pairwise (· < ·) ∧ s.handled.length ≤ elapsed / p ∧
      (1 ≤ s.handled.length ↔ p ≤ elapsed) ∧
      task = ⟨some (.periodic s.ticker none), s.handled.length, 0⟩ ∧
      ∀ now, s.ticker.Settles now (s.ticker.dues now) (s.ticker.catchUp now).2 := by
  intro p elapsed s task
  have hp : 0 < p := (start made period).period_pos
  obtain ⟨k, hgrid⟩ : ∃ k, s.OnGrid made p k := (Ticking.onGrid_start made period).after jumps
  have hnow : s.now = made + elapsed := (Ticking.start made period).now_after jumps
  have hahead : s.now < s.ticker.due :=
    Ticking.lt_due_after (Nat.lt_add_of_pos_right hp) jumps
  have hdue := hgrid.due
  have hpassed := hgrid.passed
  have hticks := Nat.mul_le_mul_right p hgrid.ticks
  rw [hnow] at hahead hpassed
  refine ⟨⟨k + 1, Nat.succ_pos k, ?_⟩, hahead, hgrid.increasing, ?_, ⟨?_, ?_⟩, ?_,
    s.ticker.settles_catchUp⟩
  · rw [hdue, Nat.add_mul, Nat.one_mul, Nat.add_assoc]
  · rw [Nat.le_div_iff_mul_le hp]
    omega
  · intro hsome
    have := Nat.mul_le_mul_right p hsome
    omega
  · intro hlong
    refine List.length_pos_iff.mpr fun hnone => ?_
    rw [hgrid.begun hnone] at hdue
    omega
  · exact TaskRecord.afterJumps_eq (Ticking.start made period) jumps

end Ticker

end BoundedResources
