import BoundedResources.Proofs.Cache.Coherence
import BoundedResources.Proofs.Time.Grid

/-!
# How long an expired entry stays

An expired entry takes up room until somebody removes it, and the only one who is sure to come by is
the sweeper. Its ticks are due on a grid, one period apart. A tick can be handled late, because the
clock jumps or because others are busy, and then the grid points that have passed are skipped, or
caught up with if there is little delay. The deadlines of the entries are on the other clock, and
cut to milliseconds.

**`CacheSession.stale_for_less_than_period`** says that all this costs less than a period: as long
as the wall clock is not set, an entry that is found expired when no tick is due has been so for
less than the time between two sweeps. What carries the proof is the last grid point before the next
due time (`Contents.FreshSince`). Since then the sweeper has been there once, and nothing has been
written with a deadline before it.
-/

set_option autoImplicit false

namespace BoundedResources

/-! ## Clocks that move together -/

namespace Clock

variable {c c' c'' start : Clock}

/-- From one reading to the other the two clocks have moved by the same time. -/
def Until (c c' : Clock) : Prop :=
  ∃ d : Nat, c'.elapsed = c.elapsed + d ∧ c'.wall = c.wall + d

theorem Until.refl (c : Clock) : c.Until c := ⟨0, rfl, (Int.add_zero _).symm⟩

theorem Until.trans (h : c.Until c') (h' : c'.Until c'') : c.Until c'' := by
  obtain ⟨d, helapsed, hwall⟩ := h
  obtain ⟨d', helapsed', hwall'⟩ := h'
  exact ⟨d + d', by omega, by omega⟩

theorem until_advance (c : Clock) (time : Duration) : c.Until (c.advance time) :=
  ⟨time.nanos, rfl, rfl⟩

/-- Both clocks stand at a whole millisecond. -/
def IsWhole (c : Clock) : Prop := c.elapsed % 1_000_000 = 0 ∧ c.wall % 1_000_000 = 0

/-- How long ago a millisecond of the wall clock began, in nanoseconds. -/
def past (c : Clock) (millis : Nat) : Nat :=
  (c.wallMillis - millis) * 1_000_000 + (c.wall % 1_000_000).toNat

theorem past_eq (millis : Nat) (hpast : millis ≤ c.wallMillis) (hepoch : 0 ≤ c.wall)
    (hlast : c.wall < 18_446_744_073_709_551_616_000_000) :
    (c.past millis : Int) = c.wall - millis * 1_000_000 := by
  unfold wallMillis at hpast
  unfold past wallMillis
  omega

/-- A millisecond that has begun since some moment began no longer ago than that, counted from the
start of the moment's own millisecond. -/
theorem past_le (hstart : start.IsWhole) (hc : start.Until c) (hc' : c.Until c')
    {point millis : Nat} (hpoint : point % 1_000_000 = 0) (hle : point ≤ c.elapsed)
    (hsince : c.wallMillis ≤ millis) (hpast : millis ≤ c'.wallMillis) :
    c'.past millis ≤ c'.elapsed - point := by
  obtain ⟨helapsed, hwall⟩ := hstart
  obtain ⟨d, hd, hd'⟩ := hc
  obtain ⟨e, he, he'⟩ := hc'
  unfold wallMillis at hsince hpast
  unfold past wallMillis
  omega

end Clock

/-! ## What is stored -/

namespace Contents

variable {c c' : Contents} {budget now : Nat} {key : String} {e : Entry}

/-- **An entry that a turn leaves was there before, or was written in it.** -/
theorem Coherent.origin (h : c.Coherent) (hchange : Change budget now c c')
    (he : c'.entries.get? key = some e) :
    c.entries.get? key = some e ∨ ∃ payload ttl seq, e = .create payload ttl seq now := by
  have hremove (c : Contents) (k : String) (hk : (c.remove k).2.entries.get? key = some e) :
      c.entries.get? key = some e := by
    rw [get?_remove] at hk
    split at hk
    · cases hk
    · exact hk
  cases hchange with
  | keep => exact .inl he
  | remove k => exact .inl (hremove c k he)
  | write k payload ttl fits =>
    rw [show (c.write budget now k payload ttl).2.entries.get? key = _ from
      Table.get?_insert _ k key _] at he
    split at he
    · exact .inr ⟨payload, ttl, _, (Option.some.inj he).symm⟩
    · have hroom : (((c.remove k).2.makeRoom budget payload.size).2.entries.get? key = some e →
          c.entries.get? key = some e) :=
        evictUntilFits_induction
          (P := fun c' => c'.entries.get? key = some e → c.entries.get? key = some e)
          (fun c' k' hc' hk' => hc' (hremove c' k' hk')) (h.remove k) (hremove c k)
      exact .inl (hroom he)
  | purge =>
    rw [purge, get?_removeAll] at he
    split at he
    · cases he
    · exact .inl he
  | clear | reset => cases he

theorem Coherent.not_expired_of_purge (h : c.Coherent)
    (he : (c.purge now).2.entries.get? key = some e) : e.isExpiredAt now = false := by
  rw [purge, get?_removeAll] at he
  split at he
  · cases he
  · rename_i hstays
    rw [mem_expiredKeys_iff h.distinct] at hstays
    exact Bool.eq_false_iff.mpr fun hexpired => hstays ⟨e, he, hexpired⟩

end Contents

theorem Entry.le_of_create {payload : ByteArray} {ttl : Option Duration} {seq now deadline : Nat}
    (hclock : now ≤ lastMillis) (h : (create payload ttl seq now).expiresAt = some deadline) :
    now ≤ deadline := by
  simp only [create, Entry.deadline] at h
  cases ttl with
  | none => cases h
  | some d =>
    simp only at h
    split at h
    · cases h
    · rw [Option.some.injEq] at h
      omega

theorem Clock.wallMillis_le (c : Clock) : c.wallMillis ≤ lastMillis :=
  Nat.le_of_lt_succ (Nat.mod_lt _ (by decide))

namespace Contents

/-- No entry has a deadline from before a moment of the monotonic clock: the wall clock has shown
the deadline or less since then. -/
def FreshSince (start now : Clock) (point : Nat) (c : Contents) : Prop :=
  ∀ key e deadline, c.entries.get? key = some e → e.expiresAt = some deadline →
    ∃ clock, start.Until clock ∧ clock.Until now ∧ point ≤ clock.elapsed ∧
      clock.wallMillis ≤ deadline

namespace FreshSince

variable {start now : Clock} {point budget : Nat} {c c' : Contents}

theorem later (h : c.FreshSince start now point) {now' : Clock} (hlater : now.Until now') :
    c.FreshSince start now' point := by
  intro key e deadline he hdeadline
  obtain ⟨clock, hclock, hnow, hpoint, hshown⟩ := h key e deadline he hdeadline
  exact ⟨clock, hclock, hnow.trans hlater, hpoint, hshown⟩

theorem change (h : c.FreshSince start now point) (hc : c.Coherent) (hnow : start.Until now)
    (hpoint : point ≤ now.elapsed) (hchange : Change budget now.wallMillis c c') :
    c'.FreshSince start now point := by
  intro key e deadline he hdeadline
  rcases hc.origin hchange he with hold | ⟨payload, ttl, seq, rfl⟩
  · exact h key e deadline hold hdeadline
  · exact ⟨now, hnow, .refl now, hpoint, Entry.le_of_create now.wallMillis_le hdeadline⟩

/-- **A sweep leaves nothing that has expired before it.** -/
theorem purge (hc : c.Coherent) (hnow : start.Until now) (hpoint : point ≤ now.elapsed) :
    (c.purge now.wallMillis).2.FreshSince start now point := by
  intro key e deadline he hdeadline
  refine ⟨now, hnow, .refl now, hpoint, ?_⟩
  have hlive := hc.not_expired_of_purge he
  simp only [Entry.isExpiredAt, hdeadline, decide_eq_false_iff_not] at hlive
  exact Nat.le_of_not_le hlive

end FreshSince

end Contents

/-! ## Caches with their clocks -/

/-- The time between two sweeps, a millisecond at least. -/
def CacheConfig.period (config : CacheConfig) : Nat := max config.cleanupInterval.nanos minPeriod

/-- What can happen to a cache while the wall clock is not set. The background work can be late. -/
inductive CacheMove where
  | perform (op : Operation)
  | advance (time : Duration)
  /-- The key that was flagged first is looked at again. -/
  | look
  /-- The sweeper handles one tick, if one is due. -/
  | tick
  /-- All the background work that is due is done. -/
  | settle
  | close

namespace Cache

/-- Looks again at the key that was flagged first. -/
def look (c : Cache) (clock : Clock) : Cache :=
  match c.flagged with
  | [] => c
  | key :: rest =>
    { c with store := c.store.removeIfExpired clock.wallMillis key, flagged := rest }

/-- Handles one tick of the sweeper, if one is due. -/
def tick (c : Cache) (clock : Clock) : Cache :=
  match c.sweeper with
  | none => c
  | some ticker =>
    if ticker.due ≤ clock.elapsed then
      { c with
        store := (c.store.purge clock.wallMillis).2
        sweeper := some (ticker.handle clock.elapsed) }
    else c

theorem removeFlagged_look {c : Cache} {clock : Clock} {key : String} {rest : List String}
    (hflagged : c.flagged = key :: rest) :
    c.removeFlagged clock = (c.look clock).removeFlagged clock := by
  unfold removeFlagged look
  rw [hflagged]
  rfl

/-- The sweeps that are due are run one tick at a time. -/
theorem runSweeps_tick {c : Cache} {clock : Clock} {ticker : Ticker}
    (hsweeper : c.sweeper = some ticker) (hdue : ticker.due ≤ clock.elapsed) :
    c.runSweeps clock = (c.tick clock).runSweeps clock := by
  unfold runSweeps tick
  rw [hsweeper]
  simp only [if_pos hdue]
  rw [Ticker.catchUp, if_pos hdue]
  simp only [List.range_succ_eq_map, List.foldl_cons, List.foldl_map]

theorem runSweeps_of_not_due {c : Cache} {clock : Clock} {ticker : Ticker}
    (hsweeper : c.sweeper = some ticker) (hdue : ¬ ticker.due ≤ clock.elapsed) :
    c.runSweeps clock = c := by
  have hnone : ticker.catchUp clock.elapsed = (0, ticker) := by rw [Ticker.catchUp, if_neg hdue]
  unfold runSweeps
  rw [hsweeper]
  simp only [hnone, ← hsweeper]
  rfl

/-- **Background work that is due is done one step at a time**, so it keeps what each step keeps. -/
theorem settle_induction {P : Cache → Prop} {clock : Clock}
    (hlook : ∀ c : Cache, P c → P (c.look clock)) (htick : ∀ c : Cache, P c → P (c.tick clock))
    {c : Cache} {ticker : Ticker} (hsweeper : c.sweeper = some ticker) (h : P c) :
    P (c.settle clock) := by
  have hlooks (c : Cache) (hc : P c) : P (c.removeFlagged clock) := by
    induction hflagged : c.flagged generalizing c with
    | nil =>
      have hsame : c.removeFlagged clock = c := by
        obtain ⟨store, flagged, sweeper⟩ := c
        obtain rfl : flagged = [] := hflagged
        rfl
      rwa [hsame]
    | cons key rest ih =>
      rw [removeFlagged_look hflagged]
      refine ih _ (hlook c hc) ?_
      unfold look
      rw [hflagged]
  have hticks (c : Cache) (ticker : Ticker) (hticker : c.sweeper = some ticker) (hc : P c) :
      P (c.runSweeps clock) := by
    -- every tick that is handled moves the due time on, and it is handled only up to now
    induction hleft : clock.elapsed + 1 - ticker.due using Nat.strongRecOn
      generalizing c ticker with
    | ind left ih =>
      by_cases hdue : ticker.due ≤ clock.elapsed
      · rw [runSweeps_tick hticker hdue]
        have hmoves := ticker.due_lt_due_handle clock.elapsed
        refine ih _ ?_ (c.tick clock) (ticker.handle clock.elapsed) ?_ (htick c hc) rfl
        · omega
        · unfold tick
          rw [hticker]
          simp only [if_pos hdue]
      · rwa [runSweeps_of_not_due hticker hdue]
  have hrunning : c.sweeper.isNone = false := by rw [hsweeper]; rfl
  unfold settle
  rw [hrunning]
  exact hticks _ ticker hsweeper (hlooks c h)

end Cache

namespace CacheSession

/-- A new cache, when the clocks stand somewhere. -/
def startAt (clock : Clock) (config : CacheConfig) : CacheSession := ⟨clock, .create config clock⟩

/-- The cache after a move. -/
def move (s : CacheSession) : CacheMove → CacheSession
  | .perform op => { s with cache := (s.cache.perform s.clock op).2 }
  | .advance time => { s with clock := s.clock.advance time }
  | .look => { s with cache := s.cache.look s.clock }
  | .tick => { s with cache := s.cache.tick s.clock }
  | .settle => { s with cache := s.cache.settle s.clock }
  | .close => { s with cache := s.cache.close }

/-- The cache after some moves. -/
def moves (s : CacheSession) (ms : List CacheMove) : CacheSession := ms.foldl move s

/-! ## From one sweep to the next -/

/-- The next tick is due one period after a grid point, since when the sweeper has been there. -/
structure Swept (start : Clock) (period : Nat) (s : CacheSession) : Prop where
  clocks : start.Until s.clock
  coherent : s.cache.store.contents.Coherent
  fresh : ∀ ticker, s.cache.sweeper = some ticker → ticker.period = period ∧
    ∃ point, ticker.due = point + period ∧ point % 1_000_000 = 0 ∧ point ≤ s.clock.elapsed ∧
      s.cache.store.contents.FreshSince start s.clock point
  stopped : s.cache.sweeper = none → s.cache.store.closed = true

namespace Swept

variable {start : Clock} {period : Nat} {s : CacheSession}

theorem startAt {clock : Clock} (hwhole : clock.IsWhole) (config : CacheConfig) :
    (startAt clock config).Swept clock config.period := by
  refine ⟨.refl clock, Contents.coherent_empty, ?_, fun hnone => nomatch hnone⟩
  intro ticker hticker
  obtain rfl := Option.some.inj hticker
  exact ⟨rfl, clock.elapsed, rfl, hwhole.1, Nat.le_refl _, fun _ _ _ he => nomatch he⟩

/-- Something is done with the store, and the sweeper is left alone. -/
theorem withStore (h : s.Swept start period) {store : Store} (flagged : List String)
    (hchange : Contents.Change s.cache.store.budget s.clock.wallMillis s.cache.store.contents
      store.contents)
    (hclosed : store.closed = s.cache.store.closed) :
    Swept start period ⟨s.clock, { s.cache with store := store, flagged := flagged }⟩ := by
  refine ⟨h.clocks, h.coherent.change hchange, fun ticker hticker => ?_,
    fun hnone => hclosed.trans (h.stopped hnone)⟩
  obtain ⟨hperiod, point, hdue, hwhole, hpoint, hfresh⟩ := h.fresh ticker hticker
  exact ⟨hperiod, point, hdue, hwhole, hpoint, hfresh.change h.coherent h.clocks hpoint hchange⟩

theorem perform (h : s.Swept start period) (op : Operation) :
    (s.move (.perform op)).Swept start period :=
  h.withStore _ (s.cache.store.change_turn s.clock.wallMillis (.perform op))
    (s.cache.store.closed_perform s.clock.wallMillis op)

theorem advance (h : s.Swept start period) (time : Duration) :
    (s.move (.advance time)).Swept start period := by
  have hlater := s.clock.until_advance time
  refine ⟨h.clocks.trans hlater, h.coherent, fun ticker hticker => ?_, h.stopped⟩
  obtain ⟨hperiod, point, hdue, hwhole, hpoint, hfresh⟩ := h.fresh ticker hticker
  exact ⟨hperiod, point, hdue, hwhole, Nat.le_add_right_of_le hpoint, hfresh.later hlater⟩

theorem look (h : s.Swept start period) : (s.move .look).Swept start period := by
  unfold move Cache.look
  cases s.cache.flagged with
  | nil => exact h
  | cons key rest =>
    exact h.withStore rest (s.cache.store.change_turn s.clock.wallMillis (.removeIfExpired key))
      (s.cache.store.sameFrame_removeIfExpired s.clock.wallMillis key).closed

/-- **When a tick is handled, the grid point that counts moves on.** -/
theorem tick (h : s.Swept start period) (hperiod : period % 1_000_000 = 0) :
    (s.move .tick).Swept start period := by
  unfold move Cache.tick
  cases hsweeper : s.cache.sweeper with
  | none => exact h
  | some ticker =>
    simp only
    by_cases hdue : ticker.due ≤ s.clock.elapsed
    · rw [if_pos hdue]
      refine ⟨h.clocks, h.coherent.removeAll _, fun ticker' hticker' => ?_,
        fun hnone => nomatch hnone⟩
      obtain rfl := Option.some.inj hticker'
      obtain ⟨rfl, point, hpoint, hwhole, -, -⟩ := h.fresh ticker hsweeper
      obtain ⟨skipped, hnext, hpassed⟩ := Ticker.due_handle hdue
      refine ⟨ticker.period_handle s.clock.elapsed, _, hnext, ?_, hpassed,
        .purge h.coherent h.clocks hpassed⟩
      have hgrid : ticker.period * skipped % 1_000_000 = 0 := by
        rw [Nat.mul_mod, hperiod, Nat.zero_mul, Nat.zero_mod]
      omega
    · rw [if_neg hdue]
      exact h

theorem settle (h : s.Swept start period) (hperiod : period % 1_000_000 = 0) :
    (s.move .settle).Swept start period := by
  cases hsweeper : s.cache.sweeper with
  | none =>
    have hidle : s.cache.settle s.clock = { s.cache with flagged := [] } := by
      rw [Cache.settle, if_pos (by rw [hsweeper]; rfl)]
    show Swept start period ⟨s.clock, s.cache.settle s.clock⟩
    rw [hidle]
    exact h.withStore [] .keep rfl
  | some ticker =>
    exact Cache.settle_induction (P := fun c => Swept start period ⟨s.clock, c⟩)
      (fun _ hc => hc.look) (fun _ hc => hc.tick hperiod) hsweeper h

theorem close (h : s.Swept start period) : (s.move .close).Swept start period := by
  have hclosed : s.cache.store.close.closed = true := by
    unfold Store.close
    split
    · assumption
    · rfl
  have hcoherent : s.cache.store.close.contents.Coherent := by
    unfold Store.close
    split
    · exact h.coherent
    · exact Contents.coherent_empty
  refine ⟨h.clocks, hcoherent, fun ticker hticker => ?_, fun _ => hclosed⟩
  cases hticker

theorem move (h : s.Swept start period) (hperiod : period % 1_000_000 = 0) (m : CacheMove) :
    (s.move m).Swept start period := by
  cases m with
  | perform op => exact h.perform op
  | advance time => exact h.advance time
  | look => exact h.look
  | tick => exact h.tick hperiod
  | settle => exact h.settle hperiod
  | close => exact h.close

theorem moves (h : s.Swept start period) (hperiod : period % 1_000_000 = 0)
    (ms : List CacheMove) : (s.moves ms).Swept start period := by
  induction ms generalizing s with
  | nil => exact h
  | cons m rest ih => exact ih (h.move hperiod m)

end Swept

/-! ## Sessions are runs of moves -/

/-- No tick of the sweeper is due. -/
def NothingDue (s : CacheSession) : Prop :=
  ∀ ticker, s.cache.sweeper = some ticker → s.clock.elapsed < ticker.due

theorem nothingDue_settle (s : CacheSession) : (s.move .settle).NothingDue := by
  intro ticker hticker
  show s.clock.elapsed < ticker.due
  have hsettled : (s.cache.settle s.clock).sweeper = some ticker := hticker
  unfold Cache.settle at hsettled
  split at hsettled
  · rename_i hnone
    rw [Option.isNone_iff_eq_none] at hnone
    exact absurd (hnone.symm.trans hsettled) (by simp)
  · unfold Cache.runSweeps at hsettled
    split at hsettled
    · rename_i hnone
      exact absurd (hnone.symm.trans hsettled) (by simp)
    · obtain rfl := Option.some.inj hsettled
      exact Ticker.lt_due_catchUp _ _

end CacheSession

/-- The move of an event, unless it sets the wall clock. -/
def CacheEvent.move? : CacheEvent → Option CacheMove
  | .perform op => some (.perform op)
  | .close => some .close
  | .advance time => some (.advance time)
  | .setWall _ => none

namespace CacheSession

theorem step_eq_moves (s : CacheSession) {e : CacheEvent} {m : CacheMove} (h : e.move? = some m) :
    (s.step e).2 = (s.move m).move .settle := by
  cases e with
  | perform | close | advance =>
    obtain rfl := Option.some.inj h
    rfl
  | setWall millis => cases h

/-- **What happens in a session is moves, and afterwards nothing is due.** -/
theorem exists_moves_run {s : CacheSession} (hs : s.NothingDue) {events : List CacheEvent}
    (hevents : ∀ e ∈ events, e.move?.isSome = true) :
    ∃ ms, s.run events = s.moves ms ∧ (s.moves ms).NothingDue := by
  induction events generalizing s with
  | nil => exact ⟨[], rfl, hs⟩
  | cons e rest ih =>
    obtain ⟨hfirst, hrest⟩ := List.forall_mem_cons.mp hevents
    obtain ⟨m, hm⟩ := Option.isSome_iff_exists.mp hfirst
    obtain ⟨ms, hrun, hdue⟩ := ih (nothingDue_settle (s.move m)) hrest
    refine ⟨m :: .settle :: ms, ?_, hdue⟩
    show (s.step e).2.run rest = _
    rw [s.step_eq_moves hm, hrun]
    rfl

/-! ## Staleness -/

/-- The cache was not closed. -/
def IsOpen (s : CacheSession) : Prop := s.cache.store.closed = false

/-- Whatever is stored although it has expired has been expired for less than some time. -/
def StaleForLessThan (s : CacheSession) (time : Nat) : Prop :=
  ∀ key e, s.cache.store.contents.entries.get? key = some e →
    e.isExpiredAt s.clock.wallMillis = true →
      ∃ deadline, e.expiresAt = some deadline ∧ s.clock.past deadline < time

theorem Swept.staleForLessThan {start : Clock} {period : Nat} {s : CacheSession}
    (h : s.Swept start period) (hstart : start.IsWhole) (hdue : s.NothingDue)
    (hopen : s.IsOpen) : s.StaleForLessThan period := by
  intro key e he hexpired
  cases hsweeper : s.cache.sweeper with
  | none => exact absurd (hopen.symm.trans (h.stopped hsweeper)) (by decide)
  | some ticker =>
    obtain ⟨-, point, hnext, hwhole, hpoint, hfresh⟩ := h.fresh ticker hsweeper
    cases hdeadline : e.expiresAt with
    | none => simp [Entry.isExpiredAt, hdeadline] at hexpired
    | some deadline =>
      have hpast : deadline ≤ s.clock.wallMillis := by
        simpa [Entry.isExpiredAt, hdeadline] using hexpired
      obtain ⟨c, hc, hnow, hsince, hshown⟩ := hfresh key e deadline he hdeadline
      have hle := Clock.past_le hstart hc hnow hwhole hsince hshown hpast
      have hbefore := hdue ticker hsweeper
      exact ⟨deadline, rfl, by omega⟩

/-- **An expired entry is there for less than the time between two sweeps.**

The cache is made when both clocks stand at a whole millisecond, and its period is in whole
milliseconds. After that the clocks move on together by any times, operations come and go, and the
background work is done early or late, in one go or in steps. Whenever no tick is due and the cache
is open, what is stored although it has expired has been so for less than a period. A session, in
which all that is due is done after every event, is always in such a state. -/
theorem stale_for_less_than_period (config : CacheConfig) {clock : Clock} (hclock : clock.IsWhole)
    (hperiod : config.period % 1_000_000 = 0) :
    (∀ ms, let s := (startAt clock config).moves ms
      s.NothingDue → s.IsOpen → s.StaleForLessThan config.period) ∧
    ∀ events, (∀ e ∈ events, e.move?.isSome = true) →
      let s := (startAt clock config).run events
      s.IsOpen → s.StaleForLessThan config.period := by
  have hmoves (ms : List CacheMove) := (Swept.startAt hclock config).moves hperiod ms
  have hdue : (startAt clock config).NothingDue := by
    intro ticker hticker
    obtain rfl := Option.some.inj hticker
    exact Nat.lt_add_of_pos_right (Ticker.start clock.elapsed config.cleanupInterval).period_pos
  refine ⟨fun ms => (hmoves ms).staleForLessThan hclock, fun events hevents => ?_⟩
  obtain ⟨ms, hrun, hnothing⟩ := exists_moves_run hdue hevents
  rw [hrun]
  exact (hmoves ms).staleForLessThan hclock hnothing

/-- A cache is swept every 10 ms. Its first tick is handled 3.5 ms late, an entry for 1 ms is
written right after it, and just before the next tick the entry has been expired for 5.9 ms. -/
theorem stale_for_less_than_period_late_tick :
    let config : CacheConfig := ⟨1024, .ofMillis 10⟩
    let ms := [.advance (.ofNanos 13_500_000), .tick,
      .perform (.setRaw "k" ⟨#[1]⟩ (some (.ofMillis 1))), .advance (.ofNanos 6_400_000)]
    let s := (startAt .start config).moves ms
    Clock.start.IsWhole ∧ config.period % 1_000_000 = 0 ∧ s.NothingDue ∧
      s.IsOpen ∧ s.StaleForLessThan config.period ∧
      ((s.cache.store.contents.entries.get? "k").map fun e =>
        (e.isExpiredAt s.clock.wallMillis, e.expiresAt.map s.clock.past)) =
          some (true, some 5_900_000) := by
  intro config ms s
  have hclock : Clock.start.IsWhole := ⟨rfl, rfl⟩
  have hperiod : config.period % 1_000_000 = 0 := by decide +kernel
  have hnext : s.cache.sweeper.all (fun ticker => s.clock.elapsed < ticker.due) = true := by
    decide +kernel
  have hdue : s.NothingDue := fun ticker hticker => by simpa [hticker] using hnext
  have hopen : s.IsOpen := show s.cache.store.closed = false by decide +kernel
  refine ⟨hclock, hperiod, hdue, hopen, ?_, by decide +kernel⟩
  exact (stale_for_less_than_period config hclock hperiod).1 ms hdue hopen

end CacheSession

end BoundedResources
