import BoundedResources.Proofs.Cache.Presence

/-!
# Reading back what was written

Who is told that a write is done, and asks for the key at the same reading of the clock, wants to
find what was written. The entry itself is safe: room is made before it is put in, so whatever has
to go for it, it is not among that (`Store.perform_setRaw`). In the way is only its own deadline. A
lifetime is cut to whole milliseconds and stops at the last one that there is, and a lifetime of
zero is none at all. But whether it is zero is asked before it is cut, and so a lifetime that is
shorter than a millisecond ends when it begins (`Entry.isExpiredAt_create`).

These lifetimes are the only exception (**`Store.reads_back`**): with any other the key exists right
after the write, and a lookup returns the payload.
-/

set_option autoImplicit false

namespace BoundedResources

/-- Some time, but less than a millisecond. -/
def Duration.isFleeting (d : Duration) : Bool := 0 < d.nanos && d.nanos < 1_000_000

theorem Duration.isFleeting_iff_millis {d : Duration} (h : d.nanos ≠ 0) :
    d.isFleeting = true ↔ d.millis = 0 := by
  simp only [isFleeting, millis, Bool.and_eq_true, decide_eq_true_eq]
  omega

/-- **Unless the clock is at its end, an entry is born expired exactly if its lifetime is too short
for the clock.** -/
theorem Entry.isExpiredAt_create (payload : ByteArray) (ttl : Option Duration) (seq : Nat)
    {now : Nat} (hclock : now < lastMillis) :
    (create payload ttl seq now).isExpiredAt now = ttl.any Duration.isFleeting := by
  cases ttl with
  | none => rfl
  | some d =>
    by_cases hzero : d.nanos = 0
    · simp [isExpiredAt, create, deadline, hzero, Duration.isFleeting]
    · -- before its end the clock stops no lifetime short, so only the cut can leave nothing of it
      have hreached : min (now + min d.millis lastMillis) lastMillis ≤ now ↔ d.millis = 0 := by
        omega
      rw [Bool.eq_iff_iff, Option.any_some, Duration.isFleeting_iff_millis hzero, ← hreached]
      simp only [isExpiredAt, create, deadline, if_neg hzero, decide_eq_true_eq]

theorem Contents.exists_get?_write (c : Contents) (budget now : Nat) (key : String)
    (payload : ByteArray) (ttl : Option Duration) :
    ∃ seq, (c.write budget now key payload ttl).2.entries.get? key =
      some (.create payload ttl seq now) :=
  ⟨_, (Table.get?_insert _ key key _).trans (if_pos rfl)⟩

namespace Store

variable {s : Store} {now : Nat} {payload : ByteArray}

theorem perform_setRaw (hopen : s.closed = false) (hfits : payload.size ≤ s.budget) (now : Nat)
    (key : String) (ttl : Option Duration) :
    (s.perform now (.setRaw key payload ttl)).1 = .ok .done ∧
      (s.perform now (.setRaw key payload ttl)).2.closed = false ∧
      ∃ seq, (s.perform now (.setRaw key payload ttl)).2.contents.entries.get? key =
        some (.create payload ttl seq now) := by
  rw [s.perform_of_open hopen, performOpened, setRaw, if_neg (Nat.not_lt.mpr hfits),
    if_neg (Bool.eq_false_iff.mp hopen)]
  exact ⟨rfl, hopen, s.contents.exists_get?_write s.budget now key payload ttl⟩

theorem live?_of_create {key : String} {ttl : Option Duration} {seq : Nat}
    (hentry : s.contents.entries.get? key = some (.create payload ttl seq now))
    (hclock : now < lastMillis) :
    s.contents.live? now key =
      if ttl.any Duration.isFleeting then none else some (.create payload ttl seq now) := by
  rw [Contents.live?, hentry, Option.filter_some, Entry.isExpiredAt_create payload ttl seq hclock]
  cases ttl.any Duration.isFleeting <;> rfl

/-- **What was written is read back, unless its lifetime is some time below a millisecond.**

The store is any that is open after some turns, and the payload any that its budget can hold. In
between the background work may remove what it likes of that which is expired. -/
theorem reads_back {budget : Nat} {turns : List (Nat × StoreTurn)} (key : String)
    (ttl : Option Duration) (hopen : ((empty budget).run turns).closed = false)
    (hfits : payload.size ≤ budget) (hclock : now < lastMillis) :
    let written := ((empty budget).run turns).perform now (.setRaw key payload ttl)
    written.1 = .ok .done ∧
    ∀ removals : List StoreTurn, (∀ t ∈ removals, t.removesExpired = true) →
      let s := written.2.run (removals.map fun t => (now, t))
      if ttl.any Duration.isFleeting then
        (s.perform now (.exists key)).1 = .ok (.found false) ∧
          (s.perform now (.getRaw key)).1 = .error (.notFound key)
      else
        (s.perform now (.exists key)).1 = .ok (.found true) ∧
          (s.perform now (.getRaw key)).1 = .ok (.payload payload) := by
  intro written
  have hsound := sound_run budget turns
  have hwritten : written.2.Sound budget := hsound.turn now (.perform (.setRaw key payload ttl))
  obtain ⟨hdone, hstill, seq, hentry⟩ :=
    perform_setRaw hopen (hsound.budget_eq.symm ▸ hfits) now key ttl
  refine ⟨hdone, fun removals hremovals => ?_⟩
  intro s
  have hthins : written.2.Thins now s := .run hwritten hremovals
  have hlive := (hthins.live? key).trans (live?_of_create hentry hclock)
  have hperform := fun op => perform_of_open (hthins.closed.trans hstill) now op
  simp only [hperform, performOpened, getRaw, hlive]
  split
  · exact ⟨rfl, rfl⟩
  · exact ⟨rfl, rfl⟩

/-- A payload that takes all the room there is, with the shortest lifetime that lasts: what was there
is evicted, and a sweep in between finds nothing. -/
theorem reads_back_millisecond :
    let turns := [(0, StoreTurn.perform (.setRaw "a" ⟨#[1, 2, 3]⟩ none))]
    let s := (((empty 4).run turns).perform 7 (.setRaw "k" ⟨#[4, 5, 6, 7]⟩ (some (.ofMillis 1)))).2
    (s.run [(7, .purge)]).tally.evictions = 1 ∧
      ((s.run [(7, .purge)]).perform 7 (.getRaw "k")).1 = .ok (.payload ⟨#[4, 5, 6, 7]⟩) := by
  intro turns s
  have hopen : ((empty 4).run turns).closed = false := rfl
  have hfits : (ByteArray.mk #[4, 5, 6, 7]).size ≤ 4 := by decide
  have hclock : 7 < lastMillis := by decide
  obtain ⟨-, hread⟩ := reads_back "k" (some (.ofMillis 1)) hopen hfits hclock
  exact ⟨rfl, (hread [.purge] (by decide)).2⟩

/-- A lifetime of half a millisecond: the write is done, and the key is not there. -/
theorem fleeting_write :
    let written := (empty 4096).perform 0
      (.setRaw "k" ⟨#[118]⟩ (some ⟨500_000, by decide⟩))
    written.1 = .ok .done ∧
      (written.2.perform 0 (.exists "k")).1 = .ok (.found false) ∧
      (written.2.perform 0 (.getRaw "k")).1 = .error (.notFound "k") :=
  ⟨rfl, rfl, rfl⟩

end Store

end BoundedResources
