import Mathlib.Algebra.Order.BigOperators.Group.List
import Mathlib.Algebra.Order.Group.Nat
import BoundedResources.Proofs.Cache.Shelf

/-!
# Sweeping costs no live entry

Two stores are given the same turns, but from the second one what is expired is removed more often.
Their contents drift apart for good: where the first store has an expired record to throw out for a
write, the second one has to throw out nothing, and it goes on with old records that the first one
has lost. **`Store.live_of_swept_run`** says that this is the only way in which they differ. Every
live record of the first store is in the second one too, and the second store has evicted no more.

The proof compares shelves (`Shelf.Outlasts`). The second shelf is a front of records that only it
still has, behind which come records that both have, and among these are all live ones of the first
shelf. A write takes from the first shelf a prefix. What is left of the common records fits
already, so from the second shelf it takes a part of the front and at most the common records that
are in that prefix, which then count as front.
-/

set_option autoImplicit false

namespace BoundedResources

/-- The second run takes the turns of the first one, and some more that only remove what is
expired. -/
inductive SweptMore : List (Nat × StoreTurn) → List (Nat × StoreTurn) → Prop
  | nil : SweptMore [] []
  | both (t : Nat × StoreTurn) {turns swept : List (Nat × StoreTurn)}
      (rest : SweptMore turns swept) : SweptMore (t :: turns) (t :: swept)
  | more (t : Nat × StoreTurn) {turns swept : List (Nat × StoreTurn)}
      (removes : t.2.removesExpired = true) (rest : SweptMore turns swept) :
      SweptMore turns (t :: swept)

theorem Record.isLiveAt_mono {r : Record} {now later : Nat} (hle : now ≤ later)
    (h : r.isLiveAt later = true) : r.isLiveAt now = true := by
  unfold isLiveAt at h ⊢
  cases hd : r.deadline with
  | none => rfl
  | some d =>
    simp only [hd, Option.all_some, decide_eq_true_eq] at h ⊢
    omega

namespace Shelf

variable {budget now : Nat} {l l' : Shelf} {older shared : List Record}

/-! ## What a turn does -/

/-- Drops the oldest records until `size` more bytes fit the budget. -/
def evict (s : Shelf) (budget size : Nat) : Shelf :=
  { s with
    records := keep budget size s.records
    evictions := s.evictions + (s.records.length - (keep budget size s.records).length) }

/-- Puts a record at the end. -/
def push (s : Shelf) (r : Record) : Shelf := { s with records := s.records ++ [r] }

/-- Keeps the records that satisfy `p`. -/
def filter (s : Shelf) (p : Record → Bool) : Shelf := { s with records := s.records.filter p }

/-- A write drops the record of its key, evicts, and puts the new record at the end. -/
theorem write_eq (s : Shelf) (budget now : Nat) (key : String) (payload : ByteArray)
    (ttl : Option Duration) :
    s.write budget now key payload ttl =
      ((s.filter fun r => r.key ≠ key).evict budget payload.size).push
        ⟨key, payload, Entry.deadline now ttl⟩ :=
  rfl

/-- What can become of a shelf in one turn. -/
inductive Effect (budget now : Nat) : (Shelf → Shelf) → Prop
  | keep : Effect budget now id
  | write (key : String) (payload : ByteArray) (ttl : Option Duration)
      (fits : payload.size ≤ budget) :
      Effect budget now fun s => s.write budget now key payload ttl
  | filter (p : Record → Bool) : Effect budget now fun s => s.filter p
  | close : Effect budget now fun s => { s with closed := true }

/-- Some effect is what `f` does to all shelves that have the flag. -/
def Acts (budget now : Nat) (closed : Bool) (f : Shelf → Shelf) : Prop :=
  ∃ g, Effect budget now g ∧ ∀ s : Shelf, s.closed = closed → f s = g s

theorem acts_self (closed : Bool) {f : Shelf → Shelf} (h : ∀ s, f s = s) :
    Acts budget now closed f :=
  ⟨id, .keep, fun s _ => h s⟩

theorem acts_setRaw (budget now : Nat) (closed : Bool) (key : String) (payload : ByteArray)
    (ttl : Option Duration) :
    Acts budget now closed fun s => (s.setRaw budget now key payload ttl).2 := by
  by_cases hsize : budget < payload.size
  · exact acts_self closed fun s => by simp [setRaw, hsize]
  · cases closed with
    | true => exact ⟨id, .keep, fun s hs => by simp [setRaw, hsize, hs]⟩
    | false =>
      refine ⟨_, .write key payload ttl (Nat.le_of_not_lt hsize), fun s hs => ?_⟩
      simp [setRaw, hsize, hs]

theorem performOpened_delete (s : Shelf) (budget now : Nat) (key : String) :
    (s.performOpened budget now (.delete key)).2 = s.filter fun r => r.key ≠ key := by
  simp only [performOpened]
  split
  · rfl
  · rename_i hnone
    have hself : (s.records.filter fun r => r.key ≠ key) = s.records := by
      apply List.filter_eq_self.mpr
      intro r hr
      by_contra hkey
      exact hnone (List.any_eq_true.mpr ⟨r, hr, by simpa using hkey⟩)
    simp only [filter, hself]

theorem acts_performOpened (budget now : Nat) (closed : Bool) (op : Operation) :
    Acts budget now closed fun s => (s.performOpened budget now op).2 := by
  cases op with
  | set key encoded ttl =>
    cases encoded with
    | error fault => exact acts_self closed fun s => rfl
    | ok payload => exact acts_setRaw budget now closed key payload ttl
  | setRaw key payload ttl => exact acts_setRaw budget now closed key payload ttl
  | get key reader =>
    refine acts_self closed fun s => ?_
    simp only [performOpened]
    cases s.live? now key with
    | none => rfl
    | some r =>
      dsimp only
      cases Json.decode reader r.payload.data.toList <;> rfl
  | getRaw key | ttl key =>
    refine acts_self closed fun s => ?_
    simp only [performOpened]
    cases s.live? now key <;> rfl
  | «exists» key => exact acts_self closed fun s => rfl
  | delete key => exact ⟨_, .filter _, fun s _ => s.performOpened_delete budget now key⟩
  | clear => exact ⟨_, .filter fun _ => false, fun s _ => by simp [performOpened, filter]⟩
  | cleanup => exact ⟨_, .filter fun r => r.isLiveAt now, fun s _ => rfl⟩

/-- **What a turn does to a shelf depends on its flag alone.** -/
theorem acts_turn (budget now : Nat) (closed : Bool) (t : StoreTurn) :
    Acts budget now closed fun s => (s.turn budget now t).2 := by
  cases t with
  | perform op =>
    cases closed with
    | true => exact ⟨id, .keep, fun s hs => by simp [turn, perform, hs]⟩
    | false =>
      obtain ⟨g, hg, heq⟩ := acts_performOpened budget now false op
      refine ⟨g, hg, fun s hs => ?_⟩
      rw [← heq s hs]
      simp [turn, perform, hs]
  | performOpened op => exact acts_performOpened budget now closed op
  | purge => exact ⟨_, .filter fun r => r.isLiveAt now, fun s _ => rfl⟩
  | removeIfExpired key =>
    exact ⟨_, .filter fun r => r.key ≠ key || r.isLiveAt now, fun s _ => rfl⟩
  | markClosed => exact ⟨_, .close, fun s _ => rfl⟩
  | reset => exact ⟨_, .filter fun _ => false, fun s _ => by simp [turn, filter]⟩

/-- Background work keeps what is live. -/
theorem turn_of_removesExpired {t : StoreTurn} (ht : t.removesExpired = true) (budget now : Nat)
    (s : Shelf) :
    ∃ p : Record → Bool, (∀ r, r.isLiveAt now = true → p r = true) ∧
      (s.turn budget now t).2 = s.filter p := by
  cases t with
  | purge => exact ⟨_, fun r hr => hr, rfl⟩
  | removeIfExpired key =>
    exact ⟨fun r => r.key ≠ key || r.isLiveAt now, fun r hr => by simp [hr], rfl⟩
  | perform | performOpened | markClosed | reset => cases ht

/-! ## Room -/

theorem bytes_sublist {a b : List Record} (h : a.Sublist b) : bytes a ≤ bytes b :=
  (h.map _).sum_le_sum fun _ _ => Nat.zero_le _

/-- If a tail fits, nothing is dropped but a part of what is before it. -/
theorem keep_append {size : Nat} {tail : List Record} (h : bytes tail + size ≤ budget)
    (front : List Record) :
    ∃ n, n ≤ front.length ∧ keep budget size (front ++ tail) = front.drop n ++ tail := by
  have hsize : size ≤ budget := by omega
  obtain ⟨n, -, hkeep, -, hleast⟩ := keep_eq_drop hsize (front ++ tail)
  have hn : n ≤ front.length := by
    by_contra hlt
    have hroom := hleast front.length (by omega)
    rw [List.drop_left] at hroom
    omega
  exact ⟨n, hn, by rw [hkeep, List.drop_append_of_le_length hn]⟩

/-! ## The shelf that is swept more -/

/-- The second shelf is a front of `older` records and behind it some records of the first one,
which include all that are live. For each record in front the first shelf has evicted one more. -/
structure Outlasts (now : Nat) (l l' : Shelf) (older shared : List Record) : Prop where
  closed : l'.closed = l.closed
  records : l'.records = older ++ shared
  sublist : shared.Sublist l.records
  live : (shared.filter fun r => r.isLiveAt now) = l.liveRecords now
  evictions : l'.evictions + older.length ≤ l.evictions

namespace Outlasts

/-- What is live later is live now. -/
theorem later (h : Outlasts now l l' older shared) {time : Nat} (hle : now ≤ time) :
    Outlasts time l l' older shared := by
  refine ⟨h.closed, h.records, h.sublist, ?_, h.evictions⟩
  have hnarrow : ∀ a : List Record, (a.filter fun r => r.isLiveAt time) =
      (a.filter fun r => r.isLiveAt now).filter fun r => r.isLiveAt time := by
    intro a
    rw [List.filter_filter]
    apply List.filter_congr
    intro r _
    cases hlive : r.isLiveAt time with
    | true => simp [Record.isLiveAt_mono hle hlive]
    | false => rfl
  rw [liveRecords, hnarrow shared, hnarrow l.records]
  exact congrArg _ h.live

theorem filter (h : Outlasts now l l' older shared) (p : Record → Bool) :
    Outlasts now (l.filter p) (l'.filter p) (older.filter p) (shared.filter p) := by
  refine ⟨h.closed, ?_, h.sublist.filter p, ?_, ?_⟩
  · simp only [Shelf.filter, h.records, List.filter_append]
  · simp only [liveRecords, Shelf.filter]
    rw [List.filter_comm, h.live, liveRecords, List.filter_comm]
  · have hlength := List.length_filter_le p older
    have hcount := h.evictions
    show l'.evictions + (older.filter p).length ≤ l.evictions
    omega

/-- Only the second shelf is swept. -/
theorem sweep (h : Outlasts now l l' older shared) {p : Record → Bool}
    (hp : ∀ r, r.isLiveAt now = true → p r = true) :
    Outlasts now l (l'.filter p) (older.filter p) (shared.filter p) := by
  have hboth := h.filter p
  refine ⟨h.closed, hboth.records, List.filter_sublist.trans h.sublist, ?_, hboth.evictions⟩
  rw [List.filter_filter, ← h.live]
  apply List.filter_congr
  intro r _
  cases hlive : r.isLiveAt now with
  | true => simp [hp r hlive]
  | false => rfl

/-- The prefix that the first shelf loses splits the common records. Those in it go to the front of
the second shelf, of which it may then lose some, and those behind it stay. -/
theorem evict (h : Outlasts now l l' older shared) {size : Nat} (hsize : size ≤ budget) :
    ∃ older' shared', Outlasts now (l.evict budget size) (l'.evict budget size) older' shared' := by
  obtain ⟨n, hn, hkeep, hroom, -⟩ := keep_eq_drop hsize l.records
  have hsplit := h.sublist
  rw [← List.take_append_drop n l.records, List.sublist_append_iff] at hsplit
  obtain ⟨lost, kept, hshared, hlost, hkept⟩ := hsplit
  have hfits : bytes kept + size ≤ budget := by
    have := bytes_sublist hkept
    omega
  obtain ⟨m, hm, hkeep'⟩ := keep_append hfits (older ++ lost)
  have hrecords : l'.records = (older ++ lost) ++ kept := by
    rw [h.records, hshared, List.append_assoc]
  refine ⟨(older ++ lost).drop m, kept, h.closed, ?_, ?_, ?_, ?_⟩
  · rw [← hkeep', ← hrecords]
    rfl
  · simp only [Shelf.evict, hkeep]
    exact hkept
  · -- On both sides of the cut the live records of the two lists are equally many.
    have hlive := h.live
    rw [hshared, List.filter_append, liveRecords, ← List.take_append_drop n l.records,
      List.filter_append] at hlive
    have hbefore := (hlost.filter fun r => r.isLiveAt now).length_le
    have hlength := congrArg List.length hlive
    simp only [List.length_append] at hlength
    simp only [liveRecords, Shelf.evict, hkeep]
    exact (hkept.filter _).eq_of_length_le (by omega)
  · have hcount := h.evictions
    have hlength := hlost.length_le
    simp only [Shelf.evict, hkeep, hrecords, hkeep', List.length_append, List.length_drop,
      List.length_take] at hm hlength ⊢
    omega

theorem push (h : Outlasts now l l' older shared) (r : Record) :
    Outlasts now (l.push r) (l'.push r) older (shared ++ [r]) := by
  refine ⟨h.closed, ?_, h.sublist.append_right [r], ?_, h.evictions⟩
  · simp only [Shelf.push, h.records, List.append_assoc]
  · simp only [liveRecords, Shelf.push, List.filter_append]
    rw [h.live, liveRecords]

theorem effect (h : Outlasts now l l' older shared) {f : Shelf → Shelf}
    (hf : Effect budget now f) : ∃ older' shared', Outlasts now (f l) (f l') older' shared' := by
  cases hf with
  | keep => exact ⟨older, shared, h⟩
  | write key payload ttl fits =>
    obtain ⟨older', shared', hevict⟩ := (h.filter fun r => r.key ≠ key).evict fits
    simp only [write_eq]
    exact ⟨older', _, hevict.push _⟩
  | filter p => exact ⟨_, _, h.filter p⟩
  | close => exact ⟨older, shared, rfl, h.records, h.sublist, h.live, h.evictions⟩

theorem turn (h : Outlasts now l l' older shared) (budget : Nat) (t : StoreTurn) :
    ∃ older' shared',
      Outlasts now (l.turn budget now t).2 (l'.turn budget now t).2 older' shared' := by
  obtain ⟨f, hf, hacts⟩ := acts_turn budget now l.closed t
  have hacted := h.effect hf
  rwa [← hacts l rfl, ← hacts l' h.closed] at hacted

/-- **The shelf that is swept more outlasts the other one.** The induction is on how the two runs
are woven; the clock is that of the turn before. -/
theorem run {turns swept : List (Nat × StoreTurn)} (hswept : SweptMore turns swept)
    (h : Outlasts now l l' older shared) (budget : Nat) {last : Nat} (hlast : now ≤ last)
    (hsorted : swept.Pairwise (·.1 ≤ ·.1)) (hfrom : ∀ t ∈ swept, now ≤ t.1 ∧ t.1 ≤ last) :
    ∃ older' shared', Outlasts last (l.run budget turns) (l'.run budget swept) older' shared' := by
  induction hswept generalizing now l l' older shared with
  | nil => exact ⟨older, shared, h.later hlast⟩
  | both t _ ih =>
    obtain ⟨⟨hnow, hle⟩, hfrom⟩ := List.forall_mem_cons.mp hfrom
    obtain ⟨hfirst, hsorted⟩ := List.pairwise_cons.mp hsorted
    obtain ⟨_, _, hturn⟩ := (h.later hnow).turn budget t.2
    exact ih hturn hle hsorted fun t' ht' => ⟨hfirst t' ht', (hfrom t' ht').2⟩
  | more t hremoves _ ih =>
    obtain ⟨⟨hnow, hle⟩, hfrom⟩ := List.forall_mem_cons.mp hfrom
    obtain ⟨hfirst, hsorted⟩ := List.pairwise_cons.mp hsorted
    obtain ⟨p, hp, hturn⟩ := turn_of_removesExpired hremoves budget t.1 l'
    have hsweep := (h.later hnow).sweep hp
    rw [← hturn] at hsweep
    exact ih hsweep hle hsorted fun t' ht' => ⟨hfirst t' ht', (hfrom t' ht').2⟩

theorem mem_of_live (h : Outlasts now l l' older shared) {r : Record} (hr : r ∈ l.records)
    (hlive : r.isLiveAt now = true) : r ∈ l'.records := by
  have hmem : r ∈ l.liveRecords now := List.mem_filter.mpr ⟨hr, hlive⟩
  rw [← h.live] at hmem
  rw [h.records]
  exact List.mem_append_right older (List.mem_of_mem_filter hmem)

end Outlasts

end Shelf

namespace Store

theorem live?_eq_some_iff (s : Store) (now : Nat) (key : String) (e : Entry) :
    s.contents.live? now key = some e ↔
      s.contents.entries.get? key = some e ∧ e.isExpiredAt now = false := by
  simp [Contents.live?, Option.filter_eq_some_iff]

/-- **Removing what is expired more often costs no live entry and saves evictions.**

Two empty stores with the same budget are given the same turns by a clock that does not run back,
the second one with any number of purges and removals of single expired keys in between. Then at
any reading of the clock from the last turn on, what is live in the first store is stored in the
second one with the same payload and the same deadline, and the second store has evicted no more
than the first. As the runs are arbitrary, this holds at every point of them. -/
theorem live_of_swept_run {turns swept : List (Nat × StoreTurn)} (budget : Nat) {now : Nat}
    (hswept : SweptMore turns swept) (hsorted : swept.Pairwise (·.1 ≤ ·.1))
    (hpast : ∀ t ∈ swept, t.1 ≤ now) :
    let a := (empty budget).run turns
    let b := (empty budget).run swept
    (∀ key e, a.contents.live? now key = some e →
      ∃ e', b.contents.live? now key = some e' ∧ e'.payload = e.payload ∧
        e'.expiresAt = e.expiresAt) ∧
    b.tally.evictions ≤ a.tally.evictions := by
  intro a b
  have hempty : Sound budget (empty budget) := sound_run budget []
  obtain ⟨-, ha⟩ := Shows.run hempty (l := Shelf.empty) ⟨rfl, rfl, rfl⟩ turns
  obtain ⟨-, hb⟩ := Shows.run hempty (l := Shelf.empty) ⟨rfl, rfl, rfl⟩ swept
  have hstart : Shelf.Outlasts 0 .empty .empty [] [] := ⟨rfl, rfl, .slnil, rfl, Nat.le_refl 0⟩
  obtain ⟨older, shared, hrun⟩ := Shelf.Outlasts.run hswept hstart budget (Nat.zero_le now) hsorted
    fun t ht => ⟨Nat.zero_le t.1, hpast t ht⟩
  constructor
  · intro key e hlive
    obtain ⟨he, hexpired⟩ := (live?_eq_some_iff a now key e).mp hlive
    have hmem : Contents.toRecord key e ∈ a.contents.records :=
      (sound_run budget turns).coherent.mem_records.mpr ⟨e, he, rfl⟩
    rw [ha.records] at hmem
    have hmem' := hrun.mem_of_live hmem (by rw [Contents.isLiveAt_toRecord, hexpired]; rfl)
    rw [← hb.records, (sound_run budget swept).coherent.mem_records] at hmem'
    obtain ⟨e', he', hrecord⟩ := hmem'
    simp only [Contents.toRecord, Record.mk.injEq, true_and] at hrecord
    refine ⟨e', (live?_eq_some_iff b now key e').mpr ⟨he', ?_⟩, hrecord.1.symm, hrecord.2.symm⟩
    rw [← hexpired, Entry.isExpiredAt, Entry.isExpiredAt, hrecord.2]
  · rw [ha.evictions, hb.evictions]
    exact Nat.le_trans (Nat.le_add_right _ _) hrun.evictions

/-- Two bytes for three entries, of which the second has expired when the third is written. Without
a purge before that the first entry is evicted. -/
theorem live_of_swept_run_third_write :
    let first := (0, StoreTurn.perform (.setRaw "b" ⟨#[1]⟩ none))
    let second := (0, StoreTurn.perform (.setRaw "a" ⟨#[2]⟩ (some (.ofMillis 1))))
    let third := (5, StoreTurn.perform (.setRaw "c" ⟨#[3]⟩ none))
    let a := (empty 2).run [first, second, third]
    let b := (empty 2).run [first, second, (5, .purge), third]
    a.tally.evictions = 1 ∧ b.tally.evictions = 0 ∧
      a.contents.live? 5 "b" = none ∧ (b.contents.live? 5 "b").isSome = true ∧
      ∃ e, a.contents.live? 5 "c" = some e ∧
        ∃ e', b.contents.live? 5 "c" = some e' ∧ e'.payload = e.payload := by
  intro first second third a b
  have hswept : SweptMore [first, second, third] [first, second, (5, .purge), third] :=
    .both _ (.both _ (.more _ rfl (.both _ .nil)))
  have hpast : ∀ t ∈ [first, second, (5, .purge), third], t.1 ≤ 5 := by decide
  obtain ⟨hlive, -⟩ := live_of_swept_run 2 hswept (by decide) hpast
  refine ⟨rfl, rfl, rfl, rfl, _, rfl, ?_⟩
  obtain ⟨e', he', hpayload, -⟩ := hlive "c" _ rfl
  exact ⟨e', he', hpayload⟩

end Store

end BoundedResources
