import Mathlib.Data.List.Perm.Basic
import BoundedResources.Proofs.Cache.Coherence

/-!
# The background work can be done in any order

What is expired is removed in two ways. A tick of the sweeper removes all of it, and in between the
keys are looked at again that reads have met expired. When several of these are due, nobody says
which is to come first, a key may be pending more than once, and it may have been written again or
have been swept away since it was flagged.

None of this matters (**`Store.removals_in_any_order`**). Each of the two takes away a part of the
entries that is settled by what they look like at that reading of the clock, and counts it
(`Store.expire`); taking away one part and then another is the same as taking away both at once
(`Store.expire_expire`), since what has gone is not there to be counted a second time. So the store
that is left depends on which entries somebody has looked at, and on nothing else.
-/

set_option autoImplicit false

namespace BoundedResources

namespace Contents

variable {c : Contents} {gone gone' : String → Entry → Bool}

/-! ## Contents without some of their entries -/

/-- The contents without some entries. -/
def without (c : Contents) (gone : String → Entry → Bool) : Contents where
  entries := c.entries.filter fun p => !gone p.1 p.2
  order :=
    { c.order with
      writes := c.order.writes.filter fun w => !(c.entries.get? w.2).any (gone w.2) }
  bytes := totalSize (c.entries.filter fun p => !gone p.1 p.2)

/-- Only what is said of entries that are stored matters. -/
theorem without_congr (hd : c.entries.DistinctKeys)
    (h : ∀ key e, c.entries.get? key = some e → gone key e = gone' key e) :
    c.without gone = c.without gone' := by
  have hentries : (c.entries.filter fun p => !gone p.1 p.2) =
      c.entries.filter fun p => !gone' p.1 p.2 :=
    List.filter_congr fun p hp => by rw [h p.1 p.2 (Table.get?_of_mem hd hp)]
  have hwrites : (c.order.writes.filter fun w => !(c.entries.get? w.2).any (gone w.2)) =
      c.order.writes.filter fun w => !(c.entries.get? w.2).any (gone' w.2) := by
    refine List.filter_congr fun w _ => ?_
    cases he : c.entries.get? w.2 with
    | none => rfl
    | some e => rw [Option.any_some, Option.any_some, h w.2 e he]
  rw [without, without, hentries, hwrites]

theorem Coherent.without_eq_self (h : c.Coherent)
    (hstays : ∀ key e, c.entries.get? key = some e → gone key e = false) :
    c.without gone = c := by
  have hentries : (c.entries.filter fun p => !gone p.1 p.2) = c.entries :=
    List.filter_eq_self.mpr fun p hp => by rw [hstays p.1 p.2 (Table.get?_of_mem h.distinct hp)]; rfl
  have hwrites : (c.order.writes.filter fun w => !(c.entries.get? w.2).any (gone w.2)) =
      c.order.writes := by
    refine List.filter_eq_self.mpr fun w _ => ?_
    cases he : c.entries.get? w.2 with
    | none => rfl
    | some e => rw [Option.any_some, hstays w.2 e he]; rfl
  rw [without, hentries, hwrites, ← h.total]

theorem get?_without (hd : c.entries.DistinctKeys) (key : String) :
    (c.without gone).entries.get? key = (c.entries.get? key).filter fun e => !gone key e :=
  Table.get?_filter hd _ key

/-- **Entries that are taken away in two goes can be taken away at once.** -/
theorem without_without (hd : c.entries.DistinctKeys) :
    (c.without gone).without gone' = c.without fun key e => gone key e || gone' key e := by
  have hentries : ((c.without gone).entries.filter fun p => !gone' p.1 p.2) =
      c.entries.filter fun p => !(gone p.1 p.2 || gone' p.1 p.2) := by
    rw [without, List.filter_filter]
    exact List.filter_congr fun p _ => by rw [Bool.not_or, Bool.and_comm]
  have hwrites :
      ((c.without gone).order.writes.filter fun w =>
        !((c.without gone).entries.get? w.2).any (gone' w.2)) =
      c.order.writes.filter fun w =>
        !(c.entries.get? w.2).any fun e => gone w.2 e || gone' w.2 e := by
    rw [without, List.filter_filter]
    refine List.filter_congr fun w _ => ?_
    rw [show Table.get? (c.entries.filter fun p => !gone p.1 p.2) w.2 = _ from get?_without hd w.2]
    cases c.entries.get? w.2 with
    | none => rfl
    | some e => cases hgone : gone w.2 e <;> simp [Option.filter, hgone]
  rw [without, hentries, hwrites]
  rfl

theorem Coherent.remove_eq_without (h : c.Coherent) (key : String) :
    (c.remove key).2 = c.without fun k _ => k = key := by
  cases he : c.entries.get? key with
  | none =>
    rw [remove_of_none he]
    refine (h.without_eq_self fun k e hk => ?_).symm
    rw [decide_eq_false_iff_not]
    rintro rfl
    rw [he] at hk
    cases hk
  | some e =>
    have hentries : c.entries.erase key = c.entries.filter fun p => !decide (p.1 = key) := by
      rw [Table.erase_eq_filter]
      exact List.filter_congr fun p _ => decide_not
    have hwrites : c.order.writes.filter (·.1 ≠ e.seq) =
        c.order.writes.filter fun w => !(c.entries.get? w.2).any fun _ => w.2 = key := by
      refine List.filter_congr fun w hw => ?_
      obtain ⟨a, ha, -⟩ := (h.indexed w.1 w.2).mp hw
      rw [ha, Option.any_some, ← decide_not]
      exact decide_eq_decide.mpr (not_congr (h.seq_eq_iff he hw))
    have hbytes : c.bytes - e.size = totalSize (c.entries.erase key) := by
      have := totalSize_erase h.distinct he
      have := h.total
      omega
    rw [remove_of_some he, without, WriteOrder.remove, hbytes, hentries, hwrites]

theorem Coherent.removeAll_eq_without (h : c.Coherent) (keys : List String) :
    keys.foldl (fun c key => (c.remove key).2) c = c.without fun key _ => key ∈ keys := by
  induction keys generalizing c with
  | nil => exact (h.without_eq_self fun _ _ _ => by simp).symm
  | cons key rest ih =>
    rw [List.foldl_cons, ih (h.remove key), h.remove_eq_without, without_without h.distinct]
    exact without_congr h.distinct fun k e _ => by simp

/-- **A purge takes away what is expired**, and tells how many entries that is. -/
theorem Coherent.purge_eq_without (h : c.Coherent) (now : Nat) :
    c.purge now =
      (c.entries.countP fun p => p.2.isExpiredAt now, c.without fun _ e => e.isExpiredAt now) := by
  have hkeys : (c.without fun key _ => key ∈ c.expiredKeys now) =
      c.without fun _ e => e.isExpiredAt now := by
    refine without_congr h.distinct fun key e he => ?_
    rw [Bool.eq_iff_iff, decide_eq_true_eq, mem_expiredKeys_iff h.distinct]
    simp [he]
  rw [purge, h.removeAll_eq_without, hkeys, expiredKeys, List.length_map,
    List.countP_eq_length_filter]

/-- Of the entries under a key there is one at most. -/
theorem countP_key {t : Table Entry} (hd : t.DistinctKeys) {key : String} {e : Entry}
    (he : t.get? key = some e) : (t.countP fun p => p.1 = key) = 1 := by
  have hlength := Table.length_erase hd he
  have hsplit := t.length_eq_countP_add_countP fun p => p.1 = key
  rw [Table.erase_eq_filter, ← List.countP_eq_length_filter] at hlength
  simp only [decide_not, decide_eq_true_eq] at hlength hsplit
  omega

end Contents

namespace Store

variable {s : Store} {budget now : Nat} {gone gone' : String → Entry → Bool}

/-! ## Expired entries go -/

/-- The store without some entries, each of which is counted as expired. -/
def expire (s : Store) (gone : String → Entry → Bool) : Store :=
  { s with
    contents := s.contents.without gone
    tally := s.tally.expired (s.contents.entries.countP fun p => gone p.1 p.2) }

theorem expire_congr (hd : s.contents.entries.DistinctKeys)
    (h : ∀ key e, s.contents.entries.get? key = some e → gone key e = gone' key e) :
    s.expire gone = s.expire gone' := by
  have hcount : (s.contents.entries.countP fun p => gone p.1 p.2) =
      s.contents.entries.countP fun p => gone' p.1 p.2 :=
    List.countP_congr fun p hp => by rw [h p.1 p.2 (Table.get?_of_mem hd hp)]
  rw [expire, expire, Contents.without_congr hd h, hcount]

theorem expire_eq_self (hs : s.Sound budget)
    (hstays : ∀ key e, s.contents.entries.get? key = some e → gone key e = false) :
    s.expire gone = s := by
  have hcount : (s.contents.entries.countP fun p => gone p.1 p.2) = 0 :=
    List.countP_eq_zero.mpr fun p hp => by
      rw [hstays p.1 p.2 (Table.get?_of_mem hs.coherent.distinct hp)]
      exact Bool.false_ne_true
  rw [expire, hs.coherent.without_eq_self hstays, hcount]
  rfl

/-- **What has gone is not counted again.** -/
theorem expire_expire (hd : s.contents.entries.DistinctKeys) :
    (s.expire gone).expire gone' = s.expire fun key e => gone key e || gone' key e := by
  have hcount :
      (s.contents.entries.countP fun p => gone p.1 p.2) +
        ((s.contents.entries.filter fun p => !gone p.1 p.2).countP fun p => gone' p.1 p.2) =
      s.contents.entries.countP fun p => gone p.1 p.2 || gone' p.1 p.2 := by
    rw [List.countP_eq_countP_filter_add s.contents.entries
      (fun p => gone p.1 p.2 || gone' p.1 p.2) fun p => gone p.1 p.2, List.countP_filter,
      List.countP_filter, List.countP_filter]
    congr 1
    · exact List.countP_congr fun p _ => by cases gone p.1 p.2 <;> simp
    · exact List.countP_congr fun p _ => by cases gone p.1 p.2 <;> simp
  rw [expire, expire, expire, Contents.without_without hd, ← hcount]
  simp only [CacheTally.expired, Contents.without, Nat.add_assoc]

theorem expirations_add_size_expire (s : Store) (gone : String → Entry → Bool) :
    (s.expire gone).tally.expirations + (s.expire gone).size = s.tally.expirations + s.size := by
  have hsplit := s.contents.entries.length_eq_countP_add_countP fun p => gone p.1 p.2
  simp only [expire, size, Contents.without, CacheTally.expired, ← List.countP_eq_length_filter]
  simp only [Bool.not_eq_true, Bool.decide_eq_false] at hsplit
  omega

theorem purge_eq_expire (hs : s.Sound budget) (now : Nat) :
    (s.purge now).2 = s.expire fun _ e => e.isExpiredAt now := by
  rw [purge, hs.coherent.purge_eq_without now]
  rfl

theorem removeIfExpired_eq_expire (hs : s.Sound budget) (now : Nat) (key : String) :
    s.removeIfExpired now key = s.expire fun k e => e.isExpiredAt now && k = key := by
  have hd := hs.coherent.distinct
  unfold removeIfExpired
  cases he : s.contents.entries.get? key with
  | none =>
    refine (expire_eq_self hs fun k e hk => ?_).symm
    have hne : k ≠ key := by
      rintro rfl
      rw [he] at hk
      cases hk
    simp [hne]
  | some e =>
    -- the key decides, since its entry is the only one that is looked at
    have hkey : ∀ k e', s.contents.entries.get? k = some e' →
        (e'.isExpiredAt now && decide (k = key)) = (e.isExpiredAt now && decide (k = key)) := by
      intro k e' hk
      by_cases heq : k = key
      · subst heq
        rw [he, Option.some.injEq] at hk
        rw [hk]
      · simp [heq]
    rw [expire_congr hd hkey]
    dsimp only
    cases e.isExpiredAt now with
    | false => exact (expire_eq_self hs fun _ _ _ => rfl).symm
    | true =>
      rw [if_pos rfl, hs.coherent.remove_eq_without]
      simp only [expire, Bool.true_and, Contents.countP_key hd he]

end Store

/-! ## Chores -/

/-- Whether a turn of the background work looks at the entry of a key. -/
def StoreTurn.looksAt (key : String) : StoreTurn → Bool
  | .purge => true
  | .removeIfExpired k => key = k
  | .perform _ | .performOpened _ | .markClosed | .reset => false

namespace Store

variable {s : Store} {budget : Nat}

theorem turn_eq_expire (hs : s.Sound budget) (now : Nat) {t : StoreTurn}
    (ht : t.removesExpired = true) :
    (s.turn now t).2 = s.expire fun key e => e.isExpiredAt now && t.looksAt key := by
  cases t with
  | purge =>
    refine (purge_eq_expire hs now).trans (expire_congr hs.coherent.distinct fun key e _ => ?_)
    exact (Bool.and_true _).symm
  | removeIfExpired key => exact removeIfExpired_eq_expire hs now key
  | perform | performOpened | markClosed | reset => cases ht

/-- **Background work takes away what is expired of that which it has looked at.** -/
theorem run_eq_expire (hs : s.Sound budget) (now : Nat) {chores : List StoreTurn}
    (hchores : ∀ t ∈ chores, t.removesExpired = true) :
    s.run (chores.map fun t => (now, t)) =
      s.expire fun key e => e.isExpiredAt now && chores.any (·.looksAt key) := by
  induction chores generalizing s with
  | nil => exact (expire_eq_self hs fun key e _ => by simp).symm
  | cons t rest ih =>
    obtain ⟨hfirst, hrest⟩ := List.forall_mem_cons.mp hchores
    have hturn := turn_eq_expire hs now hfirst
    show (s.turn now t).2.run (rest.map fun t => (now, t)) = _
    rw [ih (hs.turn now t) hrest, hturn, expire_expire hs.coherent.distinct]
    refine expire_congr hs.coherent.distinct fun key e _ => ?_
    rw [List.any_cons, Bool.and_or_distrib_left]

end Store

theorem any_looksAt_pendingChores (flagged : List String) (ticks : Nat) (key : String) :
    (pendingChores flagged ticks).any (·.looksAt key) =
      (decide (ticks ≠ 0) || decide (key ∈ flagged)) := by
  rw [Bool.eq_iff_iff]
  simp [pendingChores, StoreTurn.looksAt, or_comm]

namespace Store

/-! ## Any order -/

/-- **The background work that is pending can be done in any order.**

After any turns some keys are to be looked at again, each of them any number of times and stored or
not, and some ticks of the sweeper are due. In whatever order this is done at one reading of the
clock, the same store is left, to the last sequence number, and it is what a cache comes to. The
entries that are gone are the expired ones that somebody has looked at, and each of them was counted
once. -/
theorem removals_in_any_order (budget : Nat) (turns : List (Nat × StoreTurn)) (now : Nat)
    (flagged : List String) (ticks : Nat) :
    let s := (empty budget).run turns
    let gone : String → Entry → Bool := fun key e =>
      e.isExpiredAt now && (decide (ticks ≠ 0) || decide (key ∈ flagged))
    let left := s.expire gone
    (∀ order : List StoreTurn, order.Perm (pendingChores flagged ticks) →
      s.run (order.map fun t => (now, t)) = left) ∧
    (∀ (c : Cache) (clock : Clock) (ticker : Ticker), c.store = s → c.flagged = flagged →
      c.sweeper = some ticker → clock.wallMillis = now →
      (ticker.catchUp clock.elapsed).1 = ticks → (c.settle clock).store = left) ∧
    (∀ key, left.contents.entries.get? key =
      (s.contents.entries.get? key).filter fun e => !gone key e) ∧
    left.tally.expirations + left.size = s.tally.expirations + s.size := by
  intro s gone left
  have hs : s.Sound budget := sound_run budget turns
  have hany (order : List StoreTurn) (horder : order.Perm (pendingChores flagged ticks)) :
      s.run (order.map fun t => (now, t)) = left := by
    have hchores : ∀ t ∈ order, t.removesExpired = true := fun t ht =>
      removesExpired_of_mem_pendingChores (horder.mem_iff.mp ht)
    rw [run_eq_expire hs now hchores]
    refine expire_congr hs.coherent.distinct fun key e _ => ?_
    rw [horder.any_eq, any_looksAt_pendingChores]
  refine ⟨hany, ?_, Contents.get?_without hs.coherent.distinct, expirations_add_size_expire s gone⟩
  rintro c clock ticker hstore rfl hsweeper rfl rfl
  rw [c.settle_eq_run clock hsweeper, hstore]
  exact hany _ (.refl _)

/-- Three entries, two of which have expired. A read has met one of these twice, another one has met
the third entry before it was written again, and one key was never stored; the tick that is due
comes in between. -/
theorem removals_in_any_order_tick_between :
    let turns := [(0, StoreTurn.perform (.setRaw "a" ⟨#[1]⟩ (some (.ofMillis 5)))),
      (0, .perform (.setRaw "b" ⟨#[2]⟩ (some (.ofMillis 5)))),
      (0, .perform (.setRaw "c" ⟨#[3]⟩ none))]
    let s := (empty 1024).run turns
    let flagged := ["c", "a", "none", "a"]
    let order := [.removeIfExpired "a", .removeIfExpired "c", .purge, .removeIfExpired "none",
      .removeIfExpired "a"]
    order.Perm (pendingChores flagged 1) ∧
      s.run (order.map fun t => (9, t)) =
        s.run ((pendingChores flagged 1).map fun t => (9, t)) ∧
      (s.run (order.map fun t => (9, t))).tally.expirations = 2 ∧
      (s.run (order.map fun t => (9, t))).size = 1 := by
  intro turns s flagged order
  have horder : order.Perm (pendingChores flagged 1) :=
    (List.Perm.swap _ _ _).trans (((List.perm_append_singleton _ [_, _]).symm.cons _).cons _)
  obtain ⟨hany, -⟩ := removals_in_any_order 1024 turns 9 flagged 1
  exact ⟨horder, (hany order horder).trans (hany _ (.refl _)).symm, rfl, rfl⟩

end Store

end BoundedResources
