import Mathlib.Data.List.Nodup
import BoundedResources.Proofs.Cache.Turns

/-!
# The contents of a store agree

A store says three times what it holds: by key, by the order of writes and as a sum of sizes.
`Contents.Coherent` is the agreement of the three, and **`Store.contents_agree`** says that it
holds after every run of turns, within the budget. No turn unfolds another's work here: what a turn
can do to the contents is listed once (`Contents.Change`, `Store.change_turn`), and each entry of
that list keeps the agreement for a reason of its own.

Two consequences are about the loops rather than about the states between them. Whichever keys
are taken out one after the other, each subtraction is covered by the sum (`RemovesCleanly`);
and the eviction loop finds an entry for each write that it pops and stops because the payload
fits, not because it has run out of writes (`EvictsCleanly`).
-/

set_option autoImplicit false

namespace BoundedResources

namespace Contents

/-- The entries, the order and the sum of a store agree. -/
structure Coherent (c : Contents) : Prop where
  /-- A key has one entry. -/
  distinct : c.entries.DistinctKeys
  /-- The order is by sequence numbers, each of which occurs once … -/
  ascending : c.order.writes.Pairwise (·.1 < ·.1)
  /-- … and was drawn before. -/
  below : ∀ seq key, (seq, key) ∈ c.order.writes → seq < c.order.next
  /-- The writes of the order are those of the entries. -/
  indexed : ∀ seq key,
    (seq, key) ∈ c.order.writes ↔ ∃ e, c.entries.get? key = some e ∧ e.seq = seq
  /-- An entry is charged for its payload. -/
  charged : ∀ key e, c.entries.get? key = some e → e.size = e.payload.size
  /-- The sum is over all entries, expired or not. -/
  total : c.bytes = totalSize c.entries

/-- The sum covers every subtraction when the entries of some keys are taken out in turn. -/
def RemovesCleanly : List String → Contents → Prop
  | [], _ => True
  | key :: rest, c =>
    (∀ e, c.entries.get? key = some e → e.size ≤ c.bytes) ∧ RemovesCleanly rest (c.remove key).2

/-- The eviction loop pops only writes whose key has an entry, the sum covers that entry, and
the loop ends with `size` more bytes fitting the budget. -/
def EvictsCleanly (budget size : Nat) : List (Nat × String) → Table Entry → Nat → Prop
  | [], _, bytes => bytes + size ≤ budget
  | (_, key) :: rest, entries, bytes =>
    bytes + size ≤ budget ∨
      ∃ e, entries.get? key = some e ∧ e.size ≤ bytes ∧
        EvictsCleanly budget size rest (entries.erase key) (bytes - e.size)

/-! ## Sums of sizes -/

theorem totalSize_erase {t : Table Entry} (hd : t.DistinctKeys) {key : String} {e : Entry}
    (h : t.get? key = some e) : totalSize (t.erase key) + e.size = totalSize t := by
  induction t with
  | nil => simp at h
  | cons p rest ih =>
    obtain ⟨k, a⟩ := p
    obtain ⟨hk, hrest⟩ := List.nodup_cons.mp hd
    rw [Table.get?_cons] at h
    by_cases hkey : k = key
    · subst hkey
      simp only [if_pos, Option.some.injEq] at h
      subst h
      have hnone : Table.get? rest k = none := Table.get?_eq_none_iff.mpr hk
      simp only [Table.erase, if_pos, Table.erase_eq_self hnone, totalSize]
      omega
    · rw [if_neg hkey] at h
      have := ih hrest h
      simp only [Table.erase, if_neg hkey, totalSize]
      omega

theorem totalSize_insert {t : Table Entry} {key : String} (h : t.get? key = none) (e : Entry) :
    totalSize (t.insert key e) = e.size + totalSize t := by
  simp only [Table.insert, totalSize, Table.erase_eq_self h]

/-! ## Taking entries out -/

theorem remove_of_none {c : Contents} {key : String} (h : c.entries.get? key = none) :
    c.remove key = (none, c) := by
  simp only [remove, h]

theorem remove_of_some {c : Contents} {key : String} {e : Entry}
    (h : c.entries.get? key = some e) :
    c.remove key =
      (some e, ⟨c.entries.erase key, (c.order.remove e.seq).2, c.bytes - e.size⟩) := by
  simp only [remove, h]

theorem get?_remove (c : Contents) (key other : String) :
    (c.remove key).2.entries.get? other =
      if other = key then none else c.entries.get? other := by
  cases he : c.entries.get? key with
  | none =>
    rw [remove_of_none he]
    split
    · rename_i hkey
      rw [hkey, he]
    · rfl
  | some e => rw [remove_of_some he, Table.get?_erase]

theorem get?_remove_self (c : Contents) (key : String) :
    (c.remove key).2.entries.get? key = none := by
  rw [get?_remove, if_pos rfl]

theorem get?_removeAll (keys : List String) (c : Contents) (other : String) :
    (keys.foldl (fun c key => (c.remove key).2) c).entries.get? other =
      if other ∈ keys then none else c.entries.get? other := by
  induction keys generalizing c with
  | nil => simp
  | cons key rest ih =>
    rw [List.foldl_cons, ih, get?_remove]
    by_cases hrest : other ∈ rest
    · simp [hrest]
    · simp [hrest]

theorem mem_expiredKeys_iff {c : Contents} (hd : c.entries.DistinctKeys) (now : Nat)
    (key : String) :
    key ∈ c.expiredKeys now ↔ ∃ e, c.entries.get? key = some e ∧ e.isExpiredAt now = true := by
  simp only [expiredKeys, List.mem_map, List.mem_filter]
  constructor
  · rintro ⟨p, ⟨hp, hexpired⟩, rfl⟩
    exact ⟨p.2, Table.get?_of_mem hd hp, hexpired⟩
  · rintro ⟨e, he, hexpired⟩
    exact ⟨(key, e), ⟨Table.mem_of_get? he, hexpired⟩, rfl⟩

theorem Coherent.size_le {c : Contents} (h : c.Coherent) {key : String} {e : Entry}
    (he : c.entries.get? key = some e) : e.size ≤ c.bytes := by
  have := totalSize_erase h.distinct he
  rw [h.total]
  omega

/-- Two keys never share a sequence number. -/
theorem Coherent.key_unique {c : Contents} (h : c.Coherent) {seq : Nat} {k k' : String}
    (hk : (seq, k) ∈ c.order.writes) (hk' : (seq, k') ∈ c.order.writes) : k = k' := by
  have hnodup : (c.order.writes.map Prod.fst).Nodup :=
    (List.pairwise_map.mpr h.ascending).imp fun hlt => Nat.ne_of_lt hlt
  have := List.inj_on_of_nodup_map hnodup hk hk' rfl
  exact congrArg Prod.snd this

/-- The write of an entry is the only one with its sequence number, and the only one of its key. -/
theorem Coherent.seq_eq_iff {c : Contents} (h : c.Coherent) {key : String}
    {e : Entry} (he : c.entries.get? key = some e) {w : Nat × String} (hw : w ∈ c.order.writes) :
    w.1 = e.seq ↔ w.2 = key := by
  constructor
  · intro hseq
    have hmem : (e.seq, key) ∈ c.order.writes := (h.indexed _ _).mpr ⟨e, he, rfl⟩
    have hw' : (e.seq, w.2) ∈ c.order.writes := hseq ▸ hw
    exact h.key_unique hw' hmem
  · intro hkey
    obtain ⟨a, ha, hseq⟩ := (h.indexed w.1 w.2).mp hw
    rw [hkey, he, Option.some.injEq] at ha
    rw [← hseq, ← ha]

theorem Coherent.remove {c : Contents} (h : c.Coherent) (key : String) :
    (c.remove key).2.Coherent := by
  cases he : c.entries.get? key with
  | none => rw [remove_of_none he]; exact h
  | some e =>
    rw [remove_of_some he]
    refine ⟨h.distinct.erase key, h.ascending.filter _, ?_, ?_, ?_, ?_⟩
    · intro seq k hw
      exact h.below seq k (List.mem_of_mem_filter hw)
    · intro seq k
      simp only [WriteOrder.remove, List.mem_filter, decide_eq_true_eq, Table.get?_erase]
      constructor
      · rintro ⟨hw, hne⟩
        obtain ⟨a, ha, rfl⟩ := (h.indexed seq k).mp hw
        have hk : k ≠ key := fun hk => hne ((h.seq_eq_iff he hw).mpr hk)
        exact ⟨a, by rw [if_neg hk, ha], rfl⟩
      · rintro ⟨a, ha, rfl⟩
        by_cases hk : k = key
        · rw [if_pos hk] at ha
          exact absurd ha (by simp)
        · rw [if_neg hk] at ha
          have hw : (a.seq, k) ∈ c.order.writes := (h.indexed _ _).mpr ⟨a, ha, rfl⟩
          exact ⟨hw, fun hs => hk ((h.seq_eq_iff he hw).mp hs)⟩
    · intro k a ha
      rw [Table.get?_erase] at ha
      by_cases hk : k = key
      · rw [if_pos hk] at ha
        exact absurd ha (by simp)
      · rw [if_neg hk] at ha
        exact h.charged k a ha
    · have := totalSize_erase h.distinct he
      have := h.total
      show c.bytes - e.size = totalSize (c.entries.erase key)
      omega

theorem Coherent.removesCleanly {c : Contents} (h : c.Coherent) (keys : List String) :
    RemovesCleanly keys c := by
  induction keys generalizing c with
  | nil => trivial
  | cons key rest ih => exact ⟨fun e he => h.size_le he, ih (h.remove key)⟩

theorem Coherent.removeAll {c : Contents} (h : c.Coherent) (keys : List String) :
    (keys.foldl (fun c key => (c.remove key).2) c).Coherent := by
  induction keys generalizing c with
  | nil => exact h
  | cons key rest ih => exact ih (h.remove key)

/-! ## Evicting

The loop of `evictUntilFits` walks down the order of writes. What it does with the oldest one is
what `remove` does with that write's key (`Coherent.remove_oldest`), so the agreement carries over
from above. -/

theorem Coherent.remove_oldest {c : Contents} (h : c.Coherent) {seq : Nat} {key : String}
    {rest : List (Nat × String)} (hw : c.order.writes = (seq, key) :: rest) :
    ∃ e, c.entries.get? key = some e ∧
      (c.remove key).2 = ⟨c.entries.erase key, ⟨rest, c.order.next⟩, c.bytes - e.size⟩ := by
  have hmem : (seq, key) ∈ c.order.writes := by rw [hw]; exact List.mem_cons_self
  obtain ⟨e, he, hseq⟩ := (h.indexed seq key).mp hmem
  refine ⟨e, he, ?_⟩
  have hfilter : c.order.writes.filter (·.1 ≠ e.seq) = rest := by
    have hlater : ∀ w ∈ rest, seq < w.1 := by
      have hasc := h.ascending
      rw [hw] at hasc
      exact (List.pairwise_cons.mp hasc).1
    rw [hw, hseq, List.filter_cons_of_neg (by simp), List.filter_eq_self]
    intro w hwr
    have := hlater w hwr
    simp only [decide_eq_true_eq]
    omega
  rw [remove_of_some he, WriteOrder.remove, hfilter]

/-- Without writes there is nothing to sum up. -/
theorem Coherent.bytes_of_no_writes {c : Contents} (h : c.Coherent) (hw : c.order.writes = []) :
    c.bytes = 0 := by
  rw [h.total]
  cases ht : c.entries with
  | nil => rfl
  | cons p rest =>
    have hp : c.entries.get? p.1 = some p.2 := Table.get?_of_mem h.distinct (by rw [ht]; simp)
    have hmem := (h.indexed _ _).mpr ⟨p.2, hp, rfl⟩
    rw [hw] at hmem
    exact absurd hmem (by simp)

/-- **What holds of all contents and is kept when an entry is taken out holds after eviction.**
The induction is on the writes that the loop has before it; the contents are the ones that it has
built so far. -/
theorem evictUntilFits_induction {P : Contents → Prop} {budget size : Nat}
    (hP : ∀ c key, P c → P (c.remove key).2) {c : Contents} (hc : c.Coherent) (h : P c) :
    P (c.makeRoom budget size).2 := by
  unfold makeRoom
  obtain ⟨entries, ⟨writes, next⟩, bytes⟩ := c
  induction writes generalizing entries bytes with
  | nil => exact h
  | cons w rest ih =>
    obtain ⟨seq, key⟩ := w
    simp only [evictUntilFits]
    split
    · exact h
    · obtain ⟨e, he, hrem⟩ := hc.remove_oldest rfl
      simp only at he hrem ⊢
      have hc' := hc.remove key
      have h' := hP _ key h
      rw [hrem] at hc' h'
      rw [he]
      exact ih _ _ hc' h'

theorem Coherent.makeRoom {c : Contents} (h : c.Coherent) (budget size : Nat) :
    (c.makeRoom budget size).2.Coherent :=
  evictUntilFits_induction (fun _ key hc => hc.remove key) h h

theorem get?_makeRoom_of_none {c : Contents} (hc : c.Coherent) (budget size : Nat) {key : String}
    (h : c.entries.get? key = none) :
    (c.makeRoom budget size).2.entries.get? key = none := by
  refine evictUntilFits_induction (P := fun c => c.entries.get? key = none) ?_ hc h
  intro c k hk
  rw [get?_remove, hk, ite_self]

/-- The loop finds what it pops, and ends because the payload fits. -/
theorem Coherent.evictsCleanly {c : Contents} (h : c.Coherent) {budget size : Nat}
    (hsize : size ≤ budget) :
    EvictsCleanly budget size c.order.writes c.entries c.bytes ∧
      (c.makeRoom budget size).2.bytes + size ≤ budget := by
  unfold Contents.makeRoom
  obtain ⟨entries, ⟨writes, next⟩, bytes⟩ := c
  induction writes generalizing entries bytes with
  | nil =>
    have hzero : bytes = 0 := h.bytes_of_no_writes rfl
    have hfits : bytes + size ≤ budget := by omega
    exact ⟨hfits, hfits⟩
  | cons w rest ih =>
    obtain ⟨seq, key⟩ := w
    by_cases hfits : bytes + size ≤ budget
    · refine ⟨Or.inl hfits, ?_⟩
      simp only [evictUntilFits, if_pos hfits]
      exact hfits
    · obtain ⟨e, he, hrem⟩ := h.remove_oldest rfl
      have h' := h.remove key
      rw [hrem] at h'
      obtain ⟨hclean, hroom⟩ := ih _ _ h'
      refine ⟨Or.inr ⟨e, he, h.size_le he, hclean⟩, ?_⟩
      simp only at he
      simp only [evictUntilFits, if_neg hfits, he]
      exact hroom

/-! ## Writing -/

/-- A new entry under a key that has none, at the end of the order. -/
theorem Coherent.append {c : Contents} (h : c.Coherent) {key : String}
    (hkey : c.entries.get? key = none) (payload : ByteArray) (ttl : Option Duration) (now : Nat) :
    Coherent ⟨c.entries.insert key (.create payload ttl c.order.next now), (c.order.push key).2,
      c.bytes + payload.size⟩ := by
  have hnew : ∀ seq, (seq, key) ∉ c.order.writes := by
    intro seq hw
    obtain ⟨e, he, -⟩ := (h.indexed _ _).mp hw
    rw [hkey] at he
    exact absurd he (by simp)
  refine ⟨h.distinct.insert key _, ?_, ?_, ?_, ?_, ?_⟩
  · simp only [WriteOrder.push]
    refine List.pairwise_append.mpr ⟨h.ascending, List.pairwise_singleton _ _, ?_⟩
    intro w hw w' hw'
    rw [List.mem_singleton] at hw'
    subst hw'
    exact h.below w.1 w.2 hw
  · intro seq k hw
    simp only [WriteOrder.push, List.mem_append, List.mem_singleton, Prod.mk.injEq] at hw ⊢
    rcases hw with hw | ⟨rfl, -⟩
    · exact Nat.lt_succ_of_lt (h.below seq k hw)
    · exact Nat.lt_succ_self _
  · intro seq k
    simp only [WriteOrder.push, List.mem_append, List.mem_singleton, Prod.mk.injEq,
      Table.get?_insert]
    by_cases hk : k = key
    · subst hk
      rw [if_pos rfl]
      constructor
      · rintro (hw | ⟨rfl, -⟩)
        · exact absurd hw (hnew seq)
        · exact ⟨_, rfl, rfl⟩
      · rintro ⟨e, he, rfl⟩
        rw [Option.some.injEq] at he
        subst he
        exact Or.inr ⟨rfl, rfl⟩
    · rw [if_neg hk, ← h.indexed seq k]
      exact ⟨fun hw => hw.resolve_right fun hw' => hk hw'.2, Or.inl⟩
  · intro k e he
    rw [Table.get?_insert] at he
    by_cases hk : k = key
    · rw [if_pos hk, Option.some.injEq] at he
      subst he
      rfl
    · rw [if_neg hk] at he
      exact h.charged k e he
  · have := h.total
    have hsum := totalSize_insert hkey (.create payload ttl c.order.next now)
    simp only [Entry.create] at hsum
    show c.bytes + payload.size = totalSize (c.entries.insert key _)
    simp only [Entry.create]
    omega

theorem Coherent.write {c : Contents} (h : c.Coherent) (budget now : Nat) (key : String)
    (payload : ByteArray) (ttl : Option Duration) :
    (c.write budget now key payload ttl).2.Coherent :=
  ((h.remove key).makeRoom budget payload.size).append
    (get?_makeRoom_of_none (h.remove key) budget payload.size (get?_remove_self c key))
    payload ttl now

theorem Coherent.bytes_write_le {c : Contents} (h : c.Coherent) {budget : Nat} (now : Nat)
    (key : String) {payload : ByteArray} (hsize : payload.size ≤ budget) (ttl : Option Duration) :
    (c.write budget now key payload ttl).2.bytes ≤ budget :=
  ((h.remove key).evictsCleanly hsize).2

/-! ## What a turn does to the contents -/

/-- What can become of the contents of a store in one turn. -/
inductive Change (budget now : Nat) (c : Contents) : Contents → Prop
  | keep : Change budget now c c
  | write (key : String) (payload : ByteArray) (ttl : Option Duration)
      (fits : payload.size ≤ budget) : Change budget now c (c.write budget now key payload ttl).2
  | remove (key : String) : Change budget now c (c.remove key).2
  | purge : Change budget now c (c.purge now).2
  | clear : Change budget now c c.clear
  | reset : Change budget now c .empty

theorem coherent_empty : empty.Coherent := by
  refine ⟨List.nodup_nil, List.Pairwise.nil, ?_, ?_, ?_, rfl⟩
  · intro seq key hw
    exact absurd hw (by simp [empty, WriteOrder.empty])
  · intro seq key
    simp [empty, WriteOrder.empty]
  · intro key e he
    exact absurd he (by simp [empty])

theorem Coherent.clear {c : Contents} : c.clear.Coherent := by
  refine ⟨List.nodup_nil, List.Pairwise.nil, ?_, ?_, ?_, rfl⟩
  · intro seq key hw
    exact absurd hw (by simp [Contents.clear, WriteOrder.clear])
  · intro seq key
    simp [Contents.clear, WriteOrder.clear]
  · intro key e he
    exact absurd he (by simp [Contents.clear])

theorem Coherent.change {c c' : Contents} {budget now : Nat} (h : c.Coherent)
    (hc : Change budget now c c') : c'.Coherent := by
  cases hc with
  | keep => exact h
  | write key payload ttl _ => exact h.write budget now key payload ttl
  | remove key => exact h.remove key
  | purge => exact h.removeAll _
  | clear => exact Coherent.clear
  | reset => exact coherent_empty

theorem bytes_remove_le (c : Contents) (key : String) : (c.remove key).2.bytes ≤ c.bytes := by
  cases he : c.entries.get? key with
  | none =>
    apply Nat.le_of_eq
    rw [remove_of_none he]
  | some e =>
    rw [remove_of_some he]
    exact Nat.sub_le _ _

theorem bytes_removeAll_le (keys : List String) (c : Contents) :
    (keys.foldl (fun c key => (c.remove key).2) c).bytes ≤ c.bytes := by
  induction keys generalizing c with
  | nil => exact Nat.le_refl _
  | cons key rest ih => exact Nat.le_trans (ih _) (bytes_remove_le c key)

theorem Coherent.bytes_change_le {c c' : Contents} {budget now : Nat} (h : c.Coherent)
    (hle : c.bytes ≤ budget) (hc : Change budget now c c') : c'.bytes ≤ budget := by
  cases hc with
  | keep => exact hle
  | write key payload ttl fits => exact h.bytes_write_le now key fits ttl
  | remove key => exact Nat.le_trans (bytes_remove_le c key) hle
  | purge => exact Nat.le_trans (bytes_removeAll_le _ c) hle
  | clear => exact Nat.zero_le _
  | reset => exact Nat.zero_le _

end Contents

namespace Store

theorem change_setRaw (s : Store) (now : Nat) (key : String) (payload : ByteArray)
    (ttl : Option Duration) :
    Contents.Change s.budget now s.contents (s.setRaw now key payload ttl).2.contents := by
  unfold setRaw
  split
  · exact .keep
  · split
    · exact .keep
    · exact .write key payload ttl (by omega)

theorem contents_getRaw (s : Store) (now : Nat) (key : String) :
    (s.getRaw now key).2.contents = s.contents := by
  unfold getRaw
  split <;> rfl

theorem contents_get (s : Store) (now : Nat) (key : String) (reader : Json.Reader Json.Value) :
    (s.get now key reader).2.contents = s.contents := by
  have hraw := contents_getRaw s now key
  unfold get
  cases hr : s.getRaw now key with
  | mk r s' =>
    rw [hr] at hraw
    cases r with
    | error e => exact hraw
    | ok payload =>
      dsimp only
      split <;> exact hraw

theorem change_performOpened (s : Store) (now : Nat) (op : Operation) :
    Contents.Change s.budget now s.contents (s.performOpened now op).2.contents := by
  cases op with
  | set key encoded ttl =>
    cases encoded with
    | error fault => exact .keep
    | ok payload => exact s.change_setRaw now key payload ttl
  | setRaw key payload ttl => exact s.change_setRaw now key payload ttl
  | get key reader =>
    have hget := s.contents_get now key reader
    simp only [performOpened, hget]
    exact .keep
  | getRaw key =>
    have hraw := s.contents_getRaw now key
    simp only [performOpened, hraw]
    exact .keep
  | «exists» key => exact .keep
  | ttl key =>
    simp only [performOpened]
    split <;> exact .keep
  | delete key =>
    have hremove : (s.delete key).2.contents = s.contents ∨
        (s.delete key).2.contents = (s.contents.remove key).2 := by
      unfold delete
      split
      · exact Or.inl rfl
      · rename_i hr
        exact Or.inr (by rw [hr])
    rcases hremove with h | h
    · simp only [performOpened, h]
      exact .keep
    · simp only [performOpened, h]
      exact .remove key
  | clear => exact .clear
  | cleanup => exact .purge

/-- **A turn does one of six things to the contents.** -/
theorem change_turn (s : Store) (now : Nat) (t : StoreTurn) :
    Contents.Change s.budget now s.contents (s.turn now t).2.contents := by
  cases t with
  | perform op =>
    simp only [turn, perform]
    split
    · exact .keep
    · exact s.change_performOpened now op
  | performOpened op => exact s.change_performOpened now op
  | purge => exact .purge
  | removeIfExpired key =>
    simp only [turn, removeIfExpired]
    split
    · exact .keep
    · split
      · exact .remove key
      · exact .keep
  | markClosed => exact .keep
  | reset => exact .reset

/-- The flag and the budget are as they were. -/
structure SameFrame (s s' : Store) : Prop where
  closed : s'.closed = s.closed
  budget : s'.budget = s.budget

theorem SameFrame.refl (s : Store) : s.SameFrame s := ⟨rfl, rfl⟩

theorem sameFrame_setRaw (s : Store) (now : Nat) (key : String) (payload : ByteArray)
    (ttl : Option Duration) : s.SameFrame (s.setRaw now key payload ttl).2 := by
  unfold setRaw
  split
  · exact ⟨rfl, rfl⟩
  · split <;> exact ⟨rfl, rfl⟩

theorem sameFrame_removeIfExpired (s : Store) (now : Nat) (key : String) :
    s.SameFrame (s.removeIfExpired now key) := by
  unfold removeIfExpired
  split
  · exact .refl s
  · split <;> exact ⟨rfl, rfl⟩

/-- No operation closes a store, opens it or changes its budget. -/
theorem sameFrame_performOpened (s : Store) (now : Nat) (op : Operation) :
    s.SameFrame (s.performOpened now op).2 := by
  cases op with
  | set key encoded ttl =>
    cases encoded with
    | error fault => exact ⟨rfl, rfl⟩
    | ok payload => exact s.sameFrame_setRaw now key payload ttl
  | setRaw key payload ttl => exact s.sameFrame_setRaw now key payload ttl
  | get key reader =>
    simp only [performOpened, get, getRaw]
    cases s.contents.live? now key with
    | none => exact ⟨rfl, rfl⟩
    | some e =>
      dsimp only
      split <;> exact ⟨rfl, rfl⟩
  | getRaw key =>
    simp only [performOpened, getRaw]
    split <;> exact ⟨rfl, rfl⟩
  | «exists» key => exact .refl s
  | ttl key =>
    simp only [performOpened]
    split <;> exact .refl s
  | delete key =>
    simp only [performOpened, delete]
    split <;> exact ⟨rfl, rfl⟩
  | clear | cleanup => exact ⟨rfl, rfl⟩

theorem closed_perform (s : Store) (now : Nat) (op : Operation) :
    (s.perform now op).2.closed = s.closed := by
  unfold perform
  split
  · rfl
  · exact (s.sameFrame_performOpened now op).closed

/-- No turn changes the budget. -/
theorem budget_turn (s : Store) (now : Nat) (t : StoreTurn) :
    (s.turn now t).2.budget = s.budget := by
  cases t with
  | perform op =>
    simp only [turn, perform]
    split
    · rfl
    · exact (s.sameFrame_performOpened now op).budget
  | performOpened op => exact (s.sameFrame_performOpened now op).budget
  | removeIfExpired key => exact (s.sameFrame_removeIfExpired now key).budget
  | purge | markClosed | reset => rfl

/-! ## After every run -/

/-- The contents agree and fit the budget. -/
structure Sound (budget : Nat) (s : Store) : Prop where
  coherent : s.contents.Coherent
  fits : s.contents.bytes ≤ budget
  budget_eq : s.budget = budget

theorem Sound.turn {budget : Nat} {s : Store} (h : s.Sound budget) (now : Nat) (t : StoreTurn) :
    Sound budget (s.turn now t).2 := by
  have hchange := s.change_turn now t
  rw [h.budget_eq] at hchange
  exact ⟨h.coherent.change hchange, h.coherent.bytes_change_le h.fits hchange,
    (s.budget_turn now t).trans h.budget_eq⟩

theorem Sound.run {budget : Nat} {s : Store} (h : s.Sound budget)
    (turns : List (Nat × StoreTurn)) : Sound budget (s.run turns) :=
  runTurns_induction h (fun _ now t h => Sound.turn h now t) turns

theorem sound_run (budget : Nat) (turns : List (Nat × StoreTurn)) :
    Sound budget ((empty budget).run turns) := by
  have hempty : Sound budget (empty budget) :=
    ⟨Contents.coherent_empty, Nat.zero_le _, rfl⟩
  exact hempty.run turns

/-- **After every run of turns the three structures of a store agree, within its budget.**

The order of writes and the entries are in bijection, through sequence numbers that were drawn
before; the sum is over all entries, each charged for its payload; and the sum is within the
budget. So every subtraction from the sum is covered: when a single entry is removed, when a
purge removes one after the other, and when a write, having dropped the entry of its key, evicts
from the oldest write on. There each write that is popped belongs to an entry, and the loop does
not end before the payload fits. -/
theorem contents_agree (budget : Nat) (turns : List (Nat × StoreTurn)) :
    let c := ((empty budget).run turns).contents
    (c.entries.DistinctKeys ∧ c.order.writes.Pairwise (·.1 < ·.1)) ∧
    (∀ seq key,
      (seq, key) ∈ c.order.writes ↔ ∃ e, c.entries.get? key = some e ∧ e.seq = seq) ∧
    (∀ seq key, (seq, key) ∈ c.order.writes → seq < c.order.next) ∧
    c.bytes = Contents.totalSize c.entries ∧
    (∀ key e, c.entries.get? key = some e → e.size = e.payload.size) ∧
    c.bytes ≤ budget ∧
    (∀ keys, Contents.RemovesCleanly keys c) ∧
    (∀ key size, size ≤ budget →
      let rest := (c.remove key).2
      Contents.EvictsCleanly budget size rest.order.writes rest.entries rest.bytes ∧
        (rest.makeRoom budget size).2.bytes + size ≤ budget) := by
  intro c
  obtain ⟨hc, hfits, -⟩ := sound_run budget turns
  exact ⟨⟨hc.distinct, hc.ascending⟩, hc.indexed, hc.below, hc.total, hc.charged, hfits,
    hc.removesCleanly, fun key size hsize => (hc.remove key).evictsCleanly hsize⟩

end Store

end BoundedResources
