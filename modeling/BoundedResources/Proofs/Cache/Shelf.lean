import Mathlib.Algebra.Ring.Nat
import Mathlib.Data.List.Perm.Lattice
import BoundedResources.Proofs.Cache.Coherence

/-!
# A store is a list of records

To its callers a store is simple: a list of records, oldest write first. A write drops the record
of its key, then the shortest prefix of what is left whose removal makes room, and appends the new
record; a read answers from the record of its key while that is live and changes nothing; removals
keep the order of what stays. `Shelf` is that list, and its operations are said on the list alone:
no index, no sequence numbers, no running sum.

**`Store.behaves_as_shelf`** says that a store cannot be told from its shelf. Over every run of
turns both give the same answers, and after it they hold the same records, hence the same number
of them and the same live usage, and have evicted as many. The proof is a simulation: `records`
reads the list off the contents of a store, one lemma for each operation on contents says what it
does to that list, and the agreement of the contents (`Contents.Coherent`) is what makes the
reading exact.
-/

set_option autoImplicit false

namespace BoundedResources

/-- A stored payload, as the callers of a store know it. -/
structure Record where
  key : String
  payload : ByteArray
  /-- The millisecond from which on it is expired; none if it never is. -/
  deadline : Option Nat

/-- Whether the deadline of a record, if it has one, is later than `now`. -/
def Record.isLiveAt (r : Record) (now : Nat) : Bool := r.deadline.all fun d => now < d

/-- The records of a store, oldest write first, with the count of those that were evicted. -/
structure Shelf where
  records : List Record
  evictions : Nat
  closed : Bool

namespace Shelf

/-- No records. -/
def empty : Shelf := ⟨[], 0, false⟩

/-- The bytes of payload in a list of records. -/
def bytes (l : List Record) : Nat := (l.map fun r => r.payload.size).sum

/-- The longest tail of a list that leaves room for `size` bytes. -/
def keep (budget size : Nat) (l : List Record) : List Record :=
  (l.tails.find? fun rest => bytes rest + size ≤ budget).getD []

/-- The record of a key, if it is live. -/
def live? (s : Shelf) (now : Nat) (key : String) : Option Record :=
  (s.records.find? fun r => r.key = key).filter fun r => r.isLiveAt now

/-- The records that are live. -/
def liveRecords (s : Shelf) (now : Nat) : List Record := s.records.filter fun r => r.isLiveAt now

/-- Puts a payload at the end, in place of the record of its key and of the oldest others that
leave it no room. -/
def write (s : Shelf) (budget now : Nat) (key : String) (payload : ByteArray)
    (ttl : Option Duration) : Shelf :=
  let others := s.records.filter fun r => r.key ≠ key
  let kept := keep budget payload.size others
  { s with
    records := kept ++ [⟨key, payload, Entry.deadline now ttl⟩]
    evictions := s.evictions + (others.length - kept.length) }

/-- Writes a payload that fits the budget, unless the shelf is closed. -/
def setRaw (s : Shelf) (budget now : Nat) (key : String) (payload : ByteArray)
    (ttl : Option Duration) : Except CacheError Answer × Shelf :=
  if budget < payload.size then (.error (.entryTooLarge payload.size budget), s)
  else if s.closed then (.error .closed, s)
  else (.ok .done, s.write budget now key payload ttl)

/-- Takes the record of a key out. -/
def remove (s : Shelf) (key : String) : Shelf :=
  { s with records := s.records.filter fun r => r.key ≠ key }

/-- What follows the look at whether the shelf is open. -/
def performOpened (s : Shelf) (budget now : Nat) : Operation → Except CacheError Answer × Shelf
  | .set _ (.error fault) _ => (.error (.serialization fault), s)
  | .set key (.ok payload) ttl => s.setRaw budget now key payload ttl
  | .setRaw key payload ttl => s.setRaw budget now key payload ttl
  | .get key reader =>
    match s.live? now key with
    | none => (.error (.notFound key), s)
    | some r =>
      match Json.decode reader r.payload.data.toList with
      | .ok v => (.ok (.value v), s)
      | .error fault => (.error (.serialization fault), s)
  | .getRaw key =>
    match s.live? now key with
    | none => (.error (.notFound key), s)
    | some r => (.ok (.payload r.payload), s)
  | .exists key => (.ok (.found (s.live? now key).isSome), s)
  | .ttl key =>
    match s.live? now key with
    | none => (.error (.notFound key), s)
    | some r => (.ok (.lifetime (r.deadline.map fun d => Duration.ofMillis (d - now))), s)
  | .delete key =>
    if s.records.any fun r => r.key = key then (.ok .done, s.remove key)
    else (.error (.notFound key), s)
  | .clear => (.ok .done, { s with records := [] })
  | .cleanup =>
    (.ok (.removed (s.records.length - (s.liveRecords now).length)),
      { s with records := s.liveRecords now })

/-- An operation, from the look at whether the shelf is open to its end. -/
def perform (s : Shelf) (budget now : Nat) (op : Operation) : Except CacheError Answer × Shelf :=
  if s.closed then (.error .closed, s) else s.performOpened budget now op

/-- A turn at a wall clock reading `now`. -/
def turn (s : Shelf) (budget now : Nat) : StoreTurn → Option (Except CacheError Answer) × Shelf
  | .perform op => ((s.perform budget now op).1, (s.perform budget now op).2)
  | .performOpened op => ((s.performOpened budget now op).1, (s.performOpened budget now op).2)
  | .purge => (none, { s with records := s.liveRecords now })
  | .removeIfExpired key =>
    (none, { s with records := s.records.filter fun r => r.key ≠ key || r.isLiveAt now })
  | .markClosed => (none, { s with closed := true })
  | .reset => (none, { s with records := [] })

/-- The shelf after some turns. -/
def run (s : Shelf) (budget : Nat) : List (Nat × StoreTurn) → Shelf
  | [] => s
  | (now, t) :: rest => (s.turn budget now t).2.run budget rest

/-- What the callers are told in the course of some turns. -/
def answers (s : Shelf) (budget : Nat) :
    List (Nat × StoreTurn) → List (Option (Except CacheError Answer))
  | [] => []
  | (now, t) :: rest => (s.turn budget now t).1 :: (s.turn budget now t).2.answers budget rest

/-- **What is kept is the list without its shortest prefix whose removal makes room.** -/
theorem keep_eq_drop {budget size : Nat} (hsize : size ≤ budget) (l : List Record) :
    ∃ n, n ≤ l.length ∧ keep budget size l = l.drop n ∧ bytes (l.drop n) + size ≤ budget ∧
      ∀ m, m < n → budget < bytes (l.drop m) + size := by
  induction l with
  | nil =>
    exact ⟨0, Nat.le_refl _, by simp [keep, bytes, hsize], by simpa [bytes] using hsize,
      by omega⟩
  | cons r rest ih =>
    by_cases hfits : bytes (r :: rest) + size ≤ budget
    · refine ⟨0, Nat.zero_le _, ?_, hfits, by omega⟩
      simp [keep, hfits]
    · obtain ⟨n, hlength, hkeep, hroom, hmin⟩ := ih
      refine ⟨n + 1, Nat.succ_le_succ hlength, ?_, hroom, ?_⟩
      · rw [List.drop_succ_cons, ← hkeep]
        simp [keep, hfits]
      · intro m hm
        cases m with
        | zero => exact Nat.lt_of_not_le hfits
        | succ m => exact hmin m (by omega)

end Shelf

namespace Contents

/-! ## The records of some contents -/

/-- An entry as a record of its key. -/
def toRecord (key : String) (e : Entry) : Record := ⟨key, e.payload, e.expiresAt⟩

/-- The record of a write. -/
def recordOf? (entries : Table Entry) (w : Nat × String) : Option Record :=
  (entries.get? w.2).map (toRecord w.2)

/-- The records of the entries, oldest write first. -/
def records (c : Contents) : List Record := c.order.writes.filterMap (recordOf? c.entries)

theorem Coherent.mem_records {c : Contents} (h : c.Coherent) {r : Record} :
    r ∈ c.records ↔ ∃ e, c.entries.get? r.key = some e ∧ r = toRecord r.key e := by
  simp only [records, List.mem_filterMap, recordOf?, Option.map_eq_some_iff]
  constructor
  · rintro ⟨w, -, e, he, rfl⟩
    exact ⟨e, he, rfl⟩
  · rintro ⟨e, he, hr⟩
    exact ⟨(e.seq, r.key), (h.indexed _ _).mpr ⟨e, he, rfl⟩, e, he, hr.symm⟩

/-- Each write of the order has its record. -/
theorem Coherent.map_key_records {c : Contents} (h : c.Coherent) :
    c.records.map Record.key = c.order.writes.map Prod.snd := by
  rw [records, List.map_filterMap, ← List.filterMap_eq_map]
  apply List.filterMap_congr
  intro w hw
  obtain ⟨e, he, -⟩ := (h.indexed w.1 w.2).mp hw
  simp [recordOf?, he, toRecord]

theorem Coherent.nodup_keys {c : Contents} (h : c.Coherent) :
    (c.records.map Record.key).Nodup := by
  rw [h.map_key_records]
  refine List.pairwise_map.mpr (h.ascending.imp_of_mem fun {w w'} hw hw' hlt hkey => ?_)
  obtain ⟨e, he, hseq⟩ := (h.indexed w.1 w.2).mp hw
  obtain ⟨e', he', hseq'⟩ := (h.indexed w'.1 w'.2).mp hw'
  rw [hkey, he', Option.some.injEq] at he
  subst he
  omega

theorem Coherent.records_perm {c : Contents} (h : c.Coherent) :
    c.records.Perm (c.entries.map fun p => toRecord p.1 p.2) := by
  have hkeys : (c.entries.map fun p => toRecord p.1 p.2).Nodup := by
    refine List.Nodup.of_map Record.key ?_
    rw [List.map_map]
    exact h.distinct
  refine (List.perm_ext_iff_of_nodup (List.Nodup.of_map _ h.nodup_keys) hkeys).mpr fun r => ?_
  rw [h.mem_records, List.mem_map]
  constructor
  · rintro ⟨e, he, hr⟩
    exact ⟨(r.key, e), Table.mem_of_get? he, hr.symm⟩
  · rintro ⟨⟨key, e⟩, hmem, rfl⟩
    exact ⟨e, Table.get?_of_mem h.distinct hmem, rfl⟩

theorem Coherent.length_records {c : Contents} (h : c.Coherent) :
    c.records.length = c.entries.length := by
  rw [h.records_perm.length_eq, List.length_map]

/-- The entry of a key is its record. -/
theorem Coherent.find?_records {c : Contents} (h : c.Coherent) (key : String) :
    (c.records.find? fun r => r.key = key) = (c.entries.get? key).map (toRecord key) := by
  cases hf : c.records.find? fun r => r.key = key with
  | none =>
    rw [List.find?_eq_none] at hf
    cases he : c.entries.get? key with
    | none => rfl
    | some e =>
      have hmem : toRecord key e ∈ c.records := h.mem_records.mpr ⟨e, he, rfl⟩
      exact absurd (by simp [toRecord]) (hf _ hmem)
  | some r =>
    have hkey : r.key = key := by simpa using List.find?_some hf
    obtain ⟨e, he, hr⟩ := h.mem_records.mp (List.mem_of_find?_eq_some hf)
    rw [← hkey, he, Option.map_some, ← hr]

theorem isLiveAt_toRecord (key : String) (e : Entry) (now : Nat) :
    (toRecord key e).isLiveAt now = !e.isExpiredAt now := by
  unfold toRecord Record.isLiveAt Entry.isExpiredAt
  cases e.expiresAt with
  | none => rfl
  | some d =>
    show decide (now < d) = !decide (d ≤ now)
    rw [← decide_not]
    exact decide_eq_decide.mpr Nat.not_le.symm

theorem totalSize_eq_bytes {t : Table Entry}
    (h : ∀ p ∈ t, p.2.size = p.2.payload.size) :
    totalSize t = Shelf.bytes (t.map fun p => toRecord p.1 p.2) := by
  induction t with
  | nil => rfl
  | cons p rest ih =>
    have hp := h p List.mem_cons_self
    have hrest := ih fun q hq => h q (List.mem_cons_of_mem _ hq)
    simp only [Shelf.bytes, List.map_cons, List.sum_cons, totalSize, toRecord] at hrest ⊢
    omega

theorem Coherent.charged_of_mem {c : Contents} (h : c.Coherent) :
    ∀ p ∈ c.entries, p.2.size = p.2.payload.size :=
  fun p hp => h.charged p.1 p.2 (Table.get?_of_mem h.distinct hp)

theorem bytes_perm {l l' : List Record} (h : l.Perm l') : Shelf.bytes l = Shelf.bytes l' :=
  (h.map _).sum_nat

/-- The sum is over the records. -/
theorem Coherent.bytes_records {c : Contents} (h : c.Coherent) :
    Shelf.bytes c.records = c.bytes := by
  rw [bytes_perm h.records_perm, h.total, totalSize_eq_bytes h.charged_of_mem]

/-! ## What the operations do to the records -/

theorem Coherent.records_remove {c : Contents} (h : c.Coherent) (key : String) :
    (c.remove key).2.records = c.records.filter fun r => r.key ≠ key := by
  cases he : c.entries.get? key with
  | none =>
    rw [remove_of_none he, eq_comm, List.filter_eq_self]
    intro r hr
    obtain ⟨e, hre, -⟩ := h.mem_records.mp hr
    have hne : r.key ≠ key := by
      rintro rfl
      rw [he] at hre
      exact absurd hre (by simp)
    simpa using hne
  | some e =>
    rw [remove_of_some he]
    simp only [records, WriteOrder.remove, List.filterMap_filter, List.filter_filterMap]
    -- A write is dropped from the order exactly if its record is dropped from the list.
    apply List.filterMap_congr
    intro w hw
    obtain ⟨a, ha, -⟩ := (h.indexed w.1 w.2).mp hw
    have hseq := h.seq_eq_iff he hw
    by_cases hkey : w.2 = key
    · simp [hseq.mpr hkey, recordOf?, toRecord, hkey, he, Option.filter]
    · have hkeep : w.1 ≠ e.seq := mt hseq.mp hkey
      simp [hkeep, recordOf?, toRecord, hkey, ha, Table.get?_erase, Option.filter]

theorem Coherent.records_removeAll {c : Contents} (h : c.Coherent) (keys : List String) :
    (keys.foldl (fun c key => (c.remove key).2) c).records =
      c.records.filter fun r => r.key ∉ keys := by
  induction keys generalizing c with
  | nil => simp
  | cons key rest ih =>
    rw [List.foldl_cons, ih (h.remove key), h.records_remove, List.filter_filter]
    apply List.filter_congr
    intro r _
    simp only [List.mem_cons, not_or, Bool.decide_and, Bool.and_comm]

/-- Whether an entry is expired can be told from its record. -/
theorem Coherent.mem_expiredKeys {c : Contents} (h : c.Coherent) (now : Nat) {r : Record}
    (hr : r ∈ c.records) : r.key ∈ c.expiredKeys now ↔ r.isLiveAt now = false := by
  obtain ⟨e, he, hre⟩ := h.mem_records.mp hr
  have hlive := isLiveAt_toRecord r.key e now
  rw [← hre] at hlive
  rw [mem_expiredKeys_iff h.distinct, hlive, Bool.not_eq_false']
  constructor
  · rintro ⟨a, ha, hexpired⟩
    rw [he, Option.some.injEq] at ha
    rwa [ha]
  · intro hexpired
    exact ⟨e, he, hexpired⟩

theorem Coherent.records_purge {c : Contents} (h : c.Coherent) (now : Nat) :
    (c.purge now).2.records = c.records.filter fun r => r.isLiveAt now := by
  simp only [purge, h.records_removeAll]
  apply List.filter_congr
  intro r hr
  have hmem := h.mem_expiredKeys now hr
  cases hlive : r.isLiveAt now with
  | true => simpa [hlive] using hmem
  | false => simpa [hlive] using hmem

/-- What is live among the entries is what is live among the records. -/
theorem Coherent.live_perm {c : Contents} (h : c.Coherent) (now : Nat) :
    (c.records.filter fun r => r.isLiveAt now).Perm
      ((c.entries.filter fun p => !p.2.isExpiredAt now).map fun p => toRecord p.1 p.2) := by
  have hfilter := h.records_perm.filter fun r => r.isLiveAt now
  rw [List.filter_map] at hfilter
  have hpred : ((fun r : Record => r.isLiveAt now) ∘ fun p : String × Entry => toRecord p.1 p.2)
      = fun p => !p.2.isExpiredAt now := funext fun p => isLiveAt_toRecord p.1 p.2 now
  rwa [hpred] at hfilter

theorem Coherent.length_purge {c : Contents} (h : c.Coherent) (now : Nat) :
    (c.purge now).1 =
      c.records.length - (c.records.filter fun r => r.isLiveAt now).length := by
  have hsplit := List.length_eq_length_filter_add (l := c.entries) fun p => p.2.isExpiredAt now
  rw [(h.live_perm now).length_eq, List.length_map, h.length_records]
  simp only [purge, expiredKeys, List.length_map]
  omega

theorem Coherent.liveUsage_eq {c : Contents} (h : c.Coherent) (now : Nat) :
    c.liveUsage now =
      ((c.records.filter fun r => r.isLiveAt now).length,
        Shelf.bytes (c.records.filter fun r => r.isLiveAt now)) := by
  have hperm := h.live_perm now
  rw [hperm.length_eq, bytes_perm hperm, List.length_map, ← totalSize_eq_bytes]
  · rfl
  · exact fun p hp => h.charged_of_mem p (List.mem_of_mem_filter hp)

/-- The oldest write is the first record. -/
theorem Coherent.records_oldest {c : Contents} (h : c.Coherent) {seq : Nat} {key : String}
    {rest : List (Nat × String)} (hw : c.order.writes = (seq, key) :: rest) :
    ∃ r, c.records = r :: (c.remove key).2.records := by
  obtain ⟨e, he, hrem⟩ := h.remove_oldest hw
  have hcons : c.records = toRecord key e :: rest.filterMap (recordOf? c.entries) := by
    simp [records, hw, recordOf?, he]
  refine ⟨toRecord key e, ?_⟩
  -- No later record has the key of the oldest one, so nothing else is filtered out.
  have hnodup := h.nodup_keys
  rw [hcons, List.map_cons, List.nodup_cons] at hnodup
  rw [h.records_remove, hcons, List.filter_cons_of_neg (by simp [toRecord]), eq_comm]
  refine congrArg _ (List.filter_eq_self.mpr fun r hr => ?_)
  have hkey : r.key ∈ (rest.filterMap (recordOf? c.entries)).map Record.key :=
    List.mem_map_of_mem hr
  have hne : r.key ≠ key := fun heq => hnodup.1 (heq ▸ hkey)
  simpa using hne

/-- **Making room drops the shortest prefix of the records.** The induction is on the writes that
the loop has before it, as in `evictsCleanly`. -/
theorem Coherent.records_makeRoom {c : Contents} (h : c.Coherent) (budget size : Nat) :
    (c.makeRoom budget size).2.records = Shelf.keep budget size c.records ∧
      (c.makeRoom budget size).1 + (Shelf.keep budget size c.records).length
        = c.records.length := by
  have hbytes := h.bytes_records
  unfold Contents.makeRoom
  obtain ⟨entries, ⟨writes, next⟩, bytes⟩ := c
  induction writes generalizing entries bytes with
  | nil =>
    have hkeep : Shelf.keep budget size [] = [] := by
      simp only [Shelf.keep, List.tails, List.find?_cons, List.find?_nil]
      split <;> rfl
    exact ⟨hkeep.symm, by rw [show records _ = [] from rfl, hkeep]; rfl⟩
  | cons w rest ih =>
    obtain ⟨seq, key⟩ := w
    obtain ⟨r, hcons⟩ := h.records_oldest rfl
    by_cases hfits : bytes + size ≤ budget
    · have hkeep : Shelf.keep budget size (records ⟨entries, ⟨(seq, key) :: rest, next⟩, bytes⟩)
          = records ⟨entries, ⟨(seq, key) :: rest, next⟩, bytes⟩ := by
        rw [hcons] at hbytes ⊢
        simp only [Shelf.keep, List.tails, List.find?_cons, hbytes]
        simp [hfits]
      simp only [evictUntilFits, if_pos hfits, hkeep]
      exact ⟨trivial, Nat.zero_add _⟩
    · obtain ⟨e, he, hrem⟩ := h.remove_oldest rfl
      have h' := h.remove key
      simp only at hrem he
      have hkeep : Shelf.keep budget size (records ⟨entries, ⟨(seq, key) :: rest, next⟩, bytes⟩)
          = Shelf.keep budget size
              (records (Contents.remove ⟨entries, ⟨(seq, key) :: rest, next⟩, bytes⟩ key).2) := by
        rw [hcons] at hbytes ⊢
        simp only [Shelf.keep, List.tails, List.find?_cons, hbytes]
        simp [hfits]
      rw [hkeep]
      rw [hrem] at h' hcons ⊢
      obtain ⟨hrecords, hcount⟩ := ih _ _ h' h'.bytes_records
      simp only [evictUntilFits, if_neg hfits, he]
      refine ⟨hrecords, ?_⟩
      rw [hcons, List.length_cons]
      simp only at hcount ⊢
      omega

theorem Coherent.records_append {c : Contents} (h : c.Coherent) {key : String}
    (hkey : c.entries.get? key = none) (e : Entry) (bytes : Nat) :
    records ⟨c.entries.insert key e, (c.order.push key).2, bytes⟩ =
      c.records ++ [toRecord key e] := by
  simp only [records, WriteOrder.push, List.filterMap_append]
  congr 1
  · refine List.filterMap_congr fun w hw => ?_
    obtain ⟨a, ha, -⟩ := (h.indexed w.1 w.2).mp hw
    have hne : w.2 ≠ key := by
      intro heq
      rw [heq, hkey] at ha
      exact absurd ha (by simp)
    simp only [recordOf?, Table.get?_insert, if_neg hne]
  · simp [recordOf?, Table.get?_insert]

/-- A write does to the contents what it does to the shelf. -/
theorem Coherent.records_write {c : Contents} (h : c.Coherent) (budget now : Nat) (key : String)
    (payload : ByteArray) (ttl : Option Duration) {s : Shelf} (hs : c.records = s.records) :
    (c.write budget now key payload ttl).2.records =
        (s.write budget now key payload ttl).records ∧
      s.evictions + (c.write budget now key payload ttl).1 =
        (s.write budget now key payload ttl).evictions := by
  have hrem := h.remove key
  have hothers := h.records_remove key
  obtain ⟨hkept, hcount⟩ := hrem.records_makeRoom budget payload.size
  have hnone := get?_makeRoom_of_none hrem budget payload.size (get?_remove_self c key)
  rw [hothers, hs] at hkept hcount
  constructor
  · have happend := (hrem.makeRoom budget payload.size).records_append hnone
      (.create payload ttl ((c.remove key).2.makeRoom budget payload.size).2.order.next now)
      (((c.remove key).2.makeRoom budget payload.size).2.bytes + payload.size)
    rw [hkept] at happend
    exact happend
  · show s.evictions + ((c.remove key).2.makeRoom budget payload.size).1 = _
    simp only [Shelf.write]
    omega

end Contents

/-! ## The simulation -/

namespace Store

/-- A store and a shelf have the same records, flag and count of evictions. -/
structure Shows (s : Store) (l : Shelf) : Prop where
  records : s.contents.records = l.records
  evictions : s.tally.evictions = l.evictions
  closed : s.closed = l.closed

section

variable {budget : Nat} {s : Store} {l : Shelf}

theorem Shows.live? (hs : s.Sound budget) (h : s.Shows l) (now : Nat) (key : String) :
    l.live? now key = (s.contents.live? now key).map (Contents.toRecord key) := by
  rw [Shelf.live?, ← h.records, hs.coherent.find?_records, Contents.live?]
  cases s.contents.entries.get? key with
  | none => rfl
  | some e =>
    have hlive := Contents.isLiveAt_toRecord key e now
    simp only [Option.map_some, Option.filter, hlive]
    split <;> rfl

theorem Shows.setRaw (hs : s.Sound budget) (h : s.Shows l) (now : Nat) (key : String)
    (payload : ByteArray) (ttl : Option Duration) :
    (s.setRaw now key payload ttl).1 = (l.setRaw budget now key payload ttl).1 ∧
      (s.setRaw now key payload ttl).2.Shows (l.setRaw budget now key payload ttl).2 := by
  have hclosed := h.closed
  unfold Store.setRaw Shelf.setRaw
  rw [hs.budget_eq]
  by_cases hsize : budget < payload.size
  · rw [if_pos hsize, if_pos hsize]
    exact ⟨rfl, h.records, h.evictions, h.closed⟩
  · rw [if_neg hsize, if_neg hsize]
    cases hc : l.closed with
    | true =>
      rw [if_pos (hclosed.trans hc), if_pos rfl]
      exact ⟨rfl, h⟩
    | false =>
      rw [if_neg (by simp [hclosed, hc]), if_neg (by simp)]
      obtain ⟨hrecords, hcount⟩ :=
        hs.coherent.records_write budget now key payload ttl h.records
      refine ⟨rfl, hrecords, ?_, h.closed⟩
      rw [← hcount, ← h.evictions]
      rfl

theorem Shows.getRaw (hs : s.Sound budget) (h : s.Shows l) (now : Nat) (key : String) :
    (s.getRaw now key).1 =
        (match l.live? now key with
          | none => .error (.notFound key)
          | some r => .ok r.payload) ∧
      (s.getRaw now key).2.Shows l := by
  rw [h.live? hs]
  unfold Store.getRaw
  cases s.contents.live? now key with
  | none => exact ⟨rfl, h.records, h.evictions, h.closed⟩
  | some e => exact ⟨rfl, h.records, h.evictions, h.closed⟩

theorem Shows.get (hs : s.Sound budget) (h : s.Shows l) (now : Nat) (key : String)
    (reader : Json.Reader Json.Value) :
    (s.get now key reader).1 = (l.performOpened budget now (.get key reader)).1 ∧
      (s.get now key reader).2.Shows (l.performOpened budget now (.get key reader)).2 := by
  obtain ⟨hanswer, hshows⟩ := h.getRaw hs now key
  unfold Store.get
  simp only [Shelf.performOpened]
  cases hlive : l.live? now key with
  | none =>
    rw [hlive] at hanswer
    simp only at hanswer
    rw [show s.getRaw now key = (.error (.notFound key), (s.getRaw now key).2) from
      Prod.ext hanswer rfl]
    exact ⟨rfl, hshows⟩
  | some r =>
    rw [hlive] at hanswer
    simp only at hanswer
    rw [show s.getRaw now key = (.ok r.payload, (s.getRaw now key).2) from Prod.ext hanswer rfl]
    dsimp only
    cases Json.decode reader r.payload.data.toList with
    | ok v => exact ⟨rfl, hshows⟩
    | error fault => exact ⟨rfl, hshows.records, hshows.evictions, hshows.closed⟩

theorem Shows.delete (hs : s.Sound budget) (h : s.Shows l) (now : Nat) (key : String) :
    (s.delete key).1 = (l.performOpened budget now (.delete key)).1 ∧
      (s.delete key).2.Shows (l.performOpened budget now (.delete key)).2 := by
  have hfind := hs.coherent.find?_records key
  have hrem := hs.coherent.records_remove key
  have hany : (l.records.any fun r => r.key = key) = (s.contents.entries.get? key).isSome := by
    rw [← h.records, Bool.eq_iff_iff, List.any_eq_true, ← List.find?_isSome, hfind,
      Option.isSome_map]
  unfold Store.delete
  simp only [Shelf.performOpened, hany]
  cases he : s.contents.entries.get? key with
  | none =>
    rw [Contents.remove_of_none he]
    exact ⟨rfl, h⟩
  | some e =>
    rw [Contents.remove_of_some he] at hrem ⊢
    refine ⟨rfl, ?_, h.evictions, h.closed⟩
    rw [h.records] at hrem
    exact hrem

theorem Shows.purge (hs : s.Sound budget) (h : s.Shows l) (now : Nat) :
    (s.purge now).1 = l.records.length - (l.liveRecords now).length ∧
      (s.purge now).2.Shows { l with records := l.liveRecords now } := by
  have hrecords := hs.coherent.records_purge now
  have hcount := hs.coherent.length_purge now
  rw [h.records] at hrecords hcount
  exact ⟨hcount, hrecords, h.evictions, h.closed⟩

theorem Shows.removeIfExpired (hs : s.Sound budget) (h : s.Shows l) (now : Nat) (key : String) :
    (s.removeIfExpired now key).Shows
      { l with records := l.records.filter fun r => r.key ≠ key || r.isLiveAt now } := by
  have hmem := fun {r : Record} => hs.coherent.mem_records (r := r)
  have hrem := hs.coherent.records_remove key
  rw [h.records] at hrem hmem
  -- Whatever is kept, a record of another key is.
  have hkeep : (∀ r ∈ l.records, r.key = key → r.isLiveAt now = true) →
      (l.records.filter fun r => r.key ≠ key || r.isLiveAt now) = l.records := by
    intro hlive
    apply List.filter_eq_self.mpr
    intro r hr
    by_cases hkey : r.key = key
    · simp [hlive r hr hkey]
    · simp [hkey]
  unfold Store.removeIfExpired
  cases he : s.contents.entries.get? key with
  | none =>
    refine ⟨?_, h.evictions, h.closed⟩
    rw [h.records, hkeep]
    rintro r hr rfl
    obtain ⟨e, hre, -⟩ := hmem.mp hr
    rw [he] at hre
    exact absurd hre (by simp)
  | some e =>
    have hlive : ∀ r ∈ l.records, r.key = key → r.isLiveAt now = !e.isExpiredAt now := by
      rintro r hr rfl
      obtain ⟨a, ha, hrec⟩ := hmem.mp hr
      rw [he, Option.some.injEq] at ha
      rw [hrec, Contents.isLiveAt_toRecord, ha]
    dsimp only
    by_cases hexp : e.isExpiredAt now = true
    · rw [if_pos hexp]
      refine ⟨?_, h.evictions, h.closed⟩
      rw [hrem]
      apply List.filter_congr
      intro r hr
      by_cases hkey : r.key = key
      · simp [hkey, hlive r hr hkey, hexp]
      · simp [hkey]
    · rw [if_neg hexp]
      refine ⟨?_, h.evictions, h.closed⟩
      rw [h.records, hkeep fun r hr hkey => by simp [hlive r hr hkey, hexp]]

theorem Shows.performOpened (hs : s.Sound budget) (h : s.Shows l) (now : Nat) (op : Operation) :
    (s.performOpened now op).1 = (l.performOpened budget now op).1 ∧
      (s.performOpened now op).2.Shows (l.performOpened budget now op).2 := by
  cases op with
  | set key encoded ttl =>
    cases encoded with
    | error fault => exact ⟨rfl, h.records, h.evictions, h.closed⟩
    | ok payload => exact h.setRaw hs now key payload ttl
  | setRaw key payload ttl => exact h.setRaw hs now key payload ttl
  | get key reader => exact h.get hs now key reader
  | getRaw key =>
    obtain ⟨hanswer, hshows⟩ := h.getRaw hs now key
    simp only [Store.performOpened, Shelf.performOpened, hanswer]
    cases l.live? now key with
    | none => exact ⟨rfl, hshows⟩
    | some r => exact ⟨rfl, hshows⟩
  | «exists» key =>
    simp only [Store.performOpened, Shelf.performOpened, h.live? hs, Option.isSome_map]
    exact ⟨trivial, h⟩
  | ttl key =>
    simp only [Store.performOpened, Shelf.performOpened, h.live? hs]
    cases s.contents.live? now key with
    | none => exact ⟨rfl, h⟩
    | some e => exact ⟨rfl, h⟩
  | delete key => exact h.delete hs now key
  | clear => exact ⟨rfl, rfl, h.evictions, h.closed⟩
  | cleanup =>
    obtain ⟨hcount, hshows⟩ := h.purge hs now
    simp only [Store.performOpened, Shelf.performOpened, hcount]
    exact ⟨trivial, hshows⟩

/-- **A turn at a store is a turn at its shelf.** -/
theorem Shows.turn (hs : s.Sound budget) (h : s.Shows l) (now : Nat) (t : StoreTurn) :
    (s.turn now t).1 = (l.turn budget now t).1 ∧
      (s.turn now t).2.Shows (l.turn budget now t).2 := by
  cases t with
  | perform op =>
    simp only [Store.turn, Shelf.turn, Store.perform, Shelf.perform, h.closed]
    cases l.closed with
    | true => exact ⟨rfl, h⟩
    | false =>
      obtain ⟨hanswer, hshows⟩ := h.performOpened hs now op
      exact ⟨congrArg some hanswer, hshows⟩
  | performOpened op =>
    obtain ⟨hanswer, hshows⟩ := h.performOpened hs now op
    exact ⟨congrArg some hanswer, hshows⟩
  | purge => exact ⟨rfl, (h.purge hs now).2⟩
  | removeIfExpired key => exact ⟨rfl, h.removeIfExpired hs now key⟩
  | markClosed => exact ⟨rfl, h.records, h.evictions, rfl⟩
  | reset => exact ⟨rfl, rfl, h.evictions, h.closed⟩

theorem Shows.run (hs : s.Sound budget) (h : s.Shows l) (turns : List (Nat × StoreTurn)) :
    s.answers turns = l.answers budget turns ∧ (s.run turns).Shows (l.run budget turns) := by
  induction turns generalizing s l with
  | nil => exact ⟨rfl, h⟩
  | cons t rest ih =>
    obtain ⟨hanswer, hshows⟩ := h.turn hs t.1 t.2
    obtain ⟨hrest, hrun⟩ := ih (hs.turn t.1 t.2) hshows
    refine ⟨?_, hrun⟩
    simp only [Store.answers, Shelf.answers, hanswer, hrest]

end

/-- **A store cannot be told from its shelf.**

Over any turns in any order, each at any reading of the clock, an empty store gives the answers
that an empty shelf gives. After them it holds the records of the shelf in their order, as many of
them are live at any reading and with as many bytes, and it has evicted as many. The last part is
about the shelf alone: what a write keeps of the other records is all but the shortest prefix
whose removal makes room. -/
theorem behaves_as_shelf (budget : Nat) (turns : List (Nat × StoreTurn)) :
    let s := (empty budget).run turns
    let l := Shelf.empty.run budget turns
    (empty budget).answers turns = Shelf.empty.answers budget turns ∧
    s.contents.records = l.records ∧
    s.size = l.records.length ∧
    (∀ now, (s.stats now).totalEntries = (l.liveRecords now).length ∧
      (s.stats now).memoryUsage = Shelf.bytes (l.liveRecords now)) ∧
    s.tally.evictions = l.evictions ∧
    (∀ size others, size ≤ budget →
      ∃ n, n ≤ others.length ∧ Shelf.keep budget size others = others.drop n ∧
        Shelf.bytes (others.drop n) + size ≤ budget ∧
        ∀ m, m < n → budget < Shelf.bytes (others.drop m) + size) := by
  intro s l
  have hsound : s.Sound budget := sound_run budget turns
  have hempty : Sound budget (empty budget) := sound_run budget []
  obtain ⟨hanswers, hshows⟩ :=
    Shows.run hempty (l := Shelf.empty) ⟨rfl, rfl, rfl⟩ turns
  refine ⟨hanswers, hshows.records, ?_, fun now => ?_, hshows.evictions,
    fun size others hsize => Shelf.keep_eq_drop hsize others⟩
  · rw [← hshows.records, hsound.coherent.length_records]
    rfl
  · have husage := hsound.coherent.liveUsage_eq now
    rw [hshows.records] at husage
    simp only [stats, husage]
    exact ⟨rfl, rfl⟩

end Store

end BoundedResources
