import BoundedResources.Proofs.Cache.Shelf

/-!
# What the counters account for

The counters of a store are moved on many paths: a write counts itself and what it evicts, three
kinds of removal count what has expired, and a lookup counts a hit before anybody has tried to
decode what it found. Two routes out of a store are not counted at all: an entry can be replaced by
a write under its key, and it can be dropped with all others when the store is cleared or closed.

An `Occurrence` is what somebody could note down who watches the store in the course of a run: the
calls with their answers, and the entries that leave by the two routes without a counter.
**`Store.counters_account`** says that the counters balance with these notes after every run. Every
entry that was ever stored is there or has left by exactly one route, whichever of the removals that
were under way for it came first; and the counters of lookups and errors count the calls that were
told so.
-/

set_option autoImplicit false

namespace BoundedResources

/-! ## Notes on a run -/

/-- Something to note about a turn. -/
inductive Occurrence where
  /-- An operation was called and answered. -/
  | call (op : Operation) (answer : Except CacheError Answer)
  /-- A write has taken the place of the entry that was stored under its key. -/
  | replaced (key : String)
  /-- The entry of a key was dropped with all others. -/
  | dropped (key : String)

namespace Operation

/-- Whether an operation looks up a value. -/
def fetches : Operation → Bool
  | .get _ _ | .getRaw _ => true
  | .set _ _ _ | .setRaw _ _ _ | .exists _ | .ttl _ | .delete _ | .clear | .cleanup => false

/-- The entries that an operation displaces if it succeeds, without counting them. -/
def displaces (op : Operation) (c : Contents) : List Occurrence :=
  match op with
  | .set key _ _ | .setRaw key _ _ =>
    if (c.entries.get? key).isSome then [.replaced key] else []
  | .clear => c.entries.map fun p => .dropped p.1
  | .get _ _ | .getRaw _ | .exists _ | .ttl _ | .delete _ | .cleanup => []

end Operation

namespace Occurrence

def isReplacement : Occurrence → Bool
  | .replaced _ => true
  | .call _ _ | .dropped _ => false

def isDrop : Occurrence → Bool
  | .dropped _ => true
  | .call _ _ | .replaced _ => false

/-- A value was looked up, and the answer was not that the cache is closed. -/
def isLookup : Occurrence → Bool
  | .call _ (.error .closed) => false
  | .call op _ => op.fetches
  | .replaced _ | .dropped _ => false

/-- A value could not be encoded or decoded, or was too large. -/
def isFailure : Occurrence → Bool
  | .call _ (.error (.serialization _)) | .call _ (.error (.entryTooLarge _ _)) => true
  | .call _ _ | .replaced _ | .dropped _ => false

end Occurrence

namespace Store

/-- What there is to note about a call at some contents. -/
def notes (c : Contents) (op : Operation) (answer : Except CacheError Answer) : List Occurrence :=
  .call op answer :: if answer.isOk then op.displaces c else []

/-- What there is to note about a turn. -/
def occurrences (s : Store) (now : Nat) : StoreTurn → List Occurrence
  | .perform op => notes s.contents op (s.perform now op).1
  | .performOpened op => notes s.contents op (s.performOpened now op).1
  | .reset => Operation.clear.displaces s.contents
  | .purge | .removeIfExpired _ | .markClosed => []

/-- The notes on a run. -/
def journal (s : Store) (turns : List (Nat × StoreTurn)) : List Occurrence :=
  runReports after occurrences s turns

end Store

/-! ## How many entries leave -/

namespace Contents

variable {c : Contents}

theorem Coherent.length_remove (h : c.Coherent) {key : String} {e : Entry}
    (he : c.entries.get? key = some e) :
    (c.remove key).2.entries.length + 1 = c.entries.length := by
  rw [remove_of_some he]
  exact Table.length_erase h.distinct he

theorem Coherent.length_remove_add (h : c.Coherent) (key : String) :
    (c.remove key).2.entries.length + (if (c.entries.get? key).isSome then 1 else 0) =
      c.entries.length := by
  cases he : c.entries.get? key with
  | none => rw [remove_of_none he]; rfl
  | some e => exact h.length_remove he

theorem Coherent.length_makeRoom (h : c.Coherent) (budget size : Nat) :
    (c.makeRoom budget size).1 + (c.makeRoom budget size).2.entries.length = c.entries.length := by
  obtain ⟨hrecords, hcount⟩ := h.records_makeRoom budget size
  rw [← (h.makeRoom budget size).length_records, hrecords, hcount, h.length_records]

/-- A write adds an entry; the others that were there have been replaced or evicted. -/
theorem Coherent.length_write (h : c.Coherent) (budget now : Nat) (key : String)
    (payload : ByteArray) (ttl : Option Duration) :
    (c.write budget now key payload ttl).2.entries.length + (c.write budget now key payload ttl).1 +
        (if (c.entries.get? key).isSome then 1 else 0) = c.entries.length + 1 := by
  have hrem := h.remove key
  have hnone := get?_makeRoom_of_none hrem budget payload.size (get?_remove_self c key)
  have hremove := h.length_remove_add key
  have hroom := hrem.length_makeRoom budget payload.size
  have hwrite : (c.write budget now key payload ttl).2.entries.length =
      ((c.remove key).2.makeRoom budget payload.size).2.entries.length + 1 :=
    Table.length_insert hnone _
  have hevicted : (c.write budget now key payload ttl).1 =
      ((c.remove key).2.makeRoom budget payload.size).1 := rfl
  omega

theorem Coherent.length_purge_add (h : c.Coherent) (now : Nat) :
    (c.purge now).2.entries.length + (c.purge now).1 = c.entries.length := by
  have hpurged : (c.purge now).2.records.length = (c.purge now).2.entries.length :=
    (h.removeAll (c.expiredKeys now)).length_records
  have hle := List.length_filter_le (fun r : Record => r.isLiveAt now) c.records
  rw [← hpurged, h.records_purge, h.length_purge, ← h.length_records]
  omega

end Contents

/-! ## The balance -/

/-- How many entries have left by a route that is counted. -/
def CacheTally.left (t : CacheTally) : Nat := t.deletes + t.evictions + t.expirations

theorem CacheTally.left_delete (t : CacheTally) (n : Nat) : (t.delete n).left = t.left + n := by
  simp only [left, delete]
  omega

theorem CacheTally.left_expired (t : CacheTally) (n : Nat) : (t.expired n).left = t.left + n := by
  simp only [left, expired]
  omega

namespace Store

variable {budget : Nat} {s s' s'' : Store} {report report' : List Occurrence}

/-- From one store to the other, the counters have moved by what was noted. -/
structure Accounts (s s' : Store) (report : List Occurrence) : Prop where
  /-- What was stored is there in addition, or has left. -/
  entries : s'.tally.sets + s.size + s.tally.left =
    s.tally.sets + s'.size + s'.tally.left + report.countP Occurrence.isReplacement +
      report.countP Occurrence.isDrop
  lookups : s'.tally.hits + s'.tally.misses =
    s.tally.hits + s.tally.misses + report.countP Occurrence.isLookup
  failures : s'.tally.errors = s.tally.errors + report.countP Occurrence.isFailure

namespace Accounts

theorem refl (s : Store) : s.Accounts s [] := ⟨rfl, rfl, rfl⟩

theorem trans (h : s.Accounts s' report) (h' : s'.Accounts s'' report') :
    s.Accounts s'' (report ++ report') := by
  obtain ⟨hentries, hlookups, hfailures⟩ := h
  obtain ⟨hentries', hlookups', hfailures'⟩ := h'
  refine ⟨?_, ?_, ?_⟩ <;> rw [List.countP_append]
  · rw [List.countP_append]
    omega
  · omega
  · omega

/-- A call that is neither a lookup nor a failure moves no counter by itself. -/
theorem note (h : s.Accounts s' report) {op : Operation} {answer : Except CacheError Answer}
    (hlookup : Occurrence.isLookup (.call op answer) = false)
    (hfailure : Occurrence.isFailure (.call op answer) = false) :
    s.Accounts s' (.call op answer :: report) := by
  obtain ⟨hentries, hlookups, hfailures⟩ := h
  refine ⟨?_, ?_, ?_⟩
  · simpa [Occurrence.isReplacement, Occurrence.isDrop] using hentries
  · simpa [hlookup] using hlookups
  · simpa [hfailure] using hfailures

theorem refused (s : Store) (op : Operation) : s.Accounts s [.call op (.error .closed)] :=
  note (refl s) rfl rfl

theorem fail (s : Store) {op : Operation} {e : CacheError}
    (hlookup : Occurrence.isLookup (.call op (.error e)) = false)
    (hfailure : Occurrence.isFailure (.call op (.error e)) = true) :
    s.Accounts { s with tally := s.tally.error 1 } [.call op (.error e)] := by
  refine ⟨?_, ?_, ?_⟩
  · simp [Occurrence.isReplacement, Occurrence.isDrop, CacheTally.error, CacheTally.left, size]
  · simp [hlookup, CacheTally.error]
  · simp [hfailure, CacheTally.error]

theorem write (hs : s.Sound budget) (now : Nat) (key : String) (payload : ByteArray)
    (ttl : Option Duration) :
    s.Accounts
      { s with
        contents := (s.contents.write s.budget now key payload ttl).2
        tally := (s.tally.set 1).evicted (s.contents.write s.budget now key payload ttl).1 }
      (if (s.contents.entries.get? key).isSome then [.replaced key] else []) := by
  have hlength := hs.coherent.length_write s.budget now key payload ttl
  split at hlength
  · rename_i hstored
    rw [if_pos hstored]
    refine ⟨?_, rfl, rfl⟩
    simp [Occurrence.isReplacement, Occurrence.isDrop, CacheTally.left, CacheTally.set,
      CacheTally.evicted, size]
    omega
  · rename_i hstored
    rw [if_neg hstored]
    refine ⟨?_, rfl, rfl⟩
    simp [CacheTally.left, CacheTally.set, CacheTally.evicted, size]
    omega

/-- Entries that are deleted or expired are taken out and counted. -/
theorem remove {c : Contents} {tally : CacheTally} {n : Nat}
    (hlength : c.entries.length + n = s.size) (hleft : tally.left = s.tally.left + n)
    (hsets : tally.sets = s.tally.sets) (hhits : tally.hits = s.tally.hits)
    (hmisses : tally.misses = s.tally.misses) (herrors : tally.errors = s.tally.errors) :
    s.Accounts { s with contents := c, tally := tally } [] := by
  refine ⟨?_, ?_, herrors⟩
  · show tally.sets + s.size + s.tally.left = s.tally.sets + c.entries.length + tally.left + 0 + 0
    omega
  · show tally.hits + tally.misses = _ + 0
    omega

theorem purge (hs : s.Sound budget) (now : Nat) : s.Accounts (s.purge now).2 [] :=
  remove (hs.coherent.length_purge_add now) (s.tally.left_expired _) rfl rfl rfl rfl

theorem removeIfExpired (hs : s.Sound budget) (now : Nat) (key : String) :
    s.Accounts (s.removeIfExpired now key) [] := by
  unfold Store.removeIfExpired
  split
  · exact refl s
  · rename_i e he
    split
    · exact remove (hs.coherent.length_remove he) (s.tally.left_expired 1) rfl rfl rfl rfl
    · exact refl s

/-- All entries are dropped. -/
theorem drop (hempty : s'.contents.entries = []) (htally : s'.tally = s.tally) :
    s.Accounts s' (Operation.clear.displaces s.contents) := by
  have hall {P : Occurrence → Bool} (hP : ∀ key, P (.dropped key) = true) :
      (Operation.clear.displaces s.contents).countP P = s.size := by
    rw [Operation.displaces, List.countP_map]
    exact List.countP_eq_length.mpr fun p _ => hP p.1
  have hnone {P : Occurrence → Bool} (hP : ∀ key, P (.dropped key) = false) :
      (Operation.clear.displaces s.contents).countP P = 0 := by
    rw [Operation.displaces, List.countP_map]
    exact List.countP_eq_zero.mpr fun p _ => by simp [hP p.1]
  have hsize : s'.size = 0 := by rw [size, hempty]; rfl
  have hreplaced := hnone (P := Occurrence.isReplacement) fun _ => rfl
  have hdropped := hall (P := Occurrence.isDrop) fun _ => rfl
  have hlookups := hnone (P := Occurrence.isLookup) fun _ => rfl
  have hfailures := hnone (P := Occurrence.isFailure) fun _ => rfl
  refine ⟨?_, ?_, ?_⟩
  · rw [htally, hsize, hreplaced, hdropped]
    omega
  · rw [htally, hlookups]
    rfl
  · rw [htally, hfailures]
    rfl

theorem lookup {op : Operation} {answer : Except CacheError Answer} {tally : CacheTally}
    (hlookup : Occurrence.isLookup (.call op answer) = true)
    (hcounted : tally.hits + tally.misses = s.tally.hits + s.tally.misses + 1)
    (herrors : tally.errors =
      s.tally.errors + [Occurrence.call op answer].countP Occurrence.isFailure)
    (hsets : tally.sets = s.tally.sets) (hleft : tally.left = s.tally.left) :
    s.Accounts { s with tally := tally } [.call op answer] := by
  refine ⟨?_, ?_, herrors⟩
  · simp [Occurrence.isReplacement, Occurrence.isDrop, hsets, hleft, size]
  · simp [hlookup, hcounted]

end Accounts

/-! ## Operations -/

theorem isLookup_of_not_fetches {op : Operation} (h : op.fetches = false)
    (answer : Except CacheError Answer) : Occurrence.isLookup (.call op answer) = false := by
  unfold Occurrence.isLookup
  split
  · rfl
  · rename_i heq
    cases heq
    exact h
  · rfl
  · rfl

theorem accounts_setRaw (hs : s.Sound budget) (now : Nat) (key : String) (payload : ByteArray)
    (ttl : Option Duration) {op : Operation} (hop : op.fetches = false)
    (hdisplaces : op.displaces s.contents =
      if (s.contents.entries.get? key).isSome then [.replaced key] else []) :
    s.Accounts (s.setRaw now key payload ttl).2
      (notes s.contents op (s.setRaw now key payload ttl).1) := by
  unfold setRaw
  split
  · exact .fail s (isLookup_of_not_fetches hop _) rfl
  · split
    · exact .refused s op
    · have hwrite := Accounts.write hs now key payload ttl
      rw [← hdisplaces] at hwrite
      exact hwrite.note (isLookup_of_not_fetches hop _) rfl

theorem accounts_miss (s : Store) (key : String) {op : Operation} (hop : op.fetches = true) :
    s.Accounts { s with tally := s.tally.miss 1 } [.call op (.error (.notFound key))] := by
  have hcounted : (s.tally.miss 1).hits + (s.tally.miss 1).misses =
      s.tally.hits + s.tally.misses + 1 := rfl
  exact .lookup hop hcounted rfl rfl rfl

theorem accounts_hit (s : Store) {op : Operation} {answer : Except CacheError Answer}
    (hlookup : Occurrence.isLookup (.call op answer) = true)
    (hfailure : Occurrence.isFailure (.call op answer) = false) :
    s.Accounts { s with tally := s.tally.hit 1 } [.call op answer] := by
  have hcounted : (s.tally.hit 1).hits + (s.tally.hit 1).misses =
      s.tally.hits + s.tally.misses + 1 := by
    simp only [CacheTally.hit]
    omega
  exact .lookup hlookup hcounted (by simp [hfailure, CacheTally.hit]) rfl rfl

theorem accounts_getRaw (s : Store) (now : Nat) (key : String) :
    s.Accounts (s.getRaw now key).2
      (notes s.contents (.getRaw key) ((s.getRaw now key).1.map .payload)) := by
  unfold getRaw
  cases s.contents.live? now key with
  | none => exact s.accounts_miss key rfl
  | some e => exact s.accounts_hit rfl rfl

/-- What cannot be decoded was found all the same: it counts as a hit and as an error. -/
theorem accounts_get (s : Store) (now : Nat) (key : String) (reader : Json.Reader Json.Value) :
    s.Accounts (s.get now key reader).2
      (notes s.contents (.get key reader) (s.get now key reader).1) := by
  unfold get getRaw
  cases s.contents.live? now key with
  | none => exact s.accounts_miss key rfl
  | some e =>
    dsimp only
    cases Json.decode reader e.payload.data.toList with
    | ok v => exact s.accounts_hit rfl rfl
    | error fault =>
      have hcounted : ((s.tally.hit 1).error 1).hits + ((s.tally.hit 1).error 1).misses =
          s.tally.hits + s.tally.misses + 1 := by
        simp only [CacheTally.hit, CacheTally.error]
        omega
      exact .lookup rfl hcounted rfl rfl rfl

theorem accounts_delete (hs : s.Sound budget) (key : String) :
    s.Accounts (s.delete key).2 (notes s.contents (.delete key) (s.delete key).1) := by
  unfold delete
  cases he : s.contents.entries.get? key with
  | none =>
    rw [Contents.remove_of_none he]
    exact .note (.refl s) rfl rfl
  | some e =>
    have hremoved : s.Accounts
        { s with contents := (s.contents.remove key).2, tally := s.tally.delete 1 } [] :=
      .remove (hs.coherent.length_remove he) (s.tally.left_delete 1) rfl rfl rfl rfl
    rw [Contents.remove_of_some he] at hremoved ⊢
    exact hremoved.note rfl rfl

theorem accounts_clear (s : Store) :
    s.Accounts { s with contents := s.contents.clear } (notes s.contents .clear (.ok .done)) := by
  have hdropped : s.Accounts { s with contents := s.contents.clear } _ := .drop rfl rfl
  exact hdropped.note rfl rfl

theorem accounts_performOpened (hs : s.Sound budget) (now : Nat) (op : Operation) :
    s.Accounts (s.performOpened now op).2 (notes s.contents op (s.performOpened now op).1) := by
  cases op with
  | set key encoded ttl =>
    cases encoded with
    | error fault => exact .fail s rfl rfl
    | ok payload => exact accounts_setRaw hs now key payload ttl rfl rfl
  | setRaw key payload ttl => exact accounts_setRaw hs now key payload ttl rfl rfl
  | get key reader => exact s.accounts_get now key reader
  | getRaw key => exact s.accounts_getRaw now key
  | «exists» key => exact .note (.refl s) rfl rfl
  | ttl key =>
    simp only [performOpened]
    split
    · exact .note (.refl s) rfl rfl
    · exact .note (.refl s) rfl rfl
  | delete key => exact accounts_delete hs key
  | clear => exact s.accounts_clear
  | cleanup => exact .note (.purge hs now) rfl rfl

/-- **Every turn moves the counters by what there is to note about it.** -/
theorem accounts_turn (hs : s.Sound budget) (now : Nat) (t : StoreTurn) :
    s.Accounts (s.after now t) (s.occurrences now t) := by
  cases t with
  | perform op =>
    simp only [after, turn, occurrences, perform]
    split
    · exact .refused s op
    · exact accounts_performOpened hs now op
  | performOpened op => exact accounts_performOpened hs now op
  | purge => exact .purge hs now
  | removeIfExpired key => exact .removeIfExpired hs now key
  | markClosed => exact ⟨rfl, rfl, rfl⟩
  | reset => exact .drop rfl rfl

/-! ## After every run -/

/-- **The counters of a store account for all that has happened to it.**

Whatever turns were taken, in whatever order and at whatever readings of the clock: all that was
ever stored is there or was deleted, evicted, taken out as expired, replaced by a write or dropped
with all others, and nothing has left twice; the hits and misses are the lookups that were answered
by an open cache; and the errors are the calls that failed because a value could not be encoded, could
not be decoded or was too large. -/
theorem counters_account (budget : Nat) (turns : List (Nat × StoreTurn)) :
    let s := (empty budget).run turns
    let noted := (empty budget).journal turns
    (s.tally.sets = s.size + s.tally.deletes + s.tally.evictions + s.tally.expirations +
      noted.countP Occurrence.isReplacement + noted.countP Occurrence.isDrop) ∧
    s.tally.hits + s.tally.misses = noted.countP Occurrence.isLookup ∧
    s.tally.errors = noted.countP Occurrence.isFailure := by
  intro s noted
  obtain ⟨-, hentries, hlookups, hfailures⟩ : s.Sound budget ∧ (empty budget).Accounts s noted :=
    runReports_induction occurrences
      (P := fun s past => Sound budget s ∧ (empty budget).Accounts s past)
      ⟨sound_run budget [], .refl _⟩
      (fun s past now t h => ⟨h.1.turn now t, h.2.trans (accounts_turn h.1 now t)⟩) turns
  have hzero : (empty budget).size = 0 := rfl
  have htally : (empty budget).tally = .zero := rfl
  simp only [htally, hzero, CacheTally.zero, CacheTally.left] at hentries hlookups hfailures
  refine ⟨?_, ?_, ?_⟩
  · omega
  · omega
  · omega

end Store

end BoundedResources
