import BoundedResources.Proofs.Cache.Accounting

/-!
# What a failed operation leaves behind

An operation that fails has often done something first: a value was encoded, an entry was found, a
payload was measured. None of it shows. `Store.Fails` lists the reasons for which an operation can
fail once it has found the store open, and **`Store.failures`** says that these are all of them, and
that the store is left with every entry, every deadline, the order of the writes and the sum of the
sizes as they were. Only counters have moved, and which ones depends on nothing but the kind of the
operation and of the error (`CacheTally.failed`).

The reasons are about the store under the lock: what is too large is turned away before the entry of
its key is dropped, and a value that cannot be decoded stays where it is.
-/

set_option autoImplicit false

namespace BoundedResources

/-- The payload that an operation writes. -/
def Operation.payload? : Operation → Option ByteArray
  | .set _ (.ok payload) _ | .setRaw _ payload _ => some payload
  | .set _ (.error _) _ | .get _ _ | .getRaw _ | .exists _ | .ttl _ | .delete _ | .clear
  | .cleanup => none

/-- The key whose live entry an operation cannot do without. -/
def Operation.needs? : Operation → Option String
  | .get key _ | .getRaw key | .ttl key => some key
  | .set _ _ _ | .setRaw _ _ _ | .exists _ | .delete _ | .clear | .cleanup => none

/-- What is counted when an operation fails. -/
def CacheTally.failed (t : CacheTally) (op : Operation) : CacheError → CacheTally
  | .entryTooLarge _ _ => t.error 1
  | .serialization _ => if op.fetches then (t.hit 1).error 1 else t.error 1
  | .notFound _ => if op.fetches then t.miss 1 else t
  | .closed | .invalidRequest _ => t

namespace Store

variable {s : Store} {now : Nat} {op : Operation} {e e' : CacheError} {payload : ByteArray}

/-- Why an operation fails that has found the store open. -/
inductive Fails (s : Store) (now : Nat) : Operation → CacheError → Prop where
  | unencoded (key : String) (fault : Json.Fault) (ttl : Option Duration) :
    Fails s now (.set key (.error fault) ttl) (.serialization fault)
  | tooLarge {op : Operation} {payload : ByteArray} (hop : op.payload? = some payload)
    (hsize : s.budget < payload.size) :
    Fails s now op (.entryTooLarge payload.size s.budget)
  /-- The store was closed while the write waited for the lock. -/
  | closed {op : Operation} {payload : ByteArray} (hop : op.payload? = some payload)
    (hsize : payload.size ≤ s.budget) (hclosed : s.closed = true) : Fails s now op .closed
  | undecoded {key : String} {reader : Json.Reader Json.Value} {entry : Entry}
    {fault : Json.Fault} (hlive : s.contents.live? now key = some entry)
    (hread : Json.decode reader entry.payload.data.toList = .error fault) :
    Fails s now (.get key reader) (.serialization fault)
  | missing {op : Operation} {key : String} (hop : op.needs? = some key)
    (hlive : s.contents.live? now key = none) : Fails s now op (.notFound key)
  | notStored {key : String} (hnone : s.contents.entries.get? key = none) :
    Fails s now (.delete key) (.notFound key)

theorem performOpened_of_payload (hop : op.payload? = some payload) :
    ∃ key ttl, ∀ (s : Store) now, s.performOpened now op = s.setRaw now key payload ttl := by
  cases op with
  | set key encoded ttl =>
    cases encoded with
    | error fault => cases hop
    | ok p =>
      cases hop
      exact ⟨key, ttl, fun _ _ => rfl⟩
  | setRaw key p ttl =>
    cases hop
    exact ⟨key, ttl, fun _ _ => rfl⟩
  | get | getRaw | «exists» | ttl | delete | clear | cleanup => cases hop

/-- **An operation that has a reason to fail does, and moves nothing but counters.** -/
theorem Fails.performOpened (h : s.Fails now op e) :
    s.performOpened now op = (.error e, { s with tally := s.tally.failed op e }) := by
  cases h with
  | unencoded => rfl
  | tooLarge hop hsize =>
    obtain ⟨key, ttl, hperform⟩ := performOpened_of_payload hop
    rw [hperform, setRaw, if_pos hsize]
    rfl
  | closed hop hsize hclosed =>
    obtain ⟨key, ttl, hperform⟩ := performOpened_of_payload hop
    rw [hperform, setRaw, if_neg (Nat.not_lt.mpr hsize), if_pos hclosed]
    rfl
  | undecoded hlive hread =>
    simp only [Store.performOpened, get, getRaw, hlive, hread]
    rfl
  | missing hop hlive =>
    cases op with
    | get | getRaw | ttl =>
      cases hop
      simp only [Store.performOpened, get, getRaw, hlive]
      rfl
    | set | setRaw | «exists» | delete | clear | cleanup => cases hop
  | notStored hnone =>
    simp only [Store.performOpened, delete, Contents.remove_of_none hnone]
    rfl

/-! ## No other reasons -/

/-- A reason settles the error, so it is enough to find one. -/
theorem Fails.of_error (h' : s.Fails now op e') (h : (s.performOpened now op).1 = .error e) :
    s.Fails now op e := by
  rw [h'.performOpened] at h
  cases h
  exact h'

theorem fails_of_payload (hop : op.payload? = some payload)
    (h : (s.performOpened now op).1 = .error e) : s.Fails now op e := by
  -- the size is looked at before the flag
  by_cases hsize : s.budget < payload.size
  · exact (Fails.tooLarge hop hsize).of_error h
  · by_cases hclosed : s.closed = true
    · exact (Fails.closed hop (Nat.not_lt.mp hsize) hclosed).of_error h
    · obtain ⟨key, ttl, hperform⟩ := performOpened_of_payload hop
      rw [hperform, setRaw, if_neg hsize, if_neg hclosed] at h
      cases h

/-- With the entry that it needs, an operation fails at most because it cannot decode it. -/
theorem fails_of_needs {key : String} (hop : op.needs? = some key)
    (h : (s.performOpened now op).1 = .error e) : s.Fails now op e := by
  cases hlive : s.contents.live? now key with
  | none => exact (Fails.missing hop hlive).of_error h
  | some entry =>
    cases op with
    | get key reader =>
      cases hop
      cases hread : Json.decode reader entry.payload.data.toList with
      | ok v =>
        simp only [performOpened, get, getRaw, hlive, hread] at h
        cases h
      | error fault => exact (Fails.undecoded hlive hread).of_error h
    | getRaw | ttl =>
      cases hop
      simp only [performOpened, getRaw, hlive] at h
      cases h
    | set | setRaw | «exists» | delete | clear | cleanup => cases hop

theorem fails_of_error (h : (s.performOpened now op).1 = .error e) : s.Fails now op e := by
  cases op with
  | set key encoded ttl =>
    cases encoded with
    | error fault => exact (Fails.unencoded key fault ttl).of_error h
    | ok payload => exact fails_of_payload rfl h
  | setRaw => exact fails_of_payload rfl h
  | get | getRaw | ttl => exact fails_of_needs rfl h
  | delete key =>
    cases hentry : s.contents.entries.get? key with
    | none => exact (Fails.notStored hentry).of_error h
    | some entry =>
      simp only [performOpened, delete, Contents.remove_of_some hentry] at h
      cases h
  | «exists» | clear | cleanup => cases h

theorem performOpened_error_iff :
    (s.performOpened now op).1 = .error e ↔ s.Fails now op e :=
  ⟨fails_of_error, fun h => by rw [h.performOpened]⟩

/-! ## Failures -/

/-- **An operation that fails leaves the store as it was, but for the counters of its failure.**

This is so for the half of an operation that works on the contents, whatever has happened to the
store since it was found open, and for an operation as a whole. A cache notes in addition which key
is to be looked at again. The reasons are all there are: if an operation has none, it does not
fail. -/
theorem failures (s : Store) (now : Nat) (op : Operation) (e : CacheError) :
    let left := { s with tally := s.tally.failed op e }
    ((s.performOpened now op).1 = .error e ↔ s.Fails now op e) ∧
    ((s.perform now op).1 = .error e ↔
      s.closed = true ∧ e = .closed ∨ s.closed = false ∧ s.Fails now op e) ∧
    ((s.performOpened now op).1 = .error e → (s.performOpened now op).2 = left) ∧
    ((s.perform now op).1 = .error e → (s.perform now op).2 = left) ∧
    ∀ (c : Cache) (clock : Clock), c.store = s → clock.wallMillis = now →
      (c.perform clock op).1 = .error e →
        (c.perform clock op).2 =
          ⟨left, c.flagged ++ (Cache.flags? s now op).toList, c.sweeper⟩ := by
  intro left
  have hopened (h : (s.performOpened now op).1 = .error e) : (s.performOpened now op).2 = left := by
    rw [(fails_of_error h).performOpened]
  have hwhole (h : (s.perform now op).1 = .error e) : (s.perform now op).2 = left := by
    by_cases hclosed : s.closed = true
    · rw [perform, if_pos hclosed] at h ⊢
      cases h
      rfl
    · rw [perform, if_neg hclosed] at h ⊢
      exact hopened h
  refine ⟨performOpened_error_iff, ?_, hopened, hwhole, ?_⟩
  · unfold perform
    cases hclosed : s.closed with
    | true => simp [eq_comm]
    | false => simp [performOpened_error_iff]
  · rintro c clock rfl rfl h
    show Cache.mk (c.store.perform clock.wallMillis op).2 _ _ = _
    rw [hwhole h]

/-- A payload that is larger than the budget is written under a key that has a value: it is turned
away, nothing is evicted, and the value is still there. -/
theorem failures_too_large :
    let s := (empty 4).run [(0, .perform (.setRaw "k" ⟨#[1, 2]⟩ none))]
    let tried := s.perform 1 (.setRaw "k" ⟨#[3, 4, 5, 6, 7]⟩ none)
    tried.1 = .error (.entryTooLarge 5 4) ∧
      tried.2 = { s with tally := s.tally.error 1 } ∧
      (tried.2.perform 1 (.getRaw "k")).1 = .ok (.payload ⟨#[1, 2]⟩) := by
  intro s tried
  have htried : tried.1 = .error (.entryTooLarge 5 4) := rfl
  obtain ⟨-, -, -, hleft, -⟩ :=
    failures s 1 (.setRaw "k" ⟨#[3, 4, 5, 6, 7]⟩ none) (.entryTooLarge 5 4)
  exact ⟨htried, hleft htried, rfl⟩

end Store

end BoundedResources
