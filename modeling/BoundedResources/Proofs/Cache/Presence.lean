import BoundedResources.Proofs.Cache.Coherence

/-!
# Whether a key is there

Four operations tell whether a key is there: somebody asks for its value, for its lifetime, whether
it exists, or has it deleted. The first three look for a live entry, and so they agree, whatever the
background work has done or has not got round to. A deletion only looks for an entry. It succeeds on
an expired one that nobody has removed so far, and so its answer tells whether the sweeper has come
by (`Store.delete_of_stale`).

**`Store.presence`** says that this is all there is to say: a deletion agrees with the others exactly
if there is no such entry, and removals of what is expired change no other answer and no answer to a
deletion but that.
-/

set_option autoImplicit false

namespace BoundedResources

namespace Store

variable {s s' s'' : Store} {now : Nat} {key : String}

/-- An expired entry of a key is still stored. -/
def Stale (s : Store) (now : Nat) (key : String) : Prop :=
  ∃ e, s.contents.entries.get? key = some e ∧ e.isExpiredAt now = true

/-- The second store is the first one without some of what was expired. -/
structure Thins (now : Nat) (s s' : Store) : Prop where
  closed : s'.closed = s.closed
  entry : ∀ key, s'.contents.entries.get? key = s.contents.entries.get? key ∨
    s.Stale now key ∧ s'.contents.entries.get? key = none

namespace Thins

theorem refl (now : Nat) (s : Store) : s.Thins now s := ⟨rfl, fun _ => .inl rfl⟩

theorem stale (h : s.Thins now s') (hs' : s'.Stale now key) : s.Stale now key := by
  obtain ⟨e, he, hexpired⟩ := hs'
  rcases h.entry key with hsame | ⟨hs, -⟩
  · exact ⟨e, hsame ▸ he, hexpired⟩
  · exact hs

theorem trans (h : s.Thins now s') (h' : s'.Thins now s'') : s.Thins now s'' := by
  refine ⟨h'.closed.trans h.closed, fun key => ?_⟩
  rcases h'.entry key with hsame | ⟨hs', hgone⟩
  · rw [hsame]
    exact h.entry key
  · exact .inr ⟨h.stale hs', hgone⟩

theorem live? (h : s.Thins now s') (key : String) :
    s'.contents.live? now key = s.contents.live? now key := by
  unfold Contents.live?
  rcases h.entry key with hsame | ⟨⟨e, he, hexpired⟩, hgone⟩
  · rw [hsame]
  · simp [hgone, he, Option.filter, hexpired]

theorem purge (hd : s.contents.entries.DistinctKeys) : s.Thins now (s.purge now).2 := by
  refine ⟨rfl, fun key => ?_⟩
  have hget : (s.purge now).2.contents.entries.get? key =
      if key ∈ s.contents.expiredKeys now then none else s.contents.entries.get? key :=
    Contents.get?_removeAll _ _ _
  rw [hget]
  split
  · rename_i hmem
    exact .inr ⟨(Contents.mem_expiredKeys_iff hd now key).mp hmem, rfl⟩
  · exact .inl rfl

theorem removeIfExpired (s : Store) (now : Nat) (key : String) :
    s.Thins now (s.removeIfExpired now key) := by
  refine ⟨(s.sameFrame_removeIfExpired now key).closed, fun other => ?_⟩
  unfold Store.removeIfExpired
  split
  · exact .inl rfl
  · rename_i e he
    split
    · rename_i hexpired
      rw [Contents.get?_remove]
      split
      · rename_i hkey
        exact .inr ⟨⟨e, hkey ▸ he, hexpired⟩, rfl⟩
      · exact .inl rfl
    · exact .inl rfl

theorem of_contents (hclosed : s'.closed = s.closed) (hcontents : s'.contents = s.contents) :
    s.Thins now s' :=
  ⟨hclosed, fun key => .inl (congrArg (fun c => c.entries.get? key) hcontents)⟩

theorem performOpened {budget : Nat} (hs : s.Sound budget) {op : Operation}
    (hop : op.keepsLive = true) : s.Thins now (s.performOpened now op).2 := by
  have hclosed := (s.sameFrame_performOpened now op).closed
  cases op with
  | get key reader => exact of_contents hclosed (s.contents_get now key reader)
  | getRaw key => exact of_contents hclosed (s.contents_getRaw now key)
  | «exists» key => exact refl now s
  | ttl key =>
    refine of_contents hclosed ?_
    rw [Store.performOpened]
    split <;> rfl
  | cleanup => exact purge hs.coherent.distinct
  | set | setRaw | delete | clear => cases hop

theorem turn {budget : Nat} (hs : s.Sound budget) {t : StoreTurn} (ht : t.keepsLive = true) :
    s.Thins now (s.turn now t).2 := by
  cases t with
  | perform op =>
    simp only [Store.turn, perform]
    split
    · exact refl now s
    · exact performOpened hs ht
  | performOpened op => exact performOpened hs ht
  | purge => exact purge hs.coherent.distinct
  | removeIfExpired key => exact removeIfExpired s now key
  | markClosed | reset => cases ht

/-- **Background work thins a store out.** -/
theorem run {budget : Nat} (hs : s.Sound budget) {removals : List StoreTurn}
    (hremovals : ∀ t ∈ removals, t.removesExpired = true) :
    s.Thins now (s.run (removals.map fun t => (now, t))) := by
  induction removals generalizing s with
  | nil => exact refl now s
  | cons t rest ih =>
    obtain ⟨hfirst, hrest⟩ := List.forall_mem_cons.mp hremovals
    have hturn : s.Thins now (s.turn now t).2 :=
      turn hs (StoreTurn.keepsLive_of_removesExpired hfirst)
    exact hturn.trans (ih (hs.turn now t) hrest)

/-- The background work of a cache thins its store out. -/
theorem settle {budget : Nat} {c : Cache} (hs : c.store.Sound budget) (clock : Clock) :
    c.store.Thins clock.wallMillis (c.settle clock).store ∧
      (c.settle clock).store.Sound budget := by
  cases hsweeper : c.sweeper with
  | none =>
    rw [Cache.settle, hsweeper]
    exact ⟨refl _ _, hs⟩
  | some ticker =>
    rw [c.settle_eq_run clock hsweeper]
    exact ⟨run hs fun _ ht => removesExpired_of_mem_pendingChores ht, hs.run _⟩

end Thins

/-! ## Answers of an open store -/

theorem perform_of_open (h : s.closed = false) (now : Nat) (op : Operation) :
    s.perform now op = s.performOpened now op :=
  if_neg (by simp [h])

theorem isOk_getRaw (s : Store) (now : Nat) (key : String) :
    (s.performOpened now (.getRaw key)).1.isOk = (s.contents.live? now key).isSome := by
  simp only [performOpened, getRaw]
  cases s.contents.live? now key <;> rfl

theorem isOk_ttl (s : Store) (now : Nat) (key : String) :
    (s.performOpened now (.ttl key)).1.isOk = (s.contents.live? now key).isSome := by
  simp only [performOpened]
  cases s.contents.live? now key <;> rfl

theorem delete_fst (s : Store) (key : String) :
    (s.delete key).1 =
      if (s.contents.entries.get? key).isSome then .ok .done else .error (.notFound key) := by
  unfold delete
  cases he : s.contents.entries.get? key with
  | none => rw [Contents.remove_of_none he]; rfl
  | some e => rw [Contents.remove_of_some he]; rfl

theorem isOk_delete (s : Store) (key : String) :
    (s.delete key).1.isOk = (s.contents.entries.get? key).isSome := by
  rw [delete_fst]
  cases s.contents.entries.get? key <;> rfl

/-- A deletion fares differently exactly if the entry that it would find is gone. -/
theorem Thins.delete_eq_iff (h : s.Thins now s') (key : String) :
    (s'.delete key).1 = (s.delete key).1 ↔ (s.Stale now key → s'.Stale now key) := by
  rw [delete_fst, delete_fst]
  rcases h.entry key with hsame | ⟨hstale, hgone⟩
  · simp [Stale, hsame]
  · have ⟨e, he, _⟩ := hstale
    have hfresh : ¬ s'.Stale now key := by simp [Stale, hgone]
    simp [hgone, he, hstale, hfresh]

/-- What is stored under a key is live or stale. -/
theorem isSome_get?_iff (s : Store) (now : Nat) (key : String) :
    (s.contents.entries.get? key).isSome = true ↔
      (s.contents.live? now key).isSome = true ∨ s.Stale now key := by
  unfold Contents.live? Stale
  cases s.contents.entries.get? key with
  | none => simp
  | some e => cases hexpired : e.isExpiredAt now <;> simp [hexpired]

theorem not_stale_of_live (h : (s.contents.live? now key).isSome = true) : ¬ s.Stale now key := by
  rintro ⟨e, he, hexpired⟩
  simp [Contents.live?, he, hexpired] at h

/-- A deletion agrees with the lookups unless there is an expired entry to delete. -/
theorem delete_agrees_iff (s : Store) (now : Nat) (key : String) :
    ((s.delete key).1.isOk = true ↔ (s.contents.live? now key).isSome = true) ↔
      ¬ s.Stale now key := by
  rw [isOk_delete, isSome_get?_iff s now key]
  constructor
  · intro hagree hstale
    exact not_stale_of_live (hagree.mp (.inr hstale)) hstale
  · intro hfresh
    exact or_iff_left hfresh

end Store

/-- Whether an operation only looks a key up. -/
def Operation.looksUp : Operation → Bool
  | .get _ _ | .getRaw _ | .exists _ | .ttl _ => true
  | .set _ _ _ | .setRaw _ _ _ | .delete _ | .clear | .cleanup => false

namespace Store

variable {s s' : Store} {now : Nat}

/-- A lookup is answered from the live entries alone. -/
theorem performOpened_congr (hlive : ∀ key, s'.contents.live? now key = s.contents.live? now key)
    {op : Operation} (hop : op.looksUp = true) :
    (s'.performOpened now op).1 = (s.performOpened now op).1 := by
  cases op with
  | get key reader =>
    simp only [performOpened, get, getRaw, hlive key]
    cases s.contents.live? now key with
    | none => rfl
    | some e =>
      dsimp only
      cases Json.decode reader e.payload.data.toList <;> rfl
  | getRaw key =>
    simp only [performOpened, getRaw, hlive key]
    cases s.contents.live? now key <;> rfl
  | «exists» key => simp only [performOpened, hlive key]
  | ttl key =>
    simp only [performOpened, hlive key]
    cases s.contents.live? now key <;> rfl
  | set | setRaw | delete | clear | cleanup => cases hop

/-! ## Agreement -/

/-- **All but deletions agree on whether a key is there, and a deletion agrees with them exactly if
no expired entry of the key is stored.**

The answers are those of an open store after any turns, at any reading of the clock. The second half
is about the background work: whatever it removes at that moment, no lookup is answered in another
way, and a deletion is exactly if an expired entry of its key is among what has been removed. -/
theorem presence {budget : Nat} {turns : List (Nat × StoreTurn)} (now : Nat) (key : String)
    (hopen : ((empty budget).run turns).closed = false) :
    let s := (empty budget).run turns
    let found := (s.perform now (.exists key)).1 = .ok (.found true)
    (found ∨ (s.perform now (.exists key)).1 = .ok (.found false)) ∧
    ((s.perform now (.getRaw key)).1.isOk = true ↔ found) ∧
    ((s.perform now (.ttl key)).1.isOk = true ↔ found) ∧
    ((s.perform now (.delete key)).1.isOk = true ↔ found ∨ s.Stale now key) ∧
    (((s.perform now (.delete key)).1.isOk = true ↔ found) ↔ ¬ s.Stale now key) ∧
    ∀ removals : List StoreTurn, (∀ t ∈ removals, t.removesExpired = true) →
      let s' := s.run (removals.map fun t => (now, t))
      (∀ op : Operation, op.looksUp = true → (s'.perform now op).1 = (s.perform now op).1) ∧
      ((s'.perform now (.delete key)).1 = (s.perform now (.delete key)).1 ↔
        (s.Stale now key → s'.Stale now key)) := by
  intro s found
  have hsound : s.Sound budget := sound_run budget turns
  have hperform := fun op => s.perform_of_open hopen now op
  have hexists : (s.perform now (.exists key)).1 =
      .ok (.found (s.contents.live? now key).isSome) := by
    rw [hperform]
    rfl
  have hfound : found ↔ (s.contents.live? now key).isSome = true := by
    simp only [found, hexists, Except.ok.injEq, Answer.found.injEq]
  refine ⟨?_, ?_, ?_, ?_, ?_, fun removals hremovals => ?_⟩
  · cases hlive : (s.contents.live? now key).isSome with
    | true => exact .inl (hfound.mpr hlive)
    | false => exact .inr (by rw [hexists, hlive])
  · rw [hfound, hperform, isOk_getRaw]
  · rw [hfound, hperform, isOk_ttl]
  · rw [hfound, hperform, ← isSome_get?_iff, ← isOk_delete]
    rfl
  · rw [hfound, hperform]
    exact delete_agrees_iff s now key
  · have hthins : s.Thins now (s.run (removals.map fun t => (now, t))) := Thins.run hsound hremovals
    have hperform' := fun op => perform_of_open (hthins.closed.trans hopen) now op
    refine ⟨fun op hop => ?_, ?_⟩
    · rw [hperform, hperform']
      exact performOpened_congr hthins.live? hop
    · rw [hperform, hperform']
      exact hthins.delete_eq_iff key

/-- An entry with a lifetime of a second, two seconds after it was written: it is not there any
more, and can be deleted as long as the sweeper has not come by. -/
theorem presence_after_deadline :
    let turns := [(0, StoreTurn.perform (.setRaw "k" (.empty) (some (.ofSecs 1))))]
    let s := (empty 4096).run turns
    s.closed = false ∧ s.Stale 2000 "k" ∧
      ¬ ((s.perform 2000 (.delete "k")).1.isOk = true ↔
        (s.perform 2000 (.exists "k")).1 = .ok (.found true)) := by
  intro turns s
  have hopen : s.closed = false := rfl
  have hstale : s.Stale 2000 "k" := ⟨_, rfl, by decide +kernel⟩
  obtain ⟨-, -, -, -, hdelete, -⟩ := presence 2000 "k" hopen
  exact ⟨hopen, hstale, fun hagree => hdelete.mp hagree hstale⟩

/-- The entry of a key has expired a second ago: the key does not exist any more, and deleting it
succeeds. -/
theorem delete_of_stale :
    let s := (empty 4096).run [(0, .perform (.setRaw "k" (.empty) (some (.ofSecs 1))))]
    s.closed = false ∧ (s.perform 2000 (.exists "k")).1 = .ok (.found false) ∧
      (s.perform 2000 (.getRaw "k")).1 = .error (.notFound "k") ∧
      (s.perform 2000 (.ttl "k")).1 = .error (.notFound "k") ∧
      (s.perform 2000 (.delete "k")).1 = .ok .done := by
  exact ⟨rfl, rfl, rfl, rfl, rfl⟩

end Store

end BoundedResources
