import BoundedResources.Proofs.Cache.Coherence

/-!
# Closing a cache is final

An operation looks at the flag first and takes the lock afterwards, and whoever closes the cache
sets the flag, stops the sweeper and drops the contents, one after the other. So an operation that
has found the store open may get the lock at any time later, when the cache is being closed or was
closed long ago. `Traffic` is a store in the midst of all that: any number of errands, each with
its next step ahead of it, and the closer somewhere on its way. Its turns are the steps, in any
order, and to the store they are turns as any others (`Traffic.reaches_run`).

**`Traffic.flag_is_final`** says that the order does not matter once the flag is set. What makes
it true is the second look of a write, which it takes with the lock in its hands: the only errands
that still find the contents are those that take something out of them (`Store.StaysClosed`), and so
what the closer has dropped does not come back.
-/

set_option autoImplicit false

namespace BoundedResources

/-! ## Errands -/

/-- An operation on its way. -/
inductive Errand where
  /-- It is about to look at the flag. -/
  | look (op : Operation)
  /-- It has found the store open and waits for the lock. -/
  | lock (op : Operation)

/-- What comes of a step of an errand. -/
inductive Progress where
  | onward (e : Errand)
  | ended (answer : Except CacheError Answer)

def Store.finish (s : Store) (now : Nat) (op : Operation) : Progress × Store :=
  let (r, s) := s.performOpened now op
  (.ended r, s)

/-- An operation has found the store open. An encoded value is written like any other payload, from
the look at the flag on. What cannot be encoded or is too large is refused without the lock. -/
def Store.letIn (s : Store) (now : Nat) : Operation → Progress × Store
  | .set key (.ok payload) ttl => (.onward (.look (.setRaw key payload ttl)), s)
  | .set key (.error fault) ttl => s.finish now (.set key (.error fault) ttl)
  | .setRaw key payload ttl =>
    if s.budget < payload.size then s.finish now (.setRaw key payload ttl)
    else (.onward (.lock (.setRaw key payload ttl)), s)
  | op => (.onward (.lock op), s)

/-- The next step of an errand. -/
def Errand.step (s : Store) (now : Nat) : Errand → Progress × Store
  | .look op => if s.closed then (.ended (.error .closed), s) else s.letIn now op
  | .lock op => s.finish now op

/-- What an errand comes to that nobody gets in the way of. -/
inductive Errand.Completes (now : Nat) : Store → Errand → Except CacheError Answer × Store → Prop
  | ended {s s' : Store} {e : Errand} {r : Except CacheError Answer}
    (h : e.step s now = (.ended r, s')) : Completes now s e (r, s')
  | onward {s s' : Store} {e e' : Errand} {ended : Except CacheError Answer × Store}
    (h : e.step s now = (.onward e', s')) (h' : Completes now s' e' ended) : Completes now s e ended

namespace Errand

theorem completes_lock (s : Store) (now : Nat) (op : Operation) :
    (Errand.lock op).Completes now s (s.performOpened now op) :=
  .ended rfl

theorem step_look_of_closed {s : Store} (h : s.closed = true) (now : Nat) (op : Operation) :
    (Errand.look op).step s now = (.ended (.error .closed), s) :=
  if_pos h

theorem step_look_of_open {s : Store} (h : s.closed = false) (now : Nat) (op : Operation) :
    (Errand.look op).step s now = s.letIn now op :=
  if_neg (by simp [h])

/-- From the look at the flag on, an errand that nobody gets in the way of is the operation. -/
theorem completes_look (s : Store) (now : Nat) (op : Operation) :
    (Errand.look op).Completes now s (s.perform now op) := by
  unfold Store.perform
  cases hclosed : s.closed with
  | true => exact .ended (step_look_of_closed hclosed now op)
  | false =>
    have hopen := step_look_of_open hclosed now
    have hwrite (key : String) (payload : ByteArray) (ttl : Option Duration) :
        (Errand.look (.setRaw key payload ttl)).Completes now s
          (s.performOpened now (.setRaw key payload ttl)) := by
      by_cases hsize : s.budget < payload.size
      · exact .ended ((hopen _).trans (if_pos hsize))
      · exact .onward ((hopen _).trans (if_neg hsize)) (completes_lock s now _)
    rw [if_neg (by simp)]
    cases op with
    | set key encoded ttl =>
      cases encoded with
      | error fault => exact .ended (hopen _)
      | ok payload => exact .onward (hopen _) (hwrite key payload ttl)
    | setRaw key payload ttl => exact hwrite key payload ttl
    | get | getRaw | «exists» | ttl | delete | clear | cleanup =>
      exact .onward (hopen _) (completes_lock s now _)

/-- What waits for the lock would fit, and is no value that has still to be encoded. -/
def Admitted (budget : Nat) : Errand → Prop
  | .look _ => True
  | .lock (.set _ _ _) => False
  | .lock (.setRaw _ payload _) => payload.size ≤ budget
  | .lock _ => True

theorem admitted_letIn {s s' : Store} {now : Nat} {op : Operation} {e : Errand}
    (h : s.letIn now op = (.onward e, s')) : e.Admitted s.budget := by
  cases op with
  | set key encoded ttl =>
    cases encoded with
    | error fault => cases h
    | ok payload =>
      cases h
      trivial
  | setRaw key payload ttl =>
    simp only [Store.letIn] at h
    split at h
    · cases h
    · rename_i hsize
      cases h
      exact Nat.le_of_not_lt hsize
  | get | getRaw | «exists» | ttl | delete | clear | cleanup =>
    cases h
    trivial

theorem admitted_step {s s' : Store} {now : Nat} {e e' : Errand}
    (h : e.step s now = (.onward e', s')) : e'.Admitted s.budget := by
  cases e with
  | lock op => cases h
  | look op =>
    cases hclosed : s.closed with
    | true =>
      rw [step_look_of_closed hclosed] at h
      cases h
    | false =>
      rw [step_look_of_open hclosed] at h
      exact admitted_letIn h

end Errand

/-! ## Traffic -/

/-- How far the closing of a cache has come. -/
inductive ClosingStage where
  | ahead
  /-- The flag is set, and the sweeper is told to stop. -/
  | stopping
  /-- The sweeper has stopped, and the lock is waited for. -/
  | resetting
  | finished
deriving DecidableEq

/-- A store with the errands at it and its closer. -/
structure Traffic where
  store : Store
  errands : List Errand
  stage : ClosingStage

/-- What happens in one turn. -/
inductive TrafficTurn where
  /-- Somebody begins an operation. -/
  | begin (op : Operation)
  /-- An errand takes its next step. -/
  | go (n : Nat)
  /-- Somebody gives an errand up. -/
  | abandon (n : Nat)
  /-- The sweeper removes what is expired. -/
  | sweep
  /-- The sweeper looks again at a key that a read found expired. -/
  | removeFlagged (key : String)
  /-- Somebody closes the cache. -/
  | close
  /-- The closer finds that the sweeper has stopped. -/
  | stopSweeper
  /-- The closer drops the contents. -/
  | reset

namespace Traffic

/-- Nobody is there yet. -/
def start (budget : Nat) : Traffic := ⟨.empty budget, [], .ahead⟩

/-- Whether the sweeper still runs. -/
def sweeping (t : Traffic) : Bool := t.stage = .ahead || t.stage = .stopping

/-- An errand is over. -/
def leave (t : Traffic) (n : Nat) : Traffic := { t with errands := t.errands.eraseIdx n }

/-- An errand takes its next step: what is answered if it ends with that, and what there is after
it. -/
def go (t : Traffic) (now n : Nat) : Option (Except CacheError Answer) × Traffic :=
  match t.errands[n]? with
  | none => (none, t)
  | some e =>
    match e.step t.store now with
    | (.onward e', s) => (none, { t with store := s, errands := t.errands.set n e' })
    | (.ended r, s) => (some r, { t.leave n with store := s })

/-- A turn at a wall clock reading `now`. -/
def turn (t : Traffic) (now : Nat) : TrafficTurn → Option (Except CacheError Answer) × Traffic
  | .begin op => (none, { t with errands := t.errands ++ [.look op] })
  | .go n => t.go now n
  | .abandon n => (none, t.leave n)
  | .sweep => (none, if t.sweeping then { t with store := (t.store.purge now).2 } else t)
  | .removeFlagged key =>
    (none, if t.sweeping then { t with store := t.store.removeIfExpired now key } else t)
  | .close =>
    (none, if t.store.closed then t else { t with store := t.store.markClosed, stage := .stopping })
  | .stopSweeper => (none, if t.stage = .stopping then { t with stage := .resetting } else t)
  | .reset =>
    (none,
      if t.stage = .resetting then { t with store := t.store.reset, stage := .finished } else t)

def after (t : Traffic) (now : Nat) (x : TrafficTurn) : Traffic := (t.turn now x).2

/-- The traffic after some turns, each with the reading of the clock at which it is taken. -/
def run (t : Traffic) (turns : List (Nat × TrafficTurn)) : Traffic := runTurns after t turns

variable {t t' : Traffic}

theorem go_cases (t : Traffic) (now n : Nat) :
    t.go now n = (none, t) ∨ ∃ e, t.errands[n]? = some e ∧
      ((∃ e' s, e.step t.store now = (.onward e', s) ∧
          t.go now n = (none, { t with store := s, errands := t.errands.set n e' })) ∨
        ∃ r s, e.step t.store now = (.ended r, s) ∧
          t.go now n = (some r, { t.leave n with store := s })) := by
  unfold go
  cases he : t.errands[n]? with
  | none => exact .inl rfl
  | some e =>
    refine .inr ⟨e, rfl, ?_⟩
    cases hstep : e.step t.store now with
    | mk progress s =>
      cases progress with
      | onward e' => exact .inl ⟨e', s, rfl, by simp only [hstep]⟩
      | ended r => exact .inr ⟨r, s, rfl, by simp only [hstep]⟩

theorem go_of_ended {n : Nat} {e : Errand} {r : Except CacheError Answer} {s : Store} {now : Nat}
    (he : t.errands[n]? = some e) (hstep : e.step t.store now = (.ended r, s)) :
    t.go now n = (some r, { t.leave n with store := s }) := by
  unfold go
  simp only [he, hstep]

/-- A step that an errand takes is a turn at the store, if it touches it. -/
theorem reaches_step (s : Store) (now : Nat) (e : Errand) : s.Reaches (e.step s now).2 := by
  have hfinish (op : Operation) : s.Reaches (s.finish now op).2 :=
    s.reaches_turn now (.performOpened op)
  cases e with
  | lock op => exact hfinish op
  | look op =>
    cases hclosed : s.closed with
    | true =>
      rw [Errand.step_look_of_closed hclosed]
      exact .refl s
    | false =>
      rw [Errand.step_look_of_open hclosed]
      unfold Store.letIn
      split
      · exact .refl s
      · exact hfinish _
      · split
        · exact hfinish _
        · exact .refl s
      · exact .refl s

/-- **To the store, each turn is some turns or none.** -/
theorem reaches_turn (t : Traffic) (now : Nat) (x : TrafficTurn) :
    t.store.Reaches (t.after now x).store := by
  cases x with
  | begin op => exact .refl _
  | abandon n => exact .refl _
  | go n =>
    obtain hgo | ⟨e, -, ⟨e', s, hstep, hgo⟩ | ⟨r, s, hstep, hgo⟩⟩ := t.go_cases now n
    · simp only [after, turn, hgo]
      exact .refl _
    · have hreaches := reaches_step t.store now e
      simp only [after, turn, hgo]
      rwa [hstep] at hreaches
    · have hreaches := reaches_step t.store now e
      simp only [after, turn, hgo]
      rwa [hstep] at hreaches
  | sweep =>
    simp only [after, turn]
    split
    · exact t.store.reaches_turn now .purge
    · exact .refl _
  | removeFlagged key =>
    simp only [after, turn]
    split
    · exact t.store.reaches_turn now (.removeIfExpired key)
    · exact .refl _
  | close =>
    simp only [after, turn]
    split
    · exact .refl _
    · exact t.store.reaches_turn now .markClosed
  | stopSweeper =>
    simp only [after, turn]
    split <;> exact .refl _
  | reset =>
    simp only [after, turn]
    split
    · exact t.store.reaches_turn now .reset
    · exact .refl _

/-- So what holds of a store after every run of its own turns holds in all traffic. -/
theorem reaches_run (budget : Nat) (turns : List (Nat × TrafficTurn)) :
    (Store.empty budget).Reaches ((start budget).run turns).store :=
  runTurns_induction (P := fun t : Traffic => (Store.empty budget).Reaches t.store) (.refl _)
    (fun t now x h => h.trans (t.reaches_turn now x)) turns

/-- A closer that nobody gets in the way of closes the store. -/
theorem close_alone (hopen : t.store.closed = false) (a b c : Nat) :
    (t.run [(a, .close), (b, .stopSweeper), (c, .reset)]).store = t.store.close := by
  simp [run, runTurns, after, turn, hopen, Store.close]

end Traffic

/-! ## What a closed store keeps -/

namespace Store

/-- The store was closed in the one state, and in the other it has lost entries, if anything: there
is none that was not there before, and none was counted as stored. -/
structure StaysClosed (s s' : Store) : Prop where
  closed : s'.closed = true
  budget : s'.budget = s.budget
  sets : s'.tally.sets = s.tally.sets
  entries : ∀ key e, s'.contents.entries.get? key = some e → s.contents.entries.get? key = some e
  empty : s.contents = .empty → s'.contents = .empty

variable {s s' s'' : Store}

namespace StaysClosed

theorem refl (h : s.closed = true) : s.StaysClosed s := ⟨h, rfl, rfl, fun _ _ he => he, id⟩

theorem trans (h : s.StaysClosed s') (h' : s'.StaysClosed s'') : s.StaysClosed s'' where
  closed := h'.closed
  budget := h'.budget.trans h.budget
  sets := h'.sets.trans h.sets
  entries key e he := h.entries key e (h'.entries key e he)
  empty hs := h'.empty (h.empty hs)

theorem counted {tally : CacheTally} (h : s.closed = true) (hsets : tally.sets = s.tally.sets) :
    s.StaysClosed { s with tally := tally } :=
  ⟨h, rfl, hsets, fun _ _ he => he, id⟩

theorem remove (h : s.closed = true) (key : String) (tally : CacheTally)
    (hsets : tally.sets = s.tally.sets) :
    s.StaysClosed { s with contents := (s.contents.remove key).2, tally := tally } := by
  refine ⟨h, rfl, hsets, fun k e he => ?_, fun hs => ?_⟩
  · cases hkey : s.contents.entries.get? key with
    | none => rwa [Contents.remove_of_none hkey] at he
    | some old =>
      rw [Contents.remove_of_some hkey] at he
      simp only [Table.get?_erase] at he
      split at he
      · cases he
      · exact he
  · simp only [hs]
    rfl

theorem removeAll (h : s.closed = true) (keys : List String) :
    s.StaysClosed
      { s with contents := keys.foldl (fun c key => (c.remove key).2) s.contents } := by
  induction keys generalizing s with
  | nil => exact refl h
  | cons key rest ih => exact (remove h key s.tally rfl).trans (ih (s := { s with contents := _ }) h)

theorem clear (h : s.closed = true) : s.StaysClosed { s with contents := s.contents.clear } := by
  refine ⟨h, rfl, rfl, fun k e he => ?_, fun hs => ?_⟩
  · simp [Contents.clear] at he
  · simp only [hs]
    rfl

theorem reset (h : s.closed = true) : s.StaysClosed s.reset := by
  refine ⟨h, rfl, rfl, fun k e he => ?_, fun _ => rfl⟩
  simp [Store.reset, Contents.empty] at he

theorem purge (h : s.closed = true) (now : Nat) : s.StaysClosed (s.purge now).2 :=
  (removeAll h (s.contents.expiredKeys now)).trans (counted h rfl)

theorem removeIfExpired (h : s.closed = true) (now : Nat) (key : String) :
    s.StaysClosed (s.removeIfExpired now key) := by
  unfold Store.removeIfExpired
  split
  · exact refl h
  · split
    · exact remove h key _ rfl
    · exact refl h

end StaysClosed

/-- **A write that gets the lock of a closed store changes nothing.** -/
theorem setRaw_of_closed (h : s.closed = true) (now : Nat) (key : String) {payload : ByteArray}
    (hsize : payload.size ≤ s.budget) (ttl : Option Duration) :
    s.setRaw now key payload ttl = (.error .closed, s) := by
  unfold setRaw
  rw [if_neg (Nat.not_lt.mpr hsize), if_pos h]

theorem staysClosed_setRaw (h : s.closed = true) (now : Nat) (key : String) (payload : ByteArray)
    (ttl : Option Duration) : s.StaysClosed (s.setRaw now key payload ttl).2 := by
  by_cases hsize : payload.size ≤ s.budget
  · rw [setRaw_of_closed h now key hsize ttl]
    exact .refl h
  · unfold setRaw
    rw [if_pos (Nat.lt_of_not_le hsize)]
    exact .counted h rfl

theorem staysClosed_getRaw (h : s.closed = true) (now : Nat) (key : String) :
    s.StaysClosed (s.getRaw now key).2 := by
  unfold getRaw
  split
  · exact .counted h rfl
  · exact .counted h rfl

theorem staysClosed_get (h : s.closed = true) (now : Nat) (key : String)
    (reader : Json.Reader Json.Value) : s.StaysClosed (s.get now key reader).2 := by
  have hraw := staysClosed_getRaw h now key
  unfold get
  cases hr : s.getRaw now key with
  | mk r s' =>
    rw [hr] at hraw
    cases r with
    | error e => exact hraw
    | ok payload =>
      simp only
      split
      · exact hraw
      · exact hraw.trans (.counted hraw.closed rfl)

/-- **Whatever finds a store open that is closed by the time it gets the lock, no entry comes of
it.** -/
theorem staysClosed_performOpened (h : s.closed = true) (now : Nat) (op : Operation) :
    s.StaysClosed (s.performOpened now op).2 := by
  cases op with
  | set key encoded ttl =>
    cases encoded with
    | error fault => exact .counted h rfl
    | ok payload => exact staysClosed_setRaw h now key payload ttl
  | setRaw key payload ttl => exact staysClosed_setRaw h now key payload ttl
  | get key reader => exact staysClosed_get h now key reader
  | getRaw key => exact staysClosed_getRaw h now key
  | «exists» key => exact .refl h
  | ttl key =>
    simp only [performOpened]
    split <;> exact .refl h
  | delete key =>
    simp only [performOpened, delete]
    split
    · exact .refl h
    · rename_i contents hremove
      have hgone := StaysClosed.remove h key (s.tally.delete 1) rfl
      rwa [hremove] at hgone
  | clear => exact .clear h
  | cleanup => exact .purge h now

end Store

/-! ## Traffic at a closed store -/

namespace Traffic

variable {t t' t'' : Traffic} {budget : Nat}

/-- The flag, the closer and the errands fit together. -/
structure Sound (budget : Nat) (t : Traffic) : Prop where
  flag : t.stage ≠ .ahead → t.store.closed = true
  dropped : t.stage = .finished → t.store.contents = .empty
  budget_eq : t.store.budget = budget
  admitted : ∀ e ∈ t.errands, e.Admitted budget

theorem sound_start (budget : Nat) : (start budget).Sound budget :=
  ⟨fun h => absurd rfl h, (fun h => nomatch h), rfl, (fun _ he => nomatch he)⟩

/-- The step of an errand is nothing to the flag, and if the store is closed it stays so. -/
theorem keeps_step (s : Store) (now : Nat) (e : Errand) :
    s.SameFrame (e.step s now).2 ∧ (s.closed = true → s.StaysClosed (e.step s now).2) := by
  have hfinish (op : Operation) : s.SameFrame (s.finish now op).2 ∧
      (s.closed = true → s.StaysClosed (s.finish now op).2) :=
    ⟨s.sameFrame_performOpened now op, fun h => Store.staysClosed_performOpened h now op⟩
  have hstay : s.SameFrame s ∧ (s.closed = true → s.StaysClosed s) := ⟨.refl s, fun h => .refl h⟩
  cases e with
  | lock op => exact hfinish op
  | look op =>
    rcases Bool.eq_false_or_eq_true s.closed with hclosed | hopen
    · rw [Errand.step_look_of_closed hclosed]
      exact hstay
    · rw [Errand.step_look_of_open hopen]
      unfold Store.letIn
      split
      · exact hstay
      · exact hfinish _
      · split
        · exact hfinish _
        · exact hstay
      · exact hstay

/-- Once the flag is set in the one state, the other is as far as that or further. -/
structure ClosedOn (t t' : Traffic) : Prop where
  store : t.store.StaysClosed t'.store
  finished : t.stage = .finished → t'.stage = .finished

theorem ClosedOn.trans (h : t.ClosedOn t') (h' : t'.ClosedOn t'') : t.ClosedOn t'' :=
  ⟨h.store.trans h'.store, fun ho => h'.finished (h.finished ho)⟩

theorem Sound.withErrands (h : t.Sound budget) {errands : List Errand}
    (hadmitted : ∀ e ∈ errands, e.Admitted budget) : { t with errands := errands }.Sound budget :=
  ⟨h.flag, h.dropped, h.budget_eq, hadmitted⟩

theorem Sound.leave (h : t.Sound budget) (n : Nat) : (t.leave n).Sound budget :=
  h.withErrands fun e he => h.admitted e (List.mem_of_mem_eraseIdx he)

/-- The store changes in a way that is nothing to the flag. -/
theorem Sound.withStore (h : t.Sound budget) {s : Store} (hsame : t.store.SameFrame s)
    (hstays : t.store.closed = true → t.store.StaysClosed s) :
    { t with store := s }.Sound budget := by
  refine ⟨fun hstage => hsame.closed.trans (h.flag hstage), fun hfinished => ?_,
    hsame.budget.trans h.budget_eq, h.admitted⟩
  have hset : t.store.closed = true := h.flag (by rw [hfinished]; decide)
  exact (hstays hset).empty (h.dropped hfinished)

/-- **One turn**: what fits together goes on to do so, and a closed store stays closed. -/
theorem Sound.turn (h : t.Sound budget) (now : Nat) (x : TrafficTurn) :
    (t.after now x).Sound budget ∧
      (t.store.closed = true → t.ClosedOn (t.after now x)) := by
  have hrefl (hclosed : t.store.closed = true) : t.ClosedOn t := ⟨.refl hclosed, id⟩
  cases x with
  | begin op =>
    refine ⟨h.withErrands fun e he => ?_, fun hset => ⟨.refl hset, id⟩⟩
    rcases List.mem_append.mp he with he | he
    · exact h.admitted e he
    · obtain rfl := List.mem_singleton.mp he
      trivial
  | abandon n => exact ⟨h.leave n, fun hset => ⟨.refl hset, id⟩⟩
  | go n =>
    simp only [after, Traffic.turn]
    obtain hgo | ⟨e, he, ⟨e', s, hstep, hgo⟩ | ⟨r, s, hstep, hgo⟩⟩ := t.go_cases now n
    · rw [hgo]
      exact ⟨h, hrefl⟩
    · obtain ⟨hsame, hstays⟩ := keeps_step t.store now e
      rw [hstep] at hsame hstays
      have hadmitted := Errand.admitted_step hstep
      rw [h.budget_eq] at hadmitted
      rw [hgo]
      refine ⟨(h.withStore hsame hstays).withErrands fun e₁ he₁ => ?_,
        fun hset => ⟨hstays hset, id⟩⟩
      rcases List.mem_or_eq_of_mem_set he₁ with he₁ | rfl
      · exact h.admitted e₁ he₁
      · exact hadmitted
    · obtain ⟨hsame, hstays⟩ := keeps_step t.store now e
      rw [hstep] at hsame hstays
      rw [hgo]
      exact ⟨(h.leave n).withStore hsame hstays, fun hset => ⟨hstays hset, id⟩⟩
  | sweep =>
    simp only [after, Traffic.turn]
    split
    · exact ⟨h.withStore ⟨rfl, rfl⟩ fun hset => .purge hset now,
        fun hset => ⟨.purge hset now, id⟩⟩
    · exact ⟨h, hrefl⟩
  | removeFlagged key =>
    simp only [after, Traffic.turn]
    split
    · exact ⟨h.withStore (t.store.sameFrame_removeIfExpired now key) fun hset =>
          .removeIfExpired hset now key,
        fun hset => ⟨.removeIfExpired hset now key, id⟩⟩
    · exact ⟨h, hrefl⟩
  | close =>
    simp only [after, Traffic.turn]
    split
    · exact ⟨h, hrefl⟩
    · rename_i hopen
      exact ⟨⟨fun _ => rfl, (fun hfinished => nomatch hfinished), h.budget_eq, h.admitted⟩,
        fun hset => absurd hset hopen⟩
  | stopSweeper =>
    simp only [after, Traffic.turn]
    split
    · rename_i hstage
      have hset : t.store.closed = true := h.flag (by rw [hstage]; decide)
      refine ⟨⟨fun _ => hset, (fun hfinished => nomatch hfinished), h.budget_eq, h.admitted⟩,
        fun _ => ⟨.refl hset, fun hfinished => ?_⟩⟩
      rw [hstage] at hfinished
      cases hfinished
    · exact ⟨h, hrefl⟩
  | reset =>
    simp only [after, Traffic.turn]
    split
    · rename_i hstage
      have hset : t.store.closed = true := h.flag (by rw [hstage]; decide)
      exact ⟨⟨fun _ => hset, fun _ => rfl, h.budget_eq, h.admitted⟩,
        fun _ => ⟨.reset hset, fun _ => rfl⟩⟩
    · exact ⟨h, hrefl⟩

theorem Sound.run (h : t.Sound budget) (turns : List (Nat × TrafficTurn)) :
    (t.run turns).Sound budget ∧ (t.store.closed = true → t.ClosedOn (t.run turns)) := by
  refine runTurns_induction (P := fun t' : Traffic => t'.Sound budget ∧
    (t.store.closed = true → t.ClosedOn t')) ⟨h, fun hset => ⟨.refl hset, id⟩⟩ ?_ turns
  rintro t' now x ⟨hsound, hon⟩
  obtain ⟨hsound', hon'⟩ := hsound.turn now x
  exact ⟨hsound', fun hset => (hon hset).trans (hon' (hon hset).store.closed)⟩

/-! ## From the flag on -/

/-- An errand ends as if nothing had happened. -/
def RefusedAt (t : Traffic) (n : Nat) : Prop :=
  ∀ now, t.turn now (.go n) = (some (.error .closed), t.leave n)

/-- What is known of the traffic at a store since the flag was set, which was when there was `t`. -/
structure ClosedForGood (t t' : Traffic) : Prop where
  closed : t'.store.closed = true
  /-- Nothing was stored since. -/
  sets : t'.store.tally.sets = t.store.tally.sets
  entries : ∀ key e, t'.store.contents.entries.get? key = some e →
    t.store.contents.entries.get? key = some e
  /-- Whoever has still to look at the flag is refused, … -/
  look : ∀ n op, t'.errands[n]? = some (.look op) → t'.RefusedAt n
  whole : ∀ now op, t'.store.perform now op = (.error .closed, t'.store)
  /-- … and so is a write that waits for the lock. -/
  lock : ∀ n key payload ttl, t'.errands[n]? = some (.lock (.setRaw key payload ttl)) →
    t'.RefusedAt n
  no_set : ∀ (n : Nat) key encoded ttl, t'.errands[n]? ≠ some (Errand.lock (.set key encoded ttl))
  again : ∀ now, t'.turn now .close = (none, t')

/-- **Closing a cache is final**, whatever the order in which the errands and the closer take their
steps. From the moment on at which the flag is set, nothing is stored and every operation is
refused that begins, and every write that waits for the lock. Once the closer has come to its end,
the store is empty for good. -/
theorem flag_is_final (budget : Nat) (turns : List (Nat × TrafficTurn))
    (hclosed : ((start budget).run turns).store.closed = true)
    (later : List (Nat × TrafficTurn)) :
    let t := (start budget).run turns
    let t' := t.run later
    t.ClosedForGood t' ∧
      (t.stage = .finished → t'.store.contents = .empty ∧ t'.store.size = 0 ∧
        ∀ now, t'.store.stats now = t'.store.tally.snapshot 0 0 budget) := by
  intro t t'
  have hsound := ((sound_start budget).run turns).1
  obtain ⟨hsound', hon⟩ := hsound.run later
  obtain ⟨hstays, hfinished⟩ := hon hclosed
  refine ⟨⟨hstays.closed, hstays.sets, hstays.entries, ?_, ?_, ?_, ?_, ?_⟩, fun hdone => ?_⟩
  · intro n op he now
    exact go_of_ended he (Errand.step_look_of_closed hstays.closed now op)
  · intro now op
    exact if_pos hstays.closed
  · intro n key payload ttl he now
    have hfits : payload.size ≤ t'.store.budget :=
      hsound'.budget_eq ▸ hsound'.admitted _ (List.mem_of_getElem? he)
    have hrefused := Store.setRaw_of_closed hstays.closed now key hfits ttl
    refine go_of_ended he ?_
    show (Progress.ended (t'.store.setRaw now key payload ttl).1,
      (t'.store.setRaw now key payload ttl).2) = _
    rw [hrefused]
  · intro n key encoded ttl he
    exact hsound'.admitted _ (List.mem_of_getElem? he)
  · intro now
    show (none, if t'.store.closed then t' else _) = _
    rw [if_pos hstays.closed]
  · have hempty := hsound'.dropped (hfinished hdone)
    refine ⟨hempty, by rw [Store.size, hempty]; rfl, fun now => ?_⟩
    rw [Store.stats, hempty, hsound'.budget_eq]
    rfl

/-- A write waits for the lock while the cache is closed, and gets it when all is over. -/
theorem flag_is_final_late_write :
    let write : Operation := .setRaw "late" ⟨#[0, 0, 0, 0]⟩ none
    let turns : List (Nat × TrafficTurn) := [(0, .begin write), (1, .go 0), (2, .close),
      (3, .stopSweeper), (4, .reset)]
    let t := (start 1024).run turns
    t.store.closed = true ∧ t.stage = .finished ∧
      t.turn 5 (.go 0) = (some (.error .closed), t.leave 0) ∧ t.store.size = 0 := by
  intro write turns t
  have hclosed : t.store.closed = true := by decide +kernel
  have hfinished : t.stage = .finished := by decide +kernel
  obtain ⟨hgood, hempty⟩ := flag_is_final 1024 turns hclosed []
  exact ⟨hclosed, hfinished, hgood.lock 0 "late" _ none rfl 5, (hempty hfinished).2.1⟩

end Traffic

end BoundedResources
