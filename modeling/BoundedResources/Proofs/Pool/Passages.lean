import BoundedResources.Proofs.Pool.Custody
import BoundedResources.Proofs.Pool.Obligations

/-!
# The passages of connections through a fleet

A connection passes from its pool into a handle, and out of the world when it is closed.
`Fleet.passages` says which connections a turn hands out and which it closes, pool by pool: those
that are found sick when a pool is pruned, those that are opened for a pool too late, those that a
holder lets go of without bringing them back, and those that are idle in a pool that is closed.

`Fleet.Passes` says that this is all that happens between two fleets: each pool that was there
goes through changes of its stock (`Stock.Change`) with just these connections handed out and
closed, and each pool that is new is in custody.
-/

set_option autoImplicit false

namespace BoundedResources

/-- What is reported of the connection of a pool with a number. -/
inductive Passage where
  | handedOut (pool number : Nat)
  | closed (pool number : Nat)

/-- Of which pool something is reported. -/
def Passage.pool : Passage → Nat
  | .handedOut i _ | .closed i _ => i

/-- The connections of a pool that were handed out, once for each time. -/
def handedOutBy (i : Nat) (log : List Passage) : List Nat :=
  log.filterMap fun
    | .handedOut j n => if j = i then some n else none
    | .closed _ _ => none

/-- The connections of a pool that were closed. -/
def closedBy (i : Nat) (log : List Passage) : List Nat :=
  log.filterMap fun
    | .handedOut _ _ => none
    | .closed j n => if j = i then some n else none

section Logs

variable (i : Nat)

@[simp] theorem handedOutBy_append (log log' : List Passage) :
    handedOutBy i (log ++ log') = handedOutBy i log ++ handedOutBy i log' :=
  List.filterMap_append

@[simp] theorem closedBy_append (log log' : List Passage) :
    closedBy i (log ++ log') = closedBy i log ++ closedBy i log' :=
  List.filterMap_append

@[simp] theorem handedOutBy_closed (j : Nat) (ns : List Nat) :
    handedOutBy i (ns.map (.closed j)) = [] := by
  unfold handedOutBy
  rw [List.filterMap_map, List.filterMap_eq_nil_iff]
  exact fun _ _ => rfl

@[simp] theorem closedBy_handedOut (j : Nat) (ns : List Nat) :
    closedBy i (ns.map (.handedOut j)) = [] := by
  unfold closedBy
  rw [List.filterMap_map, List.filterMap_eq_nil_iff]
  exact fun _ _ => rfl

@[simp] theorem closedBy_closed (j : Nat) (ns : List Nat) :
    closedBy i (ns.map (.closed j)) = if j = i then ns else [] := by
  unfold closedBy
  rw [List.filterMap_map]
  split
  · rename_i h
    subst h
    simp
  · rename_i h
    simp [h]

@[simp] theorem handedOutBy_handedOut (j : Nat) (ns : List Nat) :
    handedOutBy i (ns.map (.handedOut j)) = if j = i then ns else [] := by
  unfold handedOutBy
  rw [List.filterMap_map]
  split
  · rename_i h
    subst h
    simp
  · rename_i h
    simp [h]

theorem handedOutBy_of_others {log : List Passage} (h : ∀ p ∈ log, p.pool ≠ i) :
    handedOutBy i log = [] := by
  refine List.filterMap_eq_nil_iff.mpr fun p hp => ?_
  cases p with
  | handedOut j n => exact if_neg (h _ hp)
  | closed j n => rfl

theorem closedBy_of_others {log : List Passage} (h : ∀ p ∈ log, p.pool ≠ i) :
    closedBy i log = [] := by
  refine List.filterMap_eq_nil_iff.mpr fun p hp => ?_
  cases p with
  | handedOut j n => rfl
  | closed j n => exact if_neg (h _ hp)

end Logs

/-! ## What a turn reports -/

namespace Fleet

/-- Whether there is a pool with an index and it is open. -/
def isOpen (f : Fleet) (i : Nat) : Bool := f.members[i]?.any fun m => !m.pool.closed

/-- The idle connections of a pool are closed of which something is true. -/
def closesIdle (f : Fleet) (i : Nat) (which : Member → Connection → Bool) : List Passage :=
  (f.members[i]?.toList.flatMap fun m => idleNumbers (which m) m.pool.slots).map (.closed i)

/-- A pool is pruned. -/
def prunes (f : Fleet) (i : Nat) : List Passage := f.closesIdle i fun m c => !m.healthy c

/-- A pool is closed. -/
def drains (f : Fleet) (i : Nat) : List Passage := f.closesIdle i fun _ _ => true

/-- A handle is given up. Its connection is closed, unless it is brought back to an open pool. -/
def lapses (f : Fleet) (h : Handle) (back : Bool) : List Passage :=
  (if back && f.isOpen h.pool then [] else [h.conn.number]).map (.closed h.pool)

/-- A holder lets go of its handle, if it has one. -/
def givesUp (f : Fleet) (holder : Holder) : List Passage :=
  match f.handleOf? holder with
  | none => []
  | some h => f.lapses h h.returns

/-- A holder puts its handle into a pool. -/
def puts (f : Fleet) (i : Nat) (holder : Holder) : List Passage :=
  match f.handleOf? holder with
  | none => []
  | some h => f.lapses h (h.returns || h.pool == i)

/-- The handle of a call goes to a holder of some name. -/
def delivers (f : Fleet) (id : Nat) (name : String) : List Passage :=
  match f.handleOf? (.call id) with
  | none => []
  | some _ => f.givesUp (.name name)

/-- A dial has ended for a pool that was closed meanwhile. -/
def refuses (f : Fleet) (id : Nat) (outcome : DialOutcome) : List Passage :=
  match f.call? id with
  | none => []
  | some c =>
    (f.members[c.pool]?.toList.flatMap fun m => m.refused outcome).map
      (.closed c.pool)

/-- A call has come as far as it can now. If it was a checkout that has succeeded, the connection
in its handle was handed out. -/
def handsOut (id : Nat) : CallStatus × Fleet → List Passage
  | (.checkedOut (.ok ()), f) =>
    match f.handleOf? (.call id) with
    | none => []
    | some h => [h.conn.number].map (.handedOut h.pool)
  | _ => []

/-- A pool has joined the fleet. If it was not set up, what was opened for it is closed. -/
def abandons (f f' : Fleet) : List Passage :=
  (f'.members[f.members.length]?.toList.flatMap fun m =>
    if m.pool.closed then List.range' 1 m.dialer.made else []).map (.closed f.members.length)

/-- The connections that a turn hands out, and those that it closes. -/
def passages (f : Fleet) (now : Nat) : FleetTurn → List Passage
  | .connect config script => f.abandons (f.connect now config script)
  | .beginCheckout i returns => f.prunes i ++ handsOut f.nextCall (f.beginCheckout now i returns)
  | .beginSweep i _ => f.prunes i
  | .endDial id outcome => f.refuses id outcome ++ handsOut id (f.endDial now id outcome)
  | .put i holder => f.puts i holder
  | .drop holder => f.givesUp holder
  | .deliver id name => f.delivers id name
  | .close i => f.drains i
  | .reap =>
    (List.range f.members.length).flatMap fun i => if f.reap.isOpen i then [] else f.drains i
  | .cancel _ | .openGate _ | .tag _ _ | .detach _ | .setHealth .. | .script _ _ | .plan _ _ => []

end Fleet

/-! ## The stocks of a fleet -/

/-- The slots and the numbers of the connections in the handles that a pool has issued. -/
def holdings (i : Nat) (handles : List Handle) : List (Nat × Nat) :=
  (handles.filter fun h => h.pool = i).map fun h => (h.slot, h.conn.number)

theorem holdings_perm (i : Nat) {hs hs' : List Handle} (h : hs.Perm hs') :
    (holdings i hs).Perm (holdings i hs') :=
  (h.filter _).map _

theorem holdings_append (i : Nat) (hs hs' : List Handle) :
    holdings i (hs ++ hs') = holdings i hs ++ holdings i hs' := by
  rw [holdings, List.filter_append, List.map_append]
  rfl

theorem holdings_cons_self (h : Handle) (hs : List Handle) :
    holdings h.pool (h :: hs) = (h.slot, h.conn.number) :: holdings h.pool hs := by
  rw [holdings, List.filter_cons_of_pos (by simp), List.map_cons]
  rfl

theorem holdings_cons_of_ne {i : Nat} {h : Handle} (hne : h.pool ≠ i) (hs : List Handle) :
    holdings i (h :: hs) = holdings i hs := by
  rw [holdings, List.filter_cons_of_neg (by simpa using hne)]
  rfl

/-- What a handle is on. -/
def Handle.holding (h : Handle) : Nat × Nat × Nat := (h.pool, h.slot, h.conn.number)

theorem holdings_congr (i : Nat) {hs hs' : List Handle}
    (h : hs.map Handle.holding = hs'.map Handle.holding) : holdings i hs = holdings i hs' := by
  have hkey (hs : List Handle) :
      holdings i hs = ((hs.map Handle.holding).filter fun p => p.1 = i).map Prod.snd := by
    rw [List.filter_map, List.map_map]
    rfl
  rw [hkey, hkey, h]

namespace Fleet

/-- The stock of a pool, with loose handles counted among those in which its connections are
lent. -/
def stock (f : Fleet) (loose : List Handle) (i : Nat) (m : Member) : Stock :=
  ⟨m.pool, m.dialer.made, holdings i (f.handles.map Prod.snd ++ loose)⟩

/-- From one fleet to the other, and from one list of loose handles to the other, the stock of each
pool changes as reported, and a pool that is new is in custody as reported. -/
structure Passes (f : Fleet) (loose : List Handle) (log : List Passage) (f' : Fleet)
    (loose' : List Handle) : Prop where
  length : f.members.length ≤ f'.members.length
  change : ∀ (i : Nat) (m m' : Member), f.members[i]? = some m → f'.members[i]? = some m' →
    Stock.Change (f.stock loose i m) (closedBy i log) (handedOutBy i log) (f'.stock loose' i m')
  joined : ∀ (i : Nat) (m' : Member), f.members.length ≤ i → f'.members[i]? = some m' →
    (f'.stock loose' i m').Custody (closedBy i log) (handedOutBy i log)
  named : ∀ p ∈ log, p.pool < f'.members.length

namespace Passes

variable {f f' f'' : Fleet} {loose loose' loose'' : List Handle} {log log' : List Passage}

theorem closedBy_of_length_le (h : Passes f loose log f' loose') {i : Nat}
    (hi : f'.members.length ≤ i) : closedBy i log = [] :=
  closedBy_of_others i fun p hp => Nat.ne_of_lt (Nat.lt_of_lt_of_le (h.named p hp) hi)

theorem handedOutBy_of_length_le (h : Passes f loose log f' loose') {i : Nat}
    (hi : f'.members.length ≤ i) : handedOutBy i log = [] :=
  handedOutBy_of_others i fun p hp => Nat.ne_of_lt (Nat.lt_of_lt_of_le (h.named p hp) hi)

theorem trans (h : Passes f loose log f' loose') (h' : Passes f' loose' log' f'' loose'') :
    Passes f loose (log ++ log') f'' loose'' := by
  refine ⟨Nat.le_trans h.length h'.length, ?_, ?_, ?_⟩
  · intro i m m'' hm hm''
    have hlt := Nat.lt_of_lt_of_le (List.getElem?_eq_some_iff.mp hm).1 h.length
    obtain ⟨m', hm'⟩ : ∃ m', f'.members[i]? = some m' := ⟨_, List.getElem?_eq_getElem hlt⟩
    rw [closedBy_append, handedOutBy_append]
    exact (h.change i m m' hm hm').trans (h'.change i m' m'' hm' hm'')
  · intro i m'' hi hm''
    rw [closedBy_append, handedOutBy_append]
    cases hm' : f'.members[i]? with
    | none =>
      -- The pool joins in the second part, and the first part has nothing to do with it.
      have hlate := List.getElem?_eq_none_iff.mp hm'
      rw [h.closedBy_of_length_le hlate, h.handedOutBy_of_length_le hlate]
      exact h'.joined i m'' hlate hm''
    | some m' => exact (h'.change i m' m'' hm' hm'').custody (h.joined i m' hi hm')
  · intro p hp
    rcases List.mem_append.mp hp with hp | hp
    · exact Nat.lt_of_lt_of_le (h.named p hp) h'.length
    · exact h'.named p hp

/-- No pool joins. -/
theorem of_length_eq (hlen : f'.members.length = f.members.length)
    (hchange : ∀ (i : Nat) (m m' : Member), f.members[i]? = some m → f'.members[i]? = some m' →
      Stock.Change (f.stock loose i m) (closedBy i log) (handedOutBy i log)
        (f'.stock loose' i m'))
    (hnamed : ∀ p ∈ log, p.pool < f.members.length) : Passes f loose log f' loose' := by
  refine ⟨Nat.le_of_eq hlen.symm, hchange, fun i m' hi hm' => ?_, hlen ▸ hnamed⟩
  have hlt := (List.getElem?_eq_some_iff.mp hm').1
  exact absurd (hlen ▸ hlt) (Nat.not_lt.mpr hi)

/-- After that nothing is reported. -/
theorem andQuiet (h : Passes f loose log f' loose') (h' : Passes f' loose' [] f'' loose'') :
    Passes f loose log f'' loose'' := by
  have hboth := h.trans h'
  rwa [List.append_nil] at hboth

/-- No connection is touched. -/
theorem quiet (hlen : f'.members.length = f.members.length)
    (hsame : ∀ (i : Nat) (m m' : Member), f.members[i]? = some m → f'.members[i]? = some m' →
      m'.pool.slots = m.pool.slots ∧ m'.pool.nextId = m.pool.nextId ∧
        m'.pool.closed = m.pool.closed ∧ m'.dialer.made = m.dialer.made)
    (hholdings : ∀ i, (holdings i (f.handles.map Prod.snd ++ loose)).Perm
      (holdings i (f'.handles.map Prod.snd ++ loose'))) :
    Passes f loose [] f' loose' := by
  refine of_length_eq hlen (fun i m m' hm hm' => ?_) fun _ hp => nomatch hp
  obtain ⟨hslots, hnext, hclosed, hmade⟩ := hsame i m m' hm hm'
  exact .keep hslots hnext hclosed hmade (hholdings i)

/-- Handles change hands. -/
theorem of_perm (hmembers : f'.members = f.members)
    (hperm : (f.handles.map Prod.snd ++ loose).Perm (f'.handles.map Prod.snd ++ loose')) :
    Passes f loose [] f' loose' := by
  refine quiet (congrArg List.length hmembers) (fun i m m' hm hm' => ?_)
    fun i => holdings_perm i hperm
  rw [hmembers, hm, Option.some.injEq] at hm'
  subst hm'
  exact ⟨rfl, rfl, rfl, rfl⟩

theorem refl (f : Fleet) (loose : List Handle) : Passes f loose [] f loose :=
  of_perm rfl (List.Perm.refl _)

/-- The stock of one pool changes. -/
theorem setMember {i : Nat} {m : Member} {closed handed : List Nat}
    (hm : f.members[i]? = some m) (m' : Member)
    (hothers : ∀ j, j ≠ i → holdings j loose' = holdings j loose)
    (hchange : Stock.Change (f.stock loose i m) closed handed (f.stock loose' i m')) :
    Passes f loose (closed.map (.closed i) ++ handed.map (.handedOut i)) (f.setMember i m')
      loose' := by
  have hlt : i < f.members.length := (List.getElem?_eq_some_iff.mp hm).1
  have hpool : ∀ p ∈ closed.map (.closed i) ++ handed.map (.handedOut i), Passage.pool p = i := by
    intro p hp
    rcases List.mem_append.mp hp with hp | hp
    · obtain ⟨n, -, rfl⟩ := List.mem_map.mp hp
      rfl
    · obtain ⟨n, -, rfl⟩ := List.mem_map.mp hp
      rfl
  refine of_length_eq List.length_set (fun j n n' hn hn' => ?_) fun p hp => hpool p hp ▸ hlt
  have hset : (f.members.set i m')[j]? = some n' := hn'
  rw [closedBy_append, handedOutBy_append, closedBy_closed, closedBy_handedOut,
    handedOutBy_closed, handedOutBy_handedOut, List.append_nil, List.nil_append]
  by_cases hij : i = j
  · subst hij
    rw [List.getElem?_set_self hlt, Option.some.injEq] at hset
    rw [hm, Option.some.injEq] at hn
    subst hset hn
    rw [if_pos rfl, if_pos rfl]
    exact hchange
  · rw [List.getElem?_set_ne hij, hn, Option.some.injEq] at hset
    subst hset
    rw [if_neg hij, if_neg hij]
    refine .keep rfl rfl rfl rfl ?_
    show (holdings j (_ ++ loose)).Perm (holdings j (_ ++ loose'))
    rw [holdings_append, holdings_append, hothers j (Ne.symm hij)]
    exact List.Perm.refl _

end Passes

end Fleet

end BoundedResources
