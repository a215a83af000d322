import BoundedResources.Proofs.Pool.Transfers

/-!
# Ownership of connections

A pool keeps track of what it has lent by the numbers of its slots. The connections themselves
travel, through handles and through the calls that have handles ready, and a handle can come back to
its pool, be put into another pool, whose slots have the same numbers, or not come back at all.
**`Fleet.exclusive_ownership`** says that after every run of turns nothing is lost or in two places.
Each connection that was opened is idle in one slot of its pool or in one handle, or was closed; an
open pool has a slot in use for each of its handles and no other; slots are made in the order of
their numbers, none of which is used again; and a slot counts how often its connection was handed
out.

It is read off the custody of a pool: the run leads from a fleet without pools to the present one
and passes connections on as reported (`Fleet.Sound.passes_run`).
-/

set_option autoImplicit false

namespace BoundedResources

namespace Fleet

variable {f : Fleet} {log : List Passage} {i j : Nat} {m m' : Member}

/-- The connections that are handed out and closed in the course of some turns. -/
def passed (f : Fleet) (turns : List (Nat × FleetTurn)) : List Passage :=
  runReports turn passages f turns

theorem Sound.passes_run (h : f.Sound [] []) (ha : f.Apart) (turns : List (Nat × FleetTurn)) :
    Passes f [] (f.passed turns) (f.run turns) [] := by
  refine (runReports_induction passages (P := fun f' log => f'.Sound [] [] ∧ f'.Apart ∧
    Passes f [] log f' []) ⟨h, ha, .refl f []⟩ ?_ turns).2.2
  rintro f' log now t ⟨hs, ha, hpasses⟩
  exact ⟨hs.turn now t, ha.turn hs now t, hpasses.trans (hs.passes_turn ha now t)⟩

/-- Every pool of a run has joined it, and is in custody since. -/
theorem custody_run (turns : List (Nat × FleetTurn))
    (hm : (empty.run turns).members[i]? = some m) :
    ((empty.run turns).stock [] i m).Custody (closedBy i (empty.passed turns))
      (handedOutBy i (empty.passed turns)) :=
  (sound_empty.passes_run apart_empty turns).joined i m (Nat.zero_le i) hm

/-! ## Where connections are -/

theorem allIdle_eq (slots : List Slot) :
    allIdle slots = slots.filterMap fun s => s.conn.map Connection.number := by
  refine List.filterMap_congr fun s _ => ?_
  cases s.conn with
  | none => rfl
  | some c => rfl

theorem openNumbers_eq (hm : f.members[i]? = some m) :
    f.openNumbers i = allIdle m.pool.slots ++ (f.stock [] i m).lent.map Prod.snd := by
  rw [allIdle_eq]
  unfold openNumbers stock holdings
  rw [hm, List.append_nil, List.filter_map, List.map_map, List.map_map]
  rfl

/-- The connections of a pool are owned, once those in a log have passed. -/
structure Owns (f : Fleet) (log : List Passage) (i : Nat) (m : Member) : Prop where
  /-- The slots in use are those of the handles on connections of the pool. -/
  lent : m.pool.closed = false → (issuedBy i (f.handles.map Prod.snd)).Perm m.pool.lentIds
  distinct : m.pool.lentIds.Nodup
  /-- Each connection that was opened is in one place, or was closed. -/
  whereabouts : (List.range' 1 m.dialer.made).Perm (f.openNumbers i ++ closedBy i log)
  inOrder : Pool.SlotsInOrder m.pool.slots m.pool.nextId
  idle_counted : ∀ s ∈ m.pool.slots, ∀ c, s.conn = some c →
    s.useCount = (handedOutBy i log).count c.number
  lent_counted : ∀ s ∈ m.pool.slots, ∀ x ∈ f.handles.map Prod.snd, x.pool = i → x.slot = s.id →
    s.useCount = (handedOutBy i log).count x.conn.number

theorem Sound.owns (h : f.Sound [] []) (hm : f.members[i]? = some m)
    (hc : (f.stock [] i m).Custody (closedBy i log) (handedOutBy i log)) : f.Owns log i m where
  lent := fun hopen => by
    have hlent := (h.accounts i m hm).lent_open hopen
    rwa [Fleet.lent, List.append_nil] at hlent
  distinct := (h.accounts i m hm).nodup_lentIds
  whereabouts := by
    rw [openNumbers_eq hm]
    exact hc.whereabouts
  inOrder := hc.inOrder
  idle_counted := by
    intro s hs c hconn
    rw [hc.idle s hs c hconn]
    exact hc.counted s hs
  lent_counted := by
    intro s hs x hx hpool hslot
    have hholding : (x.slot, x.conn.number) ∈ (f.stock [] i m).lent := by
      refine List.mem_map_of_mem (f := fun x : Handle => (x.slot, x.conn.number)) ?_
      exact List.mem_filter.mpr ⟨List.mem_append_left _ hx, by simpa using hpool⟩
    have hnumber : x.conn.number = x.slot := hc.lent _ hholding
    rw [hnumber, hslot]
    exact hc.counted s hs

/-! ## Handles in the wrong pool -/

/-- No slot but that of the handle has its number, so that the number alone tells which to free. -/
theorem free_eq_filter {p : Pool} {id owed : Nat} {lent : List Nat}
    (h : p.Accounts (id :: lent) owed) :
    p.free id = { p with slots := p.slots.filter fun s => s.id ≠ id } := by
  unfold Pool.free
  congr 1
  refine List.filter_congr fun s hs => ?_
  -- A closed pool has no slots, and in an open one what is lent has a slot in use.
  cases hopen : p.closed with
  | true =>
    rw [h.no_slots hopen] at hs
    cases hs
  | false =>
    obtain ⟨front, x, back, hslots, hid, hconn, hothers⟩ := h.exists_lent hopen
    rw [hslots] at hs
    rcases List.mem_cons.mp (List.perm_middle.mem_iff.mp hs) with rfl | hs
    · simp [hid, Slot.inUse, hconn]
    · simp [hothers s hs]

theorem Sound.put_foreign (h : f.Sound [] []) {holder : Holder} {x : Handle}
    (hm : f.members[x.pool]? = some m) (hx : f.handleOf? holder = some x)
    (hplain : x.returns = false) (hj : x.pool ≠ j) (now : Nat) :
    f.put now j holder = (f.takeHandle holder).setMember x.pool (m.withPool
      { m.pool with slots := m.pool.slots.filter fun s => s.id ≠ x.slot }) := by
  obtain ⟨m', hm', slots, owed, hacc⟩ := (h.take hx).exists_issuer
  obtain rfl : m = m' := Option.some.inj (hm.symm.trans hm')
  unfold Fleet.put
  rw [hx]
  simp only
  rw [if_neg hj, Fleet.letGo, hplain]
  simp only [Bool.false_eq_true, if_false]
  rw [closeHandle, Sound.modifyPool_eq hm', free_eq_filter hacc]

/-- **Every connection has one owner, and no number of a slot is used twice**, whatever turns are
taken. Later on, a slot with a number that was given out by now is one that is there now. And a
handle that closes its connection, put into another pool than its own, frees the slot of the
connection; nothing else changes. -/
theorem exclusive_ownership (turns : List (Nat × FleetTurn)) (i : Nat) (m : Member)
    (hm : (empty.run turns).members[i]? = some m) :
    (empty.run turns).Owns (empty.passed turns) i m ∧
      (∀ later m', ((empty.run turns).run later).members[i]? = some m' →
        m.pool.Follows m'.pool) ∧
      ∀ now j holder x, (empty.run turns).handleOf? holder = some x → x.pool = i →
        x.returns = false → i ≠ j →
          (m.pool.closed = false → x.slot ∈ m.pool.lentIds) ∧
          (empty.run turns).put now j holder =
            ((empty.run turns).takeHandle holder).setMember i (m.withPool
              { m.pool with slots := m.pool.slots.filter fun s => s.id ≠ x.slot }) := by
  have hsound := sound_run turns
  have howns := hsound.owns hm (custody_run turns hm)
  refine ⟨howns, fun later m' hm' => ?_, fun now j holder x hx hpool hplain hj => ⟨?_, ?_⟩⟩
  · have hpasses := hsound.passes_run (apart_run turns) later
    exact (hpasses.change i m m' hm hm').follows
  · intro hopen
    refine (howns.lent hopen).mem_iff.mp ?_
    have hheld := (hsound.handles_perm hx).mem_iff.mpr List.mem_cons_self
    have hmem : x ∈ (empty.run turns).handles.map Prod.snd := List.mem_map_of_mem hheld
    exact List.mem_map_of_mem (List.mem_filter.mpr ⟨hmem, by simpa using hpool⟩)
  · subst hpool
    exact hsound.put_foreign hm hx hplain hj now

/-- Two pools have lent slot 1 each. The handle of the first, put into the second, frees the slot of
the first, and the next connection of the first gets another slot. -/
theorem exclusive_ownership_two_pools :
    let config := { PoolConfig.standard "db:1" with maxSize := 2, minSize := 1 }
    let turns : List (Nat × FleetTurn) := [(0, .connect config []), (0, .connect config []),
      (1, .beginCheckout 0 false), (1, .deliver 0 "a"), (2, .beginCheckout 1 false),
      (2, .deliver 1 "b")]
    let later : List (Nat × FleetTurn) := [(3, .put 1 (.name "a")), (4, .beginCheckout 0 true),
      (5, .endDial 2 (.opened false))]
    let f := empty.run turns
    let x : Handle := ⟨0, 1, ⟨1, ""⟩, false⟩
    ∃ m m', f.members[0]? = some m ∧ (f.run later).members[0]? = some m' ∧
      f.Owns (empty.passed turns) 0 m ∧ x.slot ∈ m.pool.lentIds ∧
      f.put 3 1 (.name "a") = (f.takeHandle (.name "a")).setMember 0 (m.withPool
        { m.pool with slots := m.pool.slots.filter fun s => s.id ≠ x.slot }) ∧
      m.pool.Follows m'.pool ∧ m'.pool.slots.map Slot.id = [2] := by
  intro config turns later f x
  have hopen : (f.members[0]?.map fun m => m.pool.closed) = some false := by decide +kernel
  have hlater : ((f.run later).members[0]?.map fun m => m.pool.slots.map Slot.id) = some [2] := by
    decide +kernel
  obtain ⟨m, hm, hclosed⟩ := Option.map_eq_some_iff.mp hopen
  obtain ⟨m', hm', hslots⟩ := Option.map_eq_some_iff.mp hlater
  obtain ⟨howns, hfollows, hput⟩ := exclusive_ownership turns 0 m hm
  have hx : f.handleOf? (.name "a") = some x := by decide +kernel
  obtain ⟨hlent, hfreed⟩ := hput 3 1 (.name "a") x hx rfl rfl (Nat.zero_ne_one)
  exact ⟨m, m', hm, hm', howns, hlent hclosed, hfreed, hfollows later m' hm', hslots⟩

end Fleet

end BoundedResources
