import BoundedResources.Pool.Pool

/-!
# What the books of a pool account for

The books of a pool are about things that are elsewhere: the handles on its checked-out
connections and the calls that wait for its dials. `Pool.Accounts` says that they are right, for a
pool that has lent the slots `lent` and owes `owed` dials. While the pool is open, the slots in use
are those that it has lent; once it is closed it has no slots any more, and what it has lent is
still within its maximum. Reservations can be too many, because a cancelled sweep does not give
its own back, but never too few.

Everything that happens to the books keeps them right, for what is lent and owed after it. There
is one lemma for each of their operations, and nothing later has to open one.
-/

set_option autoImplicit false

namespace BoundedResources

/-! ## Slots -/

@[simp] theorem Slot.id_lend (s : Slot) (now : Nat) : (s.lend now).id = s.id := rfl

theorem Slot.survives_of_inUse {s : Slot} (healthy : Connection → Bool) (h : s.inUse = true) :
    s.survives healthy = true := by
  unfold survives
  rw [Option.isNone_iff_eq_none.mp h]
  rfl

namespace Pool

/-- **What is checked out first is the first idle connection.** -/
theorem takeIdle_eq_some {now : Nat} {slots rest : List Slot} {id : Nat} {conn : Connection}
    (h : takeIdle now slots = some (id, conn, rest)) :
    ∃ front s back, slots = front ++ s :: back ∧ (∀ x ∈ front, x.inUse = true) ∧
      s.id = id ∧ s.conn = some conn ∧ rest = front ++ s.lend now :: back := by
  induction slots generalizing rest with
  | nil => exact absurd h (by simp [takeIdle])
  | cons s slots ih =>
    cases hconn : s.conn with
    | some c =>
      simp only [takeIdle, hconn, Option.some.injEq, Prod.mk.injEq] at h
      obtain ⟨hid, rfl, rfl⟩ := h
      exact ⟨[], s, slots, rfl, fun _ hx => (nomatch hx), hid, hconn, rfl⟩
    | none =>
      simp only [takeIdle, hconn, Option.map_eq_some_iff, Prod.mk.injEq] at h
      obtain ⟨⟨id', conn', rest'⟩, htake, rfl, rfl, rfl⟩ := h
      obtain ⟨front, s', back, rfl, hfront, hid, hconn', rfl⟩ := ih htake
      refine ⟨s :: front, s', back, rfl, ?_, hid, hconn', rfl⟩
      exact List.forall_mem_cons.mpr ⟨Option.isNone_iff_eq_none.mpr hconn, hfront⟩

/-- Pruning drops nothing that is checked out. -/
theorem inUse_prune (p : Pool) (healthy : Connection → Bool) :
    (p.prune healthy).slots.filter Slot.inUse = p.slots.filter Slot.inUse := by
  unfold prune
  rw [List.filter_filter]
  apply List.filter_congr
  intro s _
  cases huse : s.inUse with
  | true => rw [Bool.true_and, Slot.survives_of_inUse healthy huse]
  | false => rw [Bool.false_and]

theorem occupied_push (p : Pool) (now : Nat) (conn : Option Connection) :
    (p.push now conn).occupied = p.occupied + 1 := by
  unfold occupied push
  rw [List.length_append, List.length_singleton]
  exact Nat.add_right_comm _ _ _

/-- The numbers of the slots that are in use. -/
def lentIds (p : Pool) : List Nat := (p.slots.filter Slot.inUse).map Slot.id

/-- Slots come in the order of their numbers, which were all given out before. -/
structure SlotsInOrder (slots : List Slot) (nextId : Nat) : Prop where
  ascending : slots.Pairwise fun s s' => s.id < s'.id
  below : ∀ s ∈ slots, s.id < nextId

namespace SlotsInOrder

variable {slots : List Slot} {nextId : Nat}

theorem filter (h : SlotsInOrder slots nextId) (keep : Slot → Bool) :
    SlotsInOrder (slots.filter keep) nextId :=
  ⟨h.ascending.sublist List.filter_sublist, fun s hs => h.below s (List.mem_filter.mp hs).1⟩

/-- The order is about the numbers only. -/
theorem of_map_id {slots' : List Slot} (h : SlotsInOrder slots nextId)
    (hids : slots'.map Slot.id = slots.map Slot.id) : SlotsInOrder slots' nextId := by
  constructor
  · have hasc := List.pairwise_map.mpr h.ascending
    rw [← hids] at hasc
    exact List.pairwise_map.mp hasc
  · intro s hs
    have hmem : s.id ∈ slots.map Slot.id := hids ▸ List.mem_map_of_mem hs
    obtain ⟨s', hs', he⟩ := List.mem_map.mp hmem
    exact he ▸ h.below s' hs'

theorem push (h : SlotsInOrder slots nextId) {s : Slot} (hs : s.id = nextId) :
    SlotsInOrder (slots ++ [s]) (nextId + 1) := by
  constructor
  · refine List.pairwise_append.mpr ⟨h.ascending, List.pairwise_singleton _ _, fun a ha b hb => ?_⟩
    rw [List.mem_singleton.mp hb, hs]
    exact h.below a ha
  · intro a ha
    rcases List.mem_append.mp ha with ha | ha
    · exact Nat.lt_succ_of_lt (h.below a ha)
    · rw [List.mem_singleton.mp ha, hs]
      exact Nat.lt_succ_self nextId

theorem nodup_ids (h : SlotsInOrder slots nextId) : (slots.map Slot.id).Nodup :=
  List.pairwise_map.mpr (h.ascending.imp fun hlt => Nat.ne_of_lt hlt)

/-- Other slots have other numbers. -/
theorem id_ne {front back : List Slot} {s : Slot} (h : SlotsInOrder slots nextId)
    (hslots : slots = front ++ s :: back) : ∀ s' ∈ front ++ back, s'.id ≠ s.id := by
  have hasc := h.ascending
  rw [hslots] at hasc
  obtain ⟨-, hback, hcross⟩ := List.pairwise_append.mp hasc
  intro s' hs'
  rcases List.mem_append.mp hs' with hs' | hs'
  · exact Nat.ne_of_lt (hcross s' hs' s List.mem_cons_self)
  · exact Nat.ne_of_gt ((List.pairwise_cons.mp hback).1 s' hs')

end SlotsInOrder

/-- What is right about the books of a pool that has lent some slots and owes some dials. -/
structure Accounts (p : Pool) (lent : List Nat) (owed : Nat) : Prop where
  normal : p.config.normalized = p.config
  within : p.occupied ≤ p.config.maxSize
  inOrder : SlotsInOrder p.slots p.nextId
  reserved : owed ≤ p.dialing
  lent_open : p.closed = false → lent.Perm p.lentIds
  no_slots : p.closed = true → p.slots = []
  lent_closed : p.closed = true → lent.length + owed ≤ p.config.maxSize

namespace Accounts

variable {p p' : Pool} {lent lent' : List Nat} {owed n : Nat}

theorem minSize_le (h : p.Accounts lent owed) : p.config.minSize ≤ p.config.maxSize := by
  rw [← h.normal]
  exact p.config.minSize_le_maxSize_normalized

theorem nodup_lentIds (h : p.Accounts lent owed) : p.lentIds.Nodup :=
  (List.filter_sublist.map Slot.id).nodup h.inOrder.nodup_ids

theorem perm (h : p.Accounts lent owed) (hp : lent.Perm lent') : p.Accounts lent' owed :=
  { h with
    lent_open := fun hopen => hp.symm.trans (h.lent_open hopen)
    lent_closed := fun hclosed => hp.length_eq ▸ h.lent_closed hclosed }

/-- A pool can owe less without a change to its books. -/
theorem mono {owed' : Nat} (h : p.Accounts lent owed) (hle : owed' ≤ owed) :
    p.Accounts lent owed' :=
  { h with
    reserved := Nat.le_trans hle h.reserved
    lent_closed := fun hclosed =>
      Nat.le_trans (Nat.add_le_add_left hle _) (h.lent_closed hclosed) }

/-- What is lent and owed is within the maximum, whether the pool is closed or not. -/
theorem lent_add_owed_le (h : p.Accounts lent owed) :
    (p.slots.filter fun s => !s.inUse).length + lent.length + owed ≤ p.config.maxSize := by
  cases hclosed : p.closed with
  | true =>
    rw [h.no_slots hclosed, List.filter_nil, List.length_nil, Nat.zero_add]
    exact h.lent_closed hclosed
  | false =>
    have hlent := (h.lent_open hclosed).length_eq
    have hslots := (List.filter_append_perm Slot.inUse p.slots).length_eq
    rw [List.length_append] at hslots
    have hwithin := h.within
    have hreserved := h.reserved
    rw [lentIds, List.length_map] at hlent
    unfold occupied at hwithin
    omega

theorem empty (config : PoolConfig) (closed : Bool) :
    Accounts { Pool.empty config.normalized with closed := closed } [] 0 where
  normal := by
    unfold Pool.empty PoolConfig.normalized
    simp only [PoolConfig.mk.injEq, true_and, and_true]
    omega
  within := Nat.zero_le _
  inOrder := ⟨List.Pairwise.nil, fun _ hs => (nomatch hs)⟩
  reserved := Nat.le_refl 0
  lent_open := fun _ => List.Perm.refl _
  no_slots := fun _ => rfl
  lent_closed := fun _ => Nat.zero_le _

/-! ## Slots come and go -/

/-- Other slots, no more than before, and no more that are lent. -/
theorem withSlots {slots : List Slot} (h : p.Accounts lent owed)
    (horder : SlotsInOrder slots p.nextId) (hlen : slots.length ≤ p.slots.length)
    (hlent : p.closed = false → lent'.Perm ((slots.filter Slot.inUse).map Slot.id))
    (hclosed : p.closed = true → slots = [] ∧ lent'.length ≤ lent.length) :
    Accounts { p with slots := slots } lent' owed where
  normal := h.normal
  within := Nat.le_trans (Nat.add_le_add_right hlen _) h.within
  inOrder := horder
  reserved := h.reserved
  lent_open := hlent
  no_slots := fun hc => (hclosed hc).1
  lent_closed := fun hc =>
    Nat.le_trans (Nat.add_le_add_right (hclosed hc).2 _) (h.lent_closed hc)

theorem prune (h : p.Accounts lent owed) (healthy : Connection → Bool) :
    (p.prune healthy).Accounts lent owed := by
  refine h.withSlots (h.inOrder.filter _) (List.length_filter_le _ _) ?_ ?_
  · intro hopen
    have hlent := h.lent_open hopen
    rw [lentIds, ← p.inUse_prune healthy] at hlent
    exact hlent
  · intro hclosed
    rw [h.no_slots hclosed]
    exact ⟨rfl, Nat.le_refl _⟩

/-- The first idle connection is lent. -/
theorem takeIdle {now id : Nat} {conn : Connection} {slots : List Slot}
    (h : p.Accounts lent owed) (htake : Pool.takeIdle now p.slots = some (id, conn, slots)) :
    Accounts { p with slots := slots } (id :: lent) owed := by
  obtain ⟨front, s, back, hslots, -, hid, hconn, hrest⟩ := takeIdle_eq_some htake
  have hidle : s.inUse = false := by
    rw [Slot.inUse, hconn]
    rfl
  have hids : slots.map Slot.id = p.slots.map Slot.id := by
    rw [hrest, hslots, List.map_append, List.map_append, List.map_cons, List.map_cons,
      Slot.id_lend]
  refine h.withSlots (h.inOrder.of_map_id hids) ?_ ?_ ?_
  · exact Nat.le_of_eq (by simpa using congrArg List.length hids)
  · intro hopen
    have hlent := h.lent_open hopen
    -- The slot was idle and is in use now; all the others are as they were.
    rw [lentIds, hslots, List.filter_append, List.filter_cons_of_neg (by simp [hidle])] at hlent
    rw [hrest, List.filter_append, List.filter_cons_of_pos rfl, List.map_append, List.map_cons,
      Slot.id_lend, hid]
    apply (hlent.cons id).trans
    rw [List.map_append]
    exact List.perm_middle.symm
  · intro hclosed
    rw [h.no_slots hclosed] at hslots
    exact absurd hslots (by simp)

/-- A slot that was lent comes back into other hands, or is freed. -/
theorem back {slots : List Slot} {id : Nat} (h : p.Accounts (id :: lent) owed)
    (horder : SlotsInOrder slots p.nextId) (hlen : slots.length ≤ p.slots.length)
    (hslots : (slots.filter Slot.inUse).map Slot.id = p.lentIds.filter fun i => i ≠ id) :
    Accounts { p with slots := slots } lent owed := by
  refine h.withSlots horder hlen ?_ ?_
  · intro hopen
    have hlent := h.lent_open hopen
    have hnodup : (id :: lent).Nodup := hlent.nodup_iff.mpr h.nodup_lentIds
    have hnotin : ∀ i ∈ lent, decide (i ≠ id) = true := by
      intro i hi
      rw [decide_eq_true_eq]
      rintro rfl
      exact (List.nodup_cons.mp hnodup).1 hi
    -- Numbers are distinct, so that nothing else is lost with the slot.
    have hfilter := hlent.filter fun i => i ≠ id
    rw [List.filter_cons_of_neg (by simp), List.filter_eq_self.mpr hnotin] at hfilter
    rw [hslots]
    exact hfilter
  · intro hclosed
    have hnone := h.no_slots hclosed
    rw [hnone, List.length_nil, Nat.le_zero] at hlen
    exact ⟨List.eq_nil_of_length_eq_zero hlen, Nat.le_succ _⟩

/-- The slots in use but one. -/
theorem lentIds_filter (p : Pool) (id : Nat) :
    (p.lentIds.filter fun i => i ≠ id) =
      (p.slots.filter fun s => s.inUse && s.id ≠ id).map Slot.id := by
  rw [lentIds, List.filter_map, List.filter_filter]
  refine congrArg (List.map Slot.id) (List.filter_congr fun s _ => ?_)
  exact Bool.and_comm _ _

theorem putBack {id : Nat} (h : p.Accounts (id :: lent) owed) (now : Nat) (conn : Connection) :
    (p.putBack now id conn).Accounts lent owed := by
  have hid (s : Slot) : (if s.id = id && s.inUse then
      { s with conn := some conn, lastUsedAt := now } else s).id = s.id := by
    split <;> rfl
  have huse (s : Slot) : (if s.id = id && s.inUse then
      { s with conn := some conn, lastUsedAt := now } else s).inUse =
        (s.inUse && s.id ≠ id) := by
    by_cases he : s.id = id
    · cases hs : s.inUse with
      | true =>
        simp only [he, decide_true, Bool.true_and, if_pos, ne_eq, not_true, decide_false]
        rfl
      | false => simpa [he] using hs
    · simp [he]
  refine h.back (h.inOrder.of_map_id ?_) (Nat.le_of_eq (List.length_map _)) ?_
  · rw [List.map_map]
    exact List.map_congr_left fun s _ => hid s
  · rw [lentIds_filter, List.filter_map, List.map_map]
    apply (List.map_congr_left fun s _ => hid s).trans
    exact congrArg (List.map Slot.id) (List.filter_congr fun s _ => huse s)

theorem free {id : Nat} (h : p.Accounts (id :: lent) owed) :
    (p.free id).Accounts lent owed := by
  apply h.back (h.inOrder.filter _) (List.length_filter_le _ _)
  rw [lentIds_filter, List.filter_filter]
  refine congrArg (List.map Slot.id) (List.filter_congr fun s _ => ?_)
  by_cases he : s.id = id
  · simp [he]
  · simp [he]

theorem close (h : p.Accounts lent owed) : p.close.Accounts lent owed where
  normal := h.normal
  within := by
    have := h.within
    unfold occupied at this
    show 0 + p.dialing ≤ p.config.maxSize
    omega
  inOrder := ⟨List.Pairwise.nil, fun _ hs => (nomatch hs)⟩
  reserved := h.reserved
  lent_open := fun hopen => Bool.noConfusion hopen
  no_slots := fun _ => rfl
  lent_closed := fun _ => by
    have := h.lent_add_owed_le
    show lent.length + owed ≤ p.config.maxSize
    omega

/-! ## Dials -/

theorem unreserve (h : p.Accounts lent (owed + n)) : (p.unreserve n).Accounts lent owed where
  normal := h.normal
  within := Nat.le_trans (Nat.add_le_add_left (Nat.sub_le _ _) _) h.within
  inOrder := h.inOrder
  reserved := Nat.le_sub_of_add_le h.reserved
  lent_open := h.lent_open
  no_slots := h.no_slots
  lent_closed := fun hc =>
    Nat.le_trans (Nat.add_le_add_left (Nat.le_add_right _ _) _) (h.lent_closed hc)

/-- A settled dial leaves room for its connection. -/
theorem room_after_unreserve (h : p.Accounts lent (owed + 1)) :
    (p.unreserve 1).occupied + 1 ≤ (p.unreserve 1).config.maxSize := by
  have hwithin := h.within
  have hreserved := h.reserved
  unfold occupied at hwithin ⊢
  show p.slots.length + (p.dialing - 1) + 1 ≤ p.config.maxSize
  omega

/-- Reservations within the maximum are owed. Only an open pool makes any. -/
theorem reserve (h : p.Accounts lent owed) (hopen : p.closed = false)
    (hroom : p.occupied + n ≤ p.config.maxSize) :
    Accounts { p with dialing := p.dialing + n } lent (owed + n) where
  normal := h.normal
  within := by
    unfold occupied at hroom ⊢
    exact Nat.add_assoc _ _ _ ▸ hroom
  inOrder := h.inOrder
  reserved := Nat.add_le_add_right h.reserved n
  lent_open := h.lent_open
  no_slots := h.no_slots
  lent_closed := fun hc => absurd hc (by simp [hopen])

/-- A slot is made where there is room for one. -/
theorem push (h : p.Accounts lent owed) (hopen : p.closed = false)
    (hroom : p.occupied + 1 ≤ p.config.maxSize) (now : Nat) (conn : Option Connection) :
    (p.push now conn).Accounts (if conn.isNone then p.nextId :: lent else lent) owed where
  normal := h.normal
  within := Pool.occupied_push p now conn ▸ hroom
  inOrder := h.inOrder.push rfl
  reserved := h.reserved
  lent_open := by
    intro _
    have hlent := h.lent_open hopen
    rw [lentIds, Pool.push, List.filter_append, List.map_append]
    cases conn with
    | none => exact (hlent.cons p.nextId).trans (List.perm_append_singleton _ _).symm
    | some c =>
      rw [List.filter_cons_of_neg (by simp [Slot.inUse]), List.filter_nil, List.map_nil,
        List.append_nil]
      exact hlent
  no_slots := fun hc => absurd (hopen.symm.trans hc) (by decide)
  lent_closed := fun hc => absurd (hopen.symm.trans hc) (by decide)

/-- The counts of requests are nobody else's business. -/
theorem counted (h : p.Accounts lent owed) (requests errors : Nat) :
    Accounts { p with requests := requests, errors := errors } lent owed :=
  ⟨h.normal, h.within, h.inOrder, h.reserved, h.lent_open, h.no_slots, h.lent_closed⟩

/-- **A checkout lends a slot, or owes a dial, or neither.** -/
theorem checkout (h : p.Accounts lent owed) (now : Nat) (healthy : Connection → Bool) :
    match p.checkout now healthy with
    | (.error _, p') => p'.Accounts lent owed
    | (.ok (.idle id _), p') => p'.Accounts (id :: lent) owed
    | (.ok .room, p') => p'.Accounts lent (owed + 1) := by
  unfold Pool.checkout
  cases hclosed : p.closed with
  | true => exact h
  | false =>
    have hpruned := (h.prune healthy).counted (p.requests + 1) p.errors
    simp only [Bool.false_eq_true, if_false]
    cases htake : Pool.takeIdle now (p.prune healthy).slots with
    | some taken => exact hpruned.takeIdle htake
    | none =>
      by_cases hroom : (p.prune healthy).occupied < p.config.maxSize
      · have hr : { p.prune healthy with requests := p.requests + 1 }.occupied <
            (p.prune healthy).config.maxSize := hroom
        simp only [if_pos hr]
        exact hpruned.reserve hclosed hroom
      · have hr : ¬ { p.prune healthy with requests := p.requests + 1 }.occupied <
            (p.prune healthy).config.maxSize := hroom
        simp only [if_neg hr]
        exact hpruned.counted _ _

/-- **A sweep owes the dials that it has reserved.** -/
theorem beginSweep (h : p.Accounts lent owed) (healthy : Connection → Bool) :
    (p.beginSweep healthy).2.Accounts lent (owed + (p.beginSweep healthy).1) := by
  unfold Pool.beginSweep
  cases hclosed : p.closed with
  | true => exact h
  | false =>
    -- What is wanting to the minimum is within the maximum, since the minimum is.
    have hpruned := h.prune healthy
    have hmin := hpruned.minSize_le
    have hwithin := hpruned.within
    apply hpruned.reserve hclosed
    omega

/-- **The end of a checkout's dial settles it, and lends the new slot if it gets one.** -/
theorem endCheckout (h : p.Accounts lent (owed + 1)) (now : Nat)
    (dialed : Except PoolError Connection) :
    match p.endCheckout now dialed with
    | (.error _, p') => p'.Accounts lent owed
    | (.ok (id, _), p') => p'.Accounts (id :: lent) owed := by
  have hsettled := h.unreserve
  unfold Pool.endCheckout
  cases dialed with
  | error e => exact hsettled.counted _ _
  | ok conn =>
    cases hclosed : (p.unreserve 1).closed with
    | true =>
      simp only [hclosed, if_true]
      exact hsettled
    | false =>
      simp only [hclosed, Bool.false_eq_true, if_false]
      exact hsettled.push hclosed h.room_after_unreserve now none

/-- **The end of a sweep's dial settles it.** -/
theorem endSweepDial (h : p.Accounts lent (owed + 1)) (now : Nat)
    (dialed : Except PoolError Connection) :
    (p.endSweepDial now dialed).2.Accounts lent owed := by
  have hsettled := h.unreserve
  unfold Pool.endSweepDial
  cases dialed with
  | error e => exact hsettled
  | ok conn =>
    cases hclosed : (p.unreserve 1).closed with
    | true =>
      simp only [hclosed, if_true]
      exact hsettled
    | false =>
      simp only [hclosed, Bool.false_eq_true, if_false]
      exact hsettled.push hclosed h.room_after_unreserve now (some conn)

end Accounts

end Pool

end BoundedResources
