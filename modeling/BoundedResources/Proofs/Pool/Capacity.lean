import Mathlib.Algebra.BigOperators.Group.List.Basic
import BoundedResources.Proofs.Pool.Ledger

/-!
# The capacity of a pool

A pool reserves a dial while it is locked, waits for it unlocked, and settles the reservation when
the dial has ended one way or another; any number of other calls do the same in between.
**`Fleet.capacity_respected`** says that the maximum of a pool holds all the same. The books never
go beyond it; nor do the connections that are open, wherever they are, with the dials in flight,
even after the pool was closed with handles still out. And no reservation is given back that was
not there: the end of a dial gives back just what its call holds no longer, and a cancelled call
what it held, or nothing if it is a sweep.

A call that waits stands for one connection at most: its dial is in flight, or the dial has
succeeded and nobody has looked at the result yet.
-/

set_option autoImplicit false

namespace BoundedResources

namespace Pool

theorem dialing_unreserve {p : Pool} {n : Nat} (h : n ≤ p.dialing) :
    (p.unreserve n).dialing + n = p.dialing :=
  Nat.sub_add_cancel h

theorem dialing_endCheckout {p : Pool} (h : 1 ≤ p.dialing) (now : Nat)
    (dialed : Except PoolError Connection) :
    (p.endCheckout now dialed).2.dialing + 1 = p.dialing := by
  have hdialing : (p.endCheckout now dialed).2.dialing = p.dialing - 1 :=
    congrArg Counts.dialing (p.counts_endCheckout now dialed)
  rw [hdialing, Nat.sub_add_cancel h]

theorem dialing_endSweepDial {p : Pool} (h : 1 ≤ p.dialing) (now : Nat)
    (dialed : Except PoolError Connection) :
    (p.endSweepDial now dialed).2.dialing + 1 = p.dialing := by
  have hdialing : (p.endSweepDial now dialed).2.dialing = p.dialing - 1 :=
    congrArg Counts.dialing (p.counts_endSweepDial now dialed)
  rw [hdialing, Nat.sub_add_cancel h]

end Pool

/-- What a call gives back when it is cancelled. -/
def Purpose.givenBack : Purpose → Nat
  | .checkout _ => 1
  | .sweep _ _ => 0

namespace Fleet

/-- The calls that wait for a dial of a pool. -/
def waiting (f : Fleet) (i : Nat) : List Call := f.calls.filter fun c => c.pool = i

/-- The reservations in the books of a pool. -/
def reserved (f : Fleet) (i : Nat) : Nat := (f.members[i]?.map fun m => m.pool.dialing).getD 0

/-- The reservations that the call with a number holds. -/
def held (f : Fleet) (id : Nat) : Nat := ((f.call? id).map fun c => c.purpose.dials).getD 0

/-! ## Where the connections are -/

theorem length_openNumbers {f : Fleet} {i : Nat} {m : Member} (hm : f.members[i]? = some m) :
    (f.openNumbers i).length =
      (m.pool.slots.filter fun s => !s.inUse).length + (f.lent [] i).length := by
  have hidle : (m.pool.slots.filterMap fun s => s.conn.map (·.number)).length =
      (m.pool.slots.filter fun s => !s.inUse).length := by
    induction m.pool.slots with
    | nil => rfl
    | cons s slots ih =>
      cases hconn : s.conn with
      | none => simpa [Slot.inUse, hconn] using ih
      | some c => simpa [Slot.inUse, hconn] using ih
  have hlent : (f.handles.filter fun p => p.2.pool == i).length = (f.lent [] i).length := by
    rw [lent, List.append_nil, issuedBy, List.length_map, List.filter_map, List.length_map]
    rfl
  rw [openNumbers, hm, List.length_append, List.length_map, hidle, hlent]

/-- What is open and what is on its way fit into the maximum together. -/
theorem Sound.open_add_waiting_le {f : Fleet} (h : f.Sound [] []) {i : Nat} {m : Member}
    (hm : f.members[i]? = some m) :
    (f.openNumbers i).length + (f.waiting i).length ≤ m.pool.config.maxSize := by
  have hacc := h.accounts i m hm
  have hwaiting : (f.waiting i).length ≤ f.owed [] i := by
    have hone : ∀ n ∈ (f.waiting i).map fun c => c.purpose.dials, 1 ≤ n := by
      intro n hn
      obtain ⟨c, hc, rfl⟩ := List.mem_map.mp hn
      exact (h.callers c (List.mem_filter.mp hc).1).2
    have hsum := List.length_le_sum_of_one_le _ hone
    rw [List.length_map] at hsum
    exact hsum
  rw [length_openNumbers hm]
  exact Nat.le_trans (Nat.add_le_add_left hwaiting _) hacc.lent_add_owed_le

/-! ## What is given back -/

theorem Sound.call?_of_mem {f : Fleet} (h : f.Sound [] []) {c : Call} (hc : c ∈ f.calls) :
    f.call? c.id = some c := by
  cases hfind : f.call? c.id with
  | none =>
    have hnone := List.find?_eq_none.mp hfind c hc
    exact absurd (beq_self_eq_true c.id) hnone
  | some c' =>
    obtain ⟨hc', hid⟩ := Sound.mem_calls hfind
    rw [List.inj_on_of_nodup_map h.numbers hc' hc hid]

theorem call?_endCall (f : Fleet) (id : Nat) : (f.endCall id).call? id = none := by
  refine List.find?_eq_none.mpr fun c hc => ?_
  have hne := (List.mem_filter.mp hc).2
  simpa using hne

theorem held_eq_zero {f : Fleet} {id : Nat} (h : f.call? id = none) : f.held id = 0 := by
  rw [held, h]
  rfl

theorem held_setMember (f : Fleet) (id i : Nat) (m : Member) :
    ((f.endCall id).setMember i m).held id = 0 :=
  held_eq_zero (call?_endCall f id)

/-- A call whose dial has ended holds what its next dial is begun with. -/
theorem held_beginDial (f : Fleet) (now id i : Nat) (m : Member) (purpose : Purpose) :
    ((f.endCall id).beginDial now id i m purpose).held id = purpose.dials := by
  rw [held, call?_beginDial (call?_endCall f id)]
  rfl

theorem reserved_eq {f : Fleet} {i : Nat} {m : Member} (hm : f.members[i]? = some m) :
    f.reserved i = m.pool.dialing := by
  rw [reserved, hm]
  rfl

theorem reserved_setMember {f : Fleet} {i : Nat} {m : Member} (hm : f.members[i]? = some m)
    (m' : Member) : (f.setMember i m').reserved i = m'.pool.dialing :=
  reserved_eq (List.getElem?_set_self (List.getElem?_eq_some_iff.mp hm).1)

theorem dialing_counts (f : Fleet) (i : Nat) : (f.counts i).dialing = f.reserved i := by
  unfold counts reserved
  cases f.members[i]? <;> rfl

theorem Quiet.reserved {f f' : Fleet} (h : Quiet f f') (i : Nat) :
    f'.reserved i = f.reserved i := by
  rw [← dialing_counts, ← dialing_counts, h.counts]

theorem reserved_hold (f : Fleet) (now : Nat) (holder : Holder) (x : Handle) (i : Nat) :
    (f.hold now holder x).reserved i = f.reserved i :=
  (Quiet.hold f now holder x).reserved i

theorem calls_hold (f : Fleet) (now : Nat) (holder : Holder) (x : Handle) :
    (f.hold now holder x).calls = f.calls := by
  unfold hold letGo
  cases f.handleOf? holder with
  | none => rfl
  | some old =>
    simp only
    split <;> rfl

theorem held_hold (f : Fleet) (now : Nat) (holder : Holder) (x : Handle) (id : Nat) :
    (f.hold now holder x).held id = f.held id := by
  unfold held call?
  rw [calls_hold]

/-- A waiting call holds reservations of its pool. -/
theorem Sound.dials_le {f : Fleet} (h : f.Sound [] []) {c : Call} (hc : c ∈ f.calls) {m : Member}
    (hm : f.members[c.pool]? = some m) : c.purpose.dials ≤ m.pool.dialing := by
  have hle := le_dialsFor c.pool hc
  rw [if_pos rfl] at hle
  exact Nat.le_trans hle (Nat.le_trans (Nat.le_add_right _ _) (h.accounts c.pool m hm).reserved)

/-- **The end of a dial gives back what its call holds no longer.** -/
theorem Sound.reserved_endDial {f : Fleet} (h : f.Sound [] []) {id : Nat} {c : Call}
    (hc : f.call? id = some c) (now : Nat) (outcome : DialOutcome) :
    (f.endDial now id outcome).2.reserved c.pool + c.purpose.dials =
      f.reserved c.pool + (f.endDial now id outcome).2.held id := by
  obtain ⟨hmem, -⟩ := Sound.mem_calls hc
  obtain ⟨m, hm⟩ := h.exists_pool hc
  have hm' : (f.endCall id).members[c.pool]? = some m := hm
  have hpos := (h.callers c hmem).2
  have hle := h.dials_le hmem hm
  have hends := endDial_cases hc hm now outcome
  generalize f.endDial now id outcome = ended at hends ⊢
  rw [reserved_eq hm]
  cases hends with
  | refused hpurpose hpool =>
    have hback := Pool.dialing_endCheckout (Nat.le_trans hpos hle) now (m.dialed outcome)
    rw [hpool] at hback
    rw [reserved_setMember hm', held_setMember, hpurpose]
    exact hback
  | lent hpurpose hpool =>
    have hback := Pool.dialing_endCheckout (Nat.le_trans hpos hle) now (m.dialed outcome)
    rw [hpool] at hback
    rw [reserved_hold, reserved_setMember hm', held_hold, held_setMember, hpurpose]
    exact hback
  | @givesUp pool wanted background hpurpose hpool =>
    have hback := Pool.dialing_endSweepDial (Nat.le_trans hpos hle) now (m.dialed outcome)
    rw [hpool] at hback
    simp only at hback
    rw [hpurpose] at hpos hle ⊢
    have hwanted : 1 ≤ wanted ∧ wanted ≤ m.pool.dialing := ⟨hpos, hle⟩
    -- One reservation goes with the dial that has ended, the others are given back at once.
    have hrest : (pool.unreserve (wanted - 1)).dialing + (wanted - 1) = pool.dialing :=
      Pool.dialing_unreserve (by omega)
    rw [reserved_setMember hm', held_setMember]
    show (pool.unreserve (wanted - 1)).dialing + wanted = m.pool.dialing
    omega
  | @swept pool wanted background hpurpose hpool hlast =>
    have hback := Pool.dialing_endSweepDial (Nat.le_trans hpos hle) now (m.dialed outcome)
    rw [hpool] at hback
    rw [hpurpose] at hpos ⊢
    obtain rfl : wanted = 1 := Nat.le_antisymm hlast hpos
    rw [reserved_setMember hm', held_setMember]
    exact hback
  | @dials pool wanted background hpurpose hpool hmore =>
    have hback := Pool.dialing_endSweepDial (Nat.le_trans hpos hle) now (m.dialed outcome)
    rw [hpool] at hback
    simp only at hback
    have hdialing : ((f.endCall id).beginDial now id c.pool
        ((m.concluded outcome).withPool pool)
        (.sweep (wanted - 1) background)).reserved c.pool = pool.dialing :=
      reserved_setMember hm' _
    rw [hdialing, held_beginDial, hpurpose]
    show pool.dialing + wanted = m.pool.dialing + (wanted - 1)
    omega

/-- **A cancelled checkout gives its reservation back, and a cancelled sweep none.** -/
theorem Sound.reserved_cancel {f : Fleet} (h : f.Sound [] []) {id : Nat} {c : Call}
    (hc : f.call? id = some c) :
    (f.cancel id).reserved c.pool + c.purpose.givenBack = f.reserved c.pool := by
  obtain ⟨hmem, -⟩ := Sound.mem_calls hc
  obtain ⟨m, hm⟩ := h.exists_pool hc
  have hm' : (f.endCall id).members[c.pool]? = some m := hm
  unfold Fleet.cancel
  simp only [hc]
  cases hpurpose : c.purpose with
  | checkout returns =>
    have hone := Nat.le_trans (h.callers c hmem).2 (h.dials_le hmem hm)
    simp only
    rw [Sound.modifyPool_eq hm', reserved_setMember hm', reserved_eq hm]
    exact Pool.dialing_unreserve hone
  | sweep wanted background => rfl

/-! ## The bound -/

/-- **In every fleet that turns lead to, each pool keeps to its maximum**, and the reservations
that its waiting calls can give back are there. -/
theorem capacity_respected (turns : List (Nat × FleetTurn)) (i : Nat) (m : Member)
    (hm : (empty.run turns).members[i]? = some m) :
    m.pool.config.normalized = m.pool.config ∧
    m.pool.occupied ≤ m.pool.config.maxSize ∧
    ((empty.run turns).openNumbers i).length + ((empty.run turns).waiting i).length ≤
      m.pool.config.maxSize ∧
    ∀ c ∈ (empty.run turns).waiting i,
      (∀ now outcome,
        ((empty.run turns).endDial now c.id outcome).2.reserved i + c.purpose.dials =
          m.pool.dialing + ((empty.run turns).endDial now c.id outcome).2.held c.id) ∧
      ((empty.run turns).cancel c.id).reserved i + c.purpose.givenBack = m.pool.dialing := by
  have h := sound_run turns
  have hacc := h.accounts i m hm
  refine ⟨hacc.normal, hacc.within, h.open_add_waiting_le hm, fun c hc => ?_⟩
  obtain ⟨hmem, hpool⟩ := List.mem_filter.mp hc
  have hcall := h.call?_of_mem hmem
  obtain rfl : c.pool = i := of_decide_eq_true hpool
  rw [← reserved_eq hm]
  exact ⟨h.reserved_endDial hcall, h.reserved_cancel hcall⟩

/-- A pool for one connection is closed while its handle is out: the handle still counts. -/
theorem capacity_respected_handle_out :
    let config := { PoolConfig.standard "db:1" with maxSize := 1 }
    let f := empty.run [(0, .connect config []), (1, .beginCheckout 0 false), (2, .close 0)]
    ∃ m, f.members[0]? = some m ∧ m.pool.closed = true ∧ f.openNumbers 0 = [1] ∧
      (f.openNumbers 0).length + (f.waiting 0).length ≤ m.pool.config.maxSize := by
  intro config f
  exact ⟨_, rfl, rfl, rfl, (capacity_respected _ 0 _ rfl).2.2.1⟩

end Fleet

end BoundedResources
