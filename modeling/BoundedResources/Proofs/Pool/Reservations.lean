import BoundedResources.Proofs.Pool.Capacity

/-!
# Who holds the reservations of a pool

Every reservation in the books of a pool was made for a call. This file says which of them a call
still holds: **`Fleet.dialing_eq_held_add_left`** says that after every run of turns the
reservations are those that the waiting calls hold, and those that cancelled sweeps held when they
were cancelled. A cancelled checkout takes its reservation along, so that it leaves nothing behind.
A cancelled sweep leaves behind all that it holds, and the pool never gets that back: the books
name what is held and no more exactly as long as no sweep of the pool was cancelled while it
waited for a dial (`Fleet.dialing_after_cancelled_sweep` is the shortest run in which one was).
-/

set_option autoImplicit false

namespace BoundedResources

namespace Pool

theorem dialing_checkout (p : Pool) (now : Nat) (healthy : Connection → Bool) :
    (p.checkout now healthy).2.dialing =
      p.dialing + match (p.checkout now healthy).1 with
        | .ok .room => 1
        | _ => 0 := by
  unfold checkout
  split
  · rfl
  · simp only
    split
    · rfl
    · split <;> rfl

theorem dialing_beginSweep (p : Pool) (healthy : Connection → Bool) :
    (p.beginSweep healthy).2.dialing = p.dialing + (p.beginSweep healthy).1 :=
  congrArg Counts.dialing (p.counts_beginSweep healthy)

end Pool

/-- Whether a call waits for a dial of a sweep. -/
def Call.sweeps (c : Call) : Bool :=
  match c.purpose with
  | .checkout _ => false
  | .sweep _ _ => true

namespace Fleet

/-- The sweeps that a turn cancels while they wait. -/
def cancelledSweeps (f : Fleet) (_ : Nat) : FleetTurn → List Call
  | .cancel id => (f.call? id).toList.filter Call.sweeps
  | _ => []

/-- The sweeps that were cancelled while they waited, each as it was then, in the course of some
turns at a fleet. -/
def leftBehind (f : Fleet) (turns : List (Nat × FleetTurn)) : List Call :=
  runReports turn cancelledSweeps f turns

variable {f f' : Fleet} {i j : Nat} {m m' : Member}

/-! ## Calls come and go -/

/-- A waiting call is one of the calls, and the others stay when it no longer waits. -/
theorem Sound.calls_perm (h : f.Sound [] []) {id : Nat} {c : Call} (hc : f.call? id = some c) :
    f.calls.Perm (c :: (f.endCall id).calls) := by
  obtain ⟨hid, front, back, hsplit, hfront⟩ := List.find?_eq_some_iff_append.mp hc
  have hnumbers := h.numbers
  rw [hsplit, List.map_append, List.map_cons, List.nodup_middle, List.nodup_cons] at hnumbers
  have hstay : ∀ c' ∈ front ++ back, (!(c'.id == id)) = true := by
    intro c' hc'
    rw [← List.map_append] at hnumbers
    have hne : c'.id ≠ c.id := fun heq => hnumbers.1 (heq ▸ List.mem_map_of_mem hc')
    simpa [← eq_of_beq hid] using hne
  have hrest : (f.endCall id).calls = front ++ back := by
    show f.calls.filter _ = front ++ back
    rw [hsplit, List.filter_append, List.filter_cons_of_neg (by simp [hid]), ← List.filter_append,
      List.filter_eq_self.mpr hstay]
  rw [hrest, hsplit]
  exact List.perm_middle

theorem Sound.dialsFor_endCall (h : f.Sound [] []) {id : Nat} {c : Call}
    (hc : f.call? id = some c) (i : Nat) :
    dialsFor i f.calls =
      (if c.pool = i then c.purpose.dials else 0) + dialsFor i (f.endCall id).calls := by
  rw [dialsFor_perm i (h.calls_perm hc), dialsFor_cons]

theorem reserved_setMember_of_ne (f : Fleet) (m' : Member) (hij : j ≠ i) :
    (f.setMember j m').reserved i = f.reserved i := by
  unfold reserved setMember
  rw [List.getElem?_set_ne hij]

/-- A pool changes otherwise. -/
theorem reserved_setMember_eq (hm : f.members[j]? = some m) (m' : Member)
    (hpool : m'.pool.dialing = m.pool.dialing) (i : Nat) :
    (f.setMember j m').reserved i = f.reserved i := by
  by_cases hij : j = i
  · subst hij
    rw [reserved_setMember hm, reserved_eq hm, hpool]
  · exact reserved_setMember_of_ne f m' hij

theorem dialsFor_beginDial (f : Fleet) (now id j : Nat) (m : Member) (purpose : Purpose)
    (i : Nat) : dialsFor i (f.beginDial now id j m purpose).calls =
      dialsFor i f.calls + if j = i then purpose.dials else 0 := by
  unfold beginDial
  rw [dialsFor_append, dialsFor_cons]
  rfl

/-- A pool makes reservations, and a call begins to wait with them. -/
theorem reserved_beginDial (hm : f.members[j]? = some m) (m' : Member) (purpose : Purpose)
    (hpool : m'.pool.dialing = m.pool.dialing + purpose.dials) (now id i : Nat) :
    (f.beginDial now id j m' purpose).reserved i + dialsFor i f.calls =
      f.reserved i + dialsFor i (f.beginDial now id j m' purpose).calls := by
  have hreserved : (f.beginDial now id j m' purpose).reserved i =
      (f.setMember j { m' with dialer := m'.dialer.begin.2 }).reserved i := rfl
  rw [dialsFor_beginDial, hreserved]
  by_cases hij : j = i
  · subst hij
    rw [if_pos rfl, reserved_setMember hm, reserved_eq hm]
    show m'.pool.dialing + _ = _
    omega
  · rw [if_neg hij, reserved_setMember_of_ne f _ hij]
    rfl

/-! ## What a turn does -/

/-- Nothing that has to do with dials changes, and nothing is left behind. -/
theorem Quiet.balanced (h : Quiet f f') (i : Nat) :
    f'.reserved i + dialsFor i f.calls = f.reserved i + dialsFor i f'.calls + dialsFor i [] := by
  rw [h.reserved, dialsFor_eq_asked i f'.calls, h.calls, ← dialsFor_eq_asked]
  rfl

theorem reserved_beginCheckout (f : Fleet) (now j : Nat) (returns : Bool) (i : Nat) :
    (f.beginCheckout now j returns).2.reserved i + dialsFor i f.calls =
      f.reserved i + dialsFor i (f.beginCheckout now j returns).2.calls := by
  have hbegins := f.beginCheckout_cases now j returns
  generalize f.beginCheckout now j returns = begun at hbegins ⊢
  cases hbegins with
  | missing hm => rfl
  | @refused m pool e hm hpool =>
    have hdialing := m.pool.dialing_checkout now m.healthy
    rw [hpool] at hdialing
    have hset := reserved_setMember_eq (f := f.drawNext) hm (m.withPool pool) hdialing i
    exact congrArg (· + _) hset
  | @lent m pool slot conn hm hpool =>
    have hdialing := m.pool.dialing_checkout now m.healthy
    rw [hpool] at hdialing
    have hset := reserved_setMember_eq (f := f.drawNext) hm (m.withPool pool) hdialing i
    simp only
    rw [reserved_hold, calls_hold]
    exact congrArg (· + _) hset
  | @dials m pool hm hpool =>
    have hdialing := m.pool.dialing_checkout now m.healthy
    rw [hpool] at hdialing
    exact reserved_beginDial (f := f.drawNext) hm (m.withPool pool) (.checkout returns) hdialing
      now f.nextCall i

theorem reserved_beginSweep (f : Fleet) (now j : Nat) (background : Bool) (i : Nat) :
    (f.beginSweep now j background).2.reserved i + dialsFor i f.calls =
      f.reserved i + dialsFor i (f.beginSweep now j background).2.calls := by
  have hbegins := f.beginSweep_cases now j background
  generalize f.beginSweep now j background = begun at hbegins ⊢
  cases hbegins with
  | missing hm => rfl
  | @swept m pool hm hpool =>
    have hdialing := m.pool.dialing_beginSweep m.healthy
    rw [hpool] at hdialing
    have hset := reserved_setMember_eq (f := f.drawNext) hm (m.withPool pool) hdialing i
    exact congrArg (· + _) hset
  | @dials m pool wanted hm hpool hwanted =>
    have hdialing := m.pool.dialing_beginSweep m.healthy
    rw [hpool] at hdialing
    exact reserved_beginDial (f := f.drawNext) hm (m.withPool pool) (.sweep wanted background)
      hdialing now f.nextCall i

theorem calls_cancel {id : Nat} {c : Call} (hc : f.call? id = some c) :
    (f.cancel id).calls = (f.endCall id).calls := by
  unfold cancel
  simp only [hc]
  split <;> rfl

theorem reserved_cancel_of_ne {id : Nat} {c : Call} (hc : f.call? id = some c)
    (hne : c.pool ≠ i) : (f.cancel id).reserved i = f.reserved i := by
  unfold cancel
  simp only [hc]
  split
  · unfold reserved modifyPool
    rw [List.getElem?_modify]
    simp [hne, endCall]
  · rfl

/-- What a cancelled call has still to do is given back or left behind. -/
theorem dialsFor_cancelledSweeps {id : Nat} {c : Call} (hc : f.call? id = some c) (now i : Nat) :
    dialsFor i (f.cancelledSweeps now (.cancel id)) +
        (if c.pool = i then c.purpose.givenBack else 0) =
      if c.pool = i then c.purpose.dials else 0 := by
  have hleft : f.cancelledSweeps now (.cancel id) = [c].filter Call.sweeps := by
    rw [cancelledSweeps, hc]
    rfl
  rw [hleft]
  cases hpurpose : c.purpose with
  | checkout returns =>
    have hnone : [c].filter Call.sweeps = [] := by simp [Call.sweeps, hpurpose]
    rw [hnone]
    exact Nat.zero_add _
  | sweep wanted background =>
    have hself : [c].filter Call.sweeps = [c] := by simp [Call.sweeps, hpurpose]
    rw [hself, dialsFor_cons, hpurpose]
    show _ + 0 + (if c.pool = i then 0 else 0) = _
    rw [ite_self]
    rfl

/-- **A cancelled checkout takes its reservation along, a cancelled sweep leaves all of its own
behind.** -/
theorem Sound.reserved_cancel_add (h : f.Sound [] []) (now id i : Nat) :
    (f.cancel id).reserved i + dialsFor i f.calls =
      f.reserved i + dialsFor i (f.cancel id).calls +
        dialsFor i (f.cancelledSweeps now (.cancel id)) := by
  cases hc : f.call? id with
  | none =>
    have hcancel : f.cancel id = f := by
      unfold Fleet.cancel
      rw [hc]
    rw [hcancel, cancelledSweeps, hc]
    rfl
  | some c =>
    have hleft := dialsFor_cancelledSweeps hc now i
    rw [h.dialsFor_endCall hc i, calls_cancel hc]
    by_cases hi : c.pool = i
    · subst hi
      have hback := h.reserved_cancel hc
      rw [if_pos rfl] at hleft ⊢
      rw [if_pos rfl] at hleft
      omega
    · rw [if_neg hi] at hleft ⊢
      rw [if_neg hi] at hleft
      rw [reserved_cancel_of_ne hc hi]
      omega

/-- Of the dials that the calls have still to do, the end of a dial changes those of its call. -/
theorem Sound.dialsFor_endDial (h : f.Sound [] []) {id : Nat} {c : Call}
    (hc : f.call? id = some c) (now : Nat) (outcome : DialOutcome) (i : Nat) :
    dialsFor i (f.endDial now id outcome).2.calls =
      dialsFor i (f.endCall id).calls +
        if c.pool = i then (f.endDial now id outcome).2.held id else 0 := by
  obtain ⟨m, hm⟩ := h.exists_pool hc
  have hends := endDial_cases hc hm now outcome
  generalize f.endDial now id outcome = ended at hends ⊢
  cases hends with
  | refused | givesUp | swept =>
    rw [held_setMember, ite_self]
    rfl
  | lent =>
    rw [held_hold, held_setMember, ite_self, calls_hold]
    rfl
  | dials =>
    rw [held_beginDial]
    exact dialsFor_beginDial (f.endCall id) now id c.pool _ _ i

theorem Sound.reserved_endDial_of_ne (h : f.Sound [] []) {id : Nat} {c : Call}
    (hc : f.call? id = some c) (now : Nat) (outcome : DialOutcome) (hne : c.pool ≠ i) :
    (f.endDial now id outcome).2.reserved i = f.reserved i := by
  obtain ⟨m, hm⟩ := h.exists_pool hc
  have hset (m' : Member) : ((f.endCall id).setMember c.pool m').reserved i = f.reserved i :=
    reserved_setMember_of_ne (f.endCall id) m' hne
  have hends := endDial_cases hc hm now outcome
  generalize f.endDial now id outcome = ended at hends ⊢
  cases hends with
  | refused | givesUp | swept | dials => exact hset _
  | lent => exact (reserved_hold _ now _ _ i).trans (hset _)

theorem Sound.reserved_endDial_add (h : f.Sound [] []) (now id : Nat) (outcome : DialOutcome)
    (i : Nat) : (f.endDial now id outcome).2.reserved i + dialsFor i f.calls =
      f.reserved i + dialsFor i (f.endDial now id outcome).2.calls := by
  cases hc : f.call? id with
  | none =>
    rw [endDial_of_none hc]
  | some c =>
    rw [h.dialsFor_endCall hc i, h.dialsFor_endDial hc now outcome i]
    -- The pool of the call gets back what the call holds no longer, and no other pool changes.
    by_cases hi : c.pool = i
    · subst hi
      have hback := h.reserved_endDial hc now outcome
      rw [if_pos rfl, if_pos rfl]
      omega
    · rw [h.reserved_endDial_of_ne hc now outcome hi, if_neg hi, if_neg hi]
      omega

theorem Sound.reserved_turn (h : f.Sound [] []) (now : Nat) (t : FleetTurn) (i : Nat) :
    (f.turn now t).reserved i + dialsFor i f.calls =
      f.reserved i + dialsFor i (f.turn now t).calls + dialsFor i (f.cancelledSweeps now t) := by
  cases t with
  | beginCheckout j returns => exact reserved_beginCheckout f now j returns i
  | beginSweep j background => exact reserved_beginSweep f now j background i
  | endDial id outcome => exact h.reserved_endDial_add now id outcome i
  | cancel id => exact h.reserved_cancel_add now id i
  | _ => exact (quiet_turn f now rfl).balanced i

/-- After every run of turns the reservations of a pool are those that its waiting calls hold and
those that cancelled sweeps have left behind. -/
theorem reserved_run (turns : List (Nat × FleetTurn)) (i : Nat) :
    (empty.run turns).reserved i =
      dialsFor i (empty.run turns).calls + dialsFor i (empty.leftBehind turns) := by
  refine (runReports_induction cancelledSweeps (P := fun f left => f.Sound [] [] ∧
    f.reserved i = dialsFor i f.calls + dialsFor i left) ⟨sound_empty, rfl⟩ ?_ turns).2
  rintro f left now t ⟨hf, hreserved⟩
  have hturn := hf.reserved_turn now t i
  rw [dialsFor_append]
  exact ⟨hf.turn now t, by omega⟩

/-! ## What the books name -/

/-- Whoever waits holds something, and so does whoever has waited. -/
theorem dials_of_mem_leftBehind (turns : List (Nat × FleetTurn)) :
    ∀ c ∈ empty.leftBehind turns, 1 ≤ c.purpose.dials := by
  refine (runReports_induction cancelledSweeps (P := fun f left => f.Sound [] [] ∧
    ∀ c ∈ left, 1 ≤ c.purpose.dials) ⟨sound_empty, fun _ hc => (nomatch hc)⟩ ?_ turns).2
  rintro f left now t ⟨hf, hleft⟩
  refine ⟨hf.turn now t, fun c hc => ?_⟩
  rcases List.mem_append.mp hc with hc | hc
  · exact hleft c hc
  · cases t with
    | cancel id =>
      have hcall := Option.mem_toList.mp (List.mem_filter.mp hc).1
      exact (hf.callers c (Sound.mem_calls hcall).1).2
    | _ => cases hc

theorem dialsFor_eq_zero_iff {cs : List Call} (h : ∀ c ∈ cs, 1 ≤ c.purpose.dials) (i : Nat) :
    dialsFor i cs = 0 ↔ ∀ c ∈ cs, c.pool ≠ i := by
  constructor
  · intro hzero c hc hpool
    have hle := le_dialsFor i hc
    rw [if_pos hpool, hzero] at hle
    exact absurd (Nat.le_trans (h c hc) hle) (by decide)
  · intro hother
    have hnone : cs.filter (fun c => c.pool = i) = [] := by simpa using hother
    rw [dialsFor, hnone]
    rfl

/-- **The reservations of a pool are those that its waiting calls hold and those that cancelled
sweeps have left behind.** They are the first alone exactly if none of its sweeps was cancelled
while it waited. Whatever a call holds, it holds no more when it is cancelled; what the books give
up of it is the one reservation of a checkout, and none of a sweep. -/
theorem dialing_eq_held_add_left (turns : List (Nat × FleetTurn)) (i : Nat) (m : Member)
    (hm : (empty.run turns).members[i]? = some m) :
    m.pool.dialing =
        dialsFor i (empty.run turns).calls + dialsFor i (empty.leftBehind turns) ∧
      (m.pool.dialing = dialsFor i (empty.run turns).calls ↔
        ∀ c ∈ empty.leftBehind turns, c.pool ≠ i) ∧
      ∀ c ∈ (empty.run turns).waiting i,
        dialsFor i ((empty.run turns).cancel c.id).calls + c.purpose.dials =
            dialsFor i (empty.run turns).calls ∧
          ((empty.run turns).cancel c.id).reserved i + c.purpose.givenBack = m.pool.dialing := by
  have h := sound_run turns
  have hdialing := reserved_run turns i
  rw [reserved_eq hm] at hdialing
  refine ⟨hdialing, ?_, fun c hc => ?_⟩
  · rw [← dialsFor_eq_zero_iff (dials_of_mem_leftBehind turns)]
    omega
  · obtain ⟨hmem, hpool⟩ := List.mem_filter.mp hc
    have hcall := h.call?_of_mem hmem
    obtain rfl : c.pool = i := of_decide_eq_true hpool
    constructor
    · rw [calls_cancel hcall, h.dialsFor_endCall hcall, if_pos rfl, Nat.add_comm]
    · rw [← reserved_eq hm]
      exact h.reserved_cancel hcall

/-- A checkout and a sweep for two connections are cancelled, in this order, and another checkout
begins: three reservations, one of which is held. -/
theorem dialing_eq_held_add_left_both_cancelled :
    let config := { PoolConfig.standard "db:1" with maxSize := 3, minSize := 2 }
    let turns : List (Nat × FleetTurn) := [(0, .connect config []), (1, .setHealth 0 none false),
      (1, .beginSweep 0 false), (1, .beginCheckout 0 true), (2, .cancel 1), (2, .cancel 0),
      (3, .beginCheckout 0 false)]
    ∃ m, (empty.run turns).members[0]? = some m ∧ m.pool.dialing = 3 ∧
      dialsFor 0 (empty.run turns).calls = 1 ∧
      m.pool.dialing =
        dialsFor 0 (empty.run turns).calls + dialsFor 0 (empty.leftBehind turns) := by
  intro config turns
  have hthree : ((empty.run turns).members[0]?.map fun m => m.pool.dialing) = some 3 := by
    decide +kernel
  obtain ⟨m, hm, hdialing⟩ := Option.map_eq_some_iff.mp hthree
  refine ⟨m, hm, hdialing, by decide +kernel, ?_⟩
  exact (dialing_eq_held_add_left turns 0 m hm).1

/-- A pool for one connection is swept, and the sweep cancelled during its dial: the reservation
stays although no call is left, and nobody gets a connection from the empty pool any more. -/
theorem dialing_after_cancelled_sweep :
    let config := { PoolConfig.standard "db:1" with maxSize := 1, minSize := 1 }
    let f := empty.run [(0, .connect config []), (1, .setHealth 0 none false),
      (1, .beginSweep 0 false), (2, .cancel 0)]
    (f.members.map fun m => (m.pool.slots.length, m.pool.closed, m.pool.dialing)) =
        [(0, false, 1)] ∧
      f.calls.length = 0 ∧
      (match (f.beginCheckout 3 0 false).1 with
        | .checkedOut (.error e) => e = .noAvailableConnections 1
        | _ => False) := by
  intro config f
  refine ⟨by decide +kernel, by decide +kernel, ?_⟩
  rfl

end Fleet

end BoundedResources
