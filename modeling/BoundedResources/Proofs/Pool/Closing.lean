import BoundedResources.Proofs.Pool.Ownership
import BoundedResources.Proofs.Pool.Reservations

/-!
# Closing a pool is final

A pool can be closed at any moment: between the turns of a checkout, in the middle of a sweep, with
handles out. **`Fleet.closing_is_final`** says what is left to happen after that. No slot is made
any more and no dial begun, whoever asks for a connection is refused at once, a dial that was in
flight ends without one, and handles are closed wherever they are brought.

What a closed pool does not always get rid of are its reservations. Those of the calls that wait
are given back when their dials end, but a cancelled sweep has left its own behind
(`Fleet.dialing_of_closed_pool` is such a run).

A closed pool is followed through the turns by what it keeps (`Member.StaysShut`), whichever of them
are its own (`Fleet.KeepsShut`).
-/

set_option autoImplicit false

namespace BoundedResources

/-! ## The operations of a closed pool -/

namespace Pool

/-- The pool is closed and its slots are gone. -/
structure Shut (p : Pool) : Prop where
  closed : p.closed = true
  no_slots : p.slots = []

namespace Shut

variable {p : Pool}

theorem checkout (h : p.Shut) (now : Nat) (healthy : Connection → Bool) :
    p.checkout now healthy = (.error .closed, p) := by
  unfold Pool.checkout
  rw [if_pos h.closed]

theorem beginSweep (h : p.Shut) (healthy : Connection → Bool) :
    p.beginSweep healthy = (0, p) := by
  unfold Pool.beginSweep
  rw [if_pos h.closed]

theorem unreserve (h : p.Shut) (n : Nat) : (p.unreserve n).Shut := ⟨h.closed, h.no_slots⟩

/-- A checkout whose dial has ended gets no connection. -/
theorem endCheckout (h : p.Shut) (now : Nat) (dialed : Except PoolError Connection) :
    ∃ e p', p.endCheckout now dialed = (.error e, p') ∧ p'.Shut ∧ p'.requests = p.requests ∧
      e = match dialed with
        | .ok _ => .closed
        | .error e => e := by
  have hclosed : (p.unreserve 1).closed = true := h.closed
  unfold Pool.endCheckout
  cases dialed with
  | error e => exact ⟨e, _, rfl, ⟨h.closed, h.no_slots⟩, rfl, rfl⟩
  | ok conn =>
    simp only [hclosed, if_true]
    exact ⟨.closed, _, rfl, h.unreserve 1, rfl, rfl⟩

theorem endSweepDial (h : p.Shut) (now : Nat) (dialed : Except PoolError Connection) :
    p.endSweepDial now dialed = (false, p.unreserve 1) := by
  have hclosed : (p.unreserve 1).closed = true := h.closed
  unfold Pool.endSweepDial
  cases dialed with
  | error e => rfl
  | ok conn =>
    simp only [hclosed, if_true]

theorem putBack (h : p.Shut) (now id : Nat) (conn : Connection) : p.putBack now id conn = p := by
  unfold Pool.putBack
  rw [h.no_slots, List.map_nil, ← h.no_slots]

theorem free (h : p.Shut) (id : Nat) : p.free id = p := by
  unfold Pool.free
  rw [h.no_slots, List.filter_nil, ← h.no_slots]

theorem close (h : p.Shut) : p.close = p := by
  unfold Pool.close
  rw [← h.closed, ← h.no_slots]

end Shut

end Pool

/-- No change of the stock of a closed pool hands a connection out. -/
theorem Stock.Change.handed_eq_nil {s s' : Stock} {closed handed : List Nat}
    (h : Stock.Change s closed handed s') (hs : s.pool.Shut) : s'.pool.Shut ∧ handed = [] := by
  induction h with
  | keep hslots hnext hclosed hmade hlent =>
    exact ⟨⟨hclosed.trans hs.closed, hslots.trans hs.no_slots⟩, rfl⟩
  | prune s healthy =>
    refine ⟨⟨hs.closed, ?_⟩, rfl⟩
    show s.pool.slots.filter _ = []
    rw [hs.no_slots, List.filter_nil]
  | lend hslots hconn now | takeBack hslots hconn hlent now | free hslots hconn hlent =>
    -- These are about a slot, and there is none.
    have hnone := hslots.symm.trans hs.no_slots
    simp at hnone
  | openLent s hopen now | openIdle s hopen now tag =>
    exact absurd (hs.closed.symm.trans hopen) (by decide)
  | refuse s hclosed => exact ⟨hs, rfl⟩
  | lapse hclosed hlent => exact ⟨hs, rfl⟩
  | close s => exact ⟨⟨rfl, rfl⟩, rfl⟩
  | trans h h' ih ih' =>
    obtain ⟨hmid, rfl⟩ := ih hs
    obtain ⟨hend, rfl⟩ := ih' hmid
    exact ⟨hend, rfl⟩

/-! ## What a closed pool keeps -/

/-- The pool of one member is closed and later that of the other, and no dial was begun nor a
checkout counted in between. -/
structure Member.StaysShut (m m' : Member) : Prop where
  shut : m'.pool.Shut
  begun : m'.dialer.begun = m.dialer.begun
  requests : m'.pool.requests = m.pool.requests

namespace Member.StaysShut

variable {m m' m'' : Member}

theorem refl (h : m.pool.Shut) : m.StaysShut m := ⟨h, rfl, rfl⟩

theorem trans (h : m.StaysShut m') (h' : m'.StaysShut m'') : m.StaysShut m'' :=
  ⟨h'.shut, h'.begun.trans h.begun, h'.requests.trans h.requests⟩

theorem concluded (m : Member) (outcome : DialOutcome) {pool : Pool} (hpool : pool.Shut)
    (hrequests : pool.requests = m.pool.requests) :
    m.StaysShut ((m.concluded outcome).withPool pool) := by
  refine ⟨hpool, ?_, hrequests⟩
  cases outcome <;> rfl

end Member.StaysShut

namespace Fleet

variable {f f' f'' : Fleet} {i j : Nat} {m m' : Member} {holder : Holder} {x : Handle}

/-- If the pool with an index is closed in one fleet, it stays so until the other. -/
def KeepsShut (i : Nat) (f f' : Fleet) : Prop :=
  ∀ m, f.members[i]? = some m → m.pool.Shut → ∃ m', f'.members[i]? = some m' ∧ m.StaysShut m'

namespace KeepsShut

theorem of_members (h : f'.members = f.members) : KeepsShut i f f' :=
  fun m hm hshut => ⟨m, h ▸ hm, .refl hshut⟩

theorem trans (h : KeepsShut i f f') (h' : KeepsShut i f' f'') : KeepsShut i f f'' := by
  intro m hm hshut
  obtain ⟨m', hm', hstays⟩ := h m hm hshut
  obtain ⟨m'', hm'', hstays'⟩ := h' m' hm' hstays.shut
  exact ⟨m'', hm'', hstays.trans hstays'⟩

theorem setMember (hm : f.members[j]? = some m) (m' : Member)
    (hstays : m.pool.Shut → m.StaysShut m') : KeepsShut i f (f.setMember j m') := by
  intro n hn hshut
  show ∃ n', (f.members.set j m')[i]? = some n' ∧ _
  by_cases hij : j = i
  · subst hij
    obtain rfl : m = n := Option.some.inj (hm.symm.trans hn)
    exact ⟨m', List.getElem?_set_self (List.getElem?_eq_some_iff.mp hm).1, hstays hshut⟩
  · exact ⟨n, (List.getElem?_set_ne hij).trans hn, .refl hshut⟩

theorem modifyMember {change : Member → Member}
    (hstays : ∀ m : Member, m.pool.Shut → m.StaysShut (change m)) (j : Nat) :
    KeepsShut i f { f with members := f.members.modify j change } := by
  intro n hn hshut
  show ∃ n', (f.members.modify j change)[i]? = some n' ∧ _
  rw [List.getElem?_modify, hn]
  by_cases hij : j = i
  · exact ⟨change n, by simp [hij], hstays n hshut⟩
  · exact ⟨n, by simp [hij], .refl hshut⟩

/-! ## Handles -/

theorem putBack (f : Fleet) (now : Nat) (x : Handle) : KeepsShut i f (f.putBack now x) := by
  apply modifyMember
  intro m hshut
  simp only [hshut.putBack]
  exact .refl hshut

theorem closeHandle (f : Fleet) (x : Handle) : KeepsShut i f (f.closeHandle x) := by
  apply modifyMember
  intro m hshut
  simp only [hshut.free]
  exact .refl hshut

theorem letGo (f : Fleet) (now : Nat) (x : Handle) : KeepsShut i f (f.letGo now x) := by
  unfold Fleet.letGo
  split
  · exact putBack f now x
  · exact closeHandle f x

theorem of_takeHandle (h : KeepsShut i (f.takeHandle holder) f') : KeepsShut i f f' := h

theorem hold (f : Fleet) (now : Nat) (holder : Holder) (x : Handle) :
    KeepsShut i f (f.hold now holder x) := by
  unfold Fleet.hold
  cases f.handleOf? holder with
  | none => exact of_members rfl
  | some old =>
    have hheld : KeepsShut i f
        { f.takeHandle holder with handles := (f.takeHandle holder).handles ++ [(holder, x)] } :=
      of_members rfl
    exact hheld.trans (letGo _ now old)

theorem drop (f : Fleet) (now : Nat) (holder : Holder) : KeepsShut i f (f.drop now holder) := by
  unfold Fleet.drop
  split
  · exact of_members rfl
  · exact (letGo _ now _).of_takeHandle

theorem deliver (f : Fleet) (now id : Nat) (name : String) :
    KeepsShut i f (f.deliver now id name) := by
  unfold Fleet.deliver
  split
  · exact of_members rfl
  · exact (hold _ now _ _).of_takeHandle

theorem put (f : Fleet) (now j : Nat) (holder : Holder) : KeepsShut i f (f.put now j holder) := by
  unfold Fleet.put
  split
  · exact of_members rfl
  · simp only
    split
    · exact (putBack _ now _).of_takeHandle
    · exact (letGo _ now _).of_takeHandle

/-! ## Calls -/

/-- No dial is begun for a closed pool. -/
theorem beginDial (hm : f.members[j]? = some m) (hopen : ¬m.pool.Shut) (now id : Nat)
    (m' : Member) (purpose : Purpose) : KeepsShut i f (f.beginDial now id j m' purpose) := by
  have hset : KeepsShut i f (f.setMember j { m' with dialer := m'.dialer.begin.2 }) :=
    setMember hm _ fun hshut => absurd hshut hopen
  exact hset.trans (of_members rfl)

theorem beginCheckout (f : Fleet) (now j : Nat) (returns : Bool) :
    KeepsShut i f (f.beginCheckout now j returns).2 := by
  have hbegins := f.beginCheckout_cases now j returns
  generalize f.beginCheckout now j returns = begun at hbegins ⊢
  cases hbegins with
  | missing hm => exact of_members rfl
  | @refused m pool e hm hpool =>
    refine setMember (f := f.drawNext) hm _ fun hshut => ?_
    obtain ⟨-, rfl⟩ := Prod.mk.inj ((hshut.checkout now m.healthy).symm.trans hpool)
    exact .refl hshut
  | @lent m pool slot conn hm hpool =>
    have hset : KeepsShut i f.drawNext (f.drawNext.setMember j (m.withPool pool)) := by
      refine setMember hm _ fun hshut => ?_
      rw [hshut.checkout] at hpool
      simp at hpool
    exact hset.trans (hold _ now _ _)
  | @dials m pool hm hpool =>
    refine beginDial (f := f.drawNext) hm (fun hshut => ?_) now f.nextCall _ _
    rw [hshut.checkout] at hpool
    simp at hpool

theorem beginSweep (f : Fleet) (now j : Nat) (background : Bool) :
    KeepsShut i f (f.beginSweep now j background).2 := by
  have hbegins := f.beginSweep_cases now j background
  generalize f.beginSweep now j background = begun at hbegins ⊢
  cases hbegins with
  | missing hm => exact of_members rfl
  | @swept m pool hm hpool =>
    refine setMember (f := f.drawNext) hm _ fun hshut => ?_
    obtain ⟨-, rfl⟩ := Prod.mk.inj ((hshut.beginSweep m.healthy).symm.trans hpool)
    exact .refl hshut
  | @dials m pool wanted hm hpool hwanted =>
    refine beginDial (f := f.drawNext) hm (fun hshut => ?_) now f.nextCall _ _
    obtain ⟨rfl, -⟩ := Prod.mk.inj ((hshut.beginSweep m.healthy).symm.trans hpool)
    exact hwanted rfl

theorem cancel (f : Fleet) (id : Nat) : KeepsShut i f (f.cancel id) := by
  unfold Fleet.cancel
  cases f.call? id with
  | none => exact of_members rfl
  | some c =>
    simp only
    split
    · apply modifyMember (f := f.endCall id)
      intro m hshut
      exact ⟨hshut.unreserve 1, rfl, rfl⟩
    · exact of_members rfl

/-- A pool that nobody uses any more is closed, if it was not before. -/
theorem reap (f : Fleet) : KeepsShut i f f.reap := by
  intro m hm hshut
  refine ⟨f.reapMember i m, ?_, ?_⟩
  · show (f.members.mapIdx f.reapMember)[i]? = _
    rw [List.getElem?_mapIdx, hm]
    rfl
  · obtain ⟨hdialer, hsame | hclose⟩ := f.reapMember_cases i m
    · exact ⟨hsame ▸ hshut, congrArg Dialer.begun hdialer, congrArg Pool.requests hsame⟩
    · rw [hshut.close] at hclose
      exact ⟨hclose ▸ hshut, congrArg Dialer.begun hdialer, congrArg Pool.requests hclose⟩

theorem connect (f : Fleet) (now : Nat) (config : PoolConfig) (script : List DialPlan) :
    KeepsShut i f (f.connect now config script) := by
  intro m hm hshut
  obtain ⟨new, hconnect⟩ := f.connect_eq now config script
  have hlt : i < f.members.length := (List.getElem?_eq_some_iff.mp hm).1
  rw [hconnect]
  exact ⟨m, (List.getElem?_append_left hlt).trans hm, .refl hshut⟩

end KeepsShut

/-! ## Dials that end too late -/

/-- The error of a checkout from a closed pool whose dial has ended: that of the dial, if there
is one. -/
def lateError (m : Member) (outcome : DialOutcome) : PoolError :=
  match m.dialed outcome with
  | .ok _ => .closed
  | .error e => e

/-- What the call comes to whose dial ends for a closed pool. -/
def lateStatus (m : Member) (outcome : DialOutcome) : Purpose → CallStatus
  | .checkout _ => .checkedOut (.error (lateError m outcome))
  | .sweep _ _ => .swept

/-- **A dial for a closed pool ends with nothing**: its call is over, and the books of the pool are
all that changes. -/
theorem Sound.endDial_shut (h : f.Sound [] []) {c : Call} (hc : c ∈ f.calls)
    (hm : f.members[c.pool]? = some m) (hshut : m.pool.Shut) (now : Nat) (outcome : DialOutcome) :
    ∃ m', f.endDial now c.id outcome =
        (lateStatus m outcome c.purpose, (f.endCall c.id).setMember c.pool m') ∧
      m.StaysShut m' := by
  have hends := endDial_cases (h.call?_of_mem hc) hm now outcome
  have hcheckout := hshut.endCheckout now (m.dialed outcome)
  have hsweep := hshut.endSweepDial now (m.dialed outcome)
  generalize f.endDial now c.id outcome = ended at hends ⊢
  cases hends with
  | @refused pool returns e hpurpose hpool =>
    obtain ⟨e', pool', hend, hshut', hrequests, he⟩ := hcheckout
    obtain ⟨he', rfl⟩ := Prod.mk.inj (hpool.symm.trans hend)
    obtain rfl := Except.error.inj he'
    refine ⟨_, ?_, .concluded m outcome hshut' hrequests⟩
    rw [hpurpose, lateStatus, lateError, he]
  | lent hpurpose hpool =>
    obtain ⟨e', pool', hend, -⟩ := hcheckout
    rw [hend] at hpool
    simp at hpool
  | @givesUp pool wanted background hpurpose hpool =>
    obtain ⟨-, rfl⟩ := Prod.mk.inj (hsweep.symm.trans hpool)
    refine ⟨_, ?_, .concluded m outcome ((hshut.unreserve 1).unreserve (wanted - 1)) rfl⟩
    rw [hpurpose, lateStatus]
  | swept hpurpose hpool hlast | dials hpurpose hpool hmore =>
    rw [hsweep] at hpool
    simp at hpool

theorem Sound.keepsShut_endDial (h : f.Sound [] []) (now id : Nat) (outcome : DialOutcome) :
    KeepsShut i f (f.endDial now id outcome).2 := by
  cases hc : f.call? id with
  | none =>
    rw [endDial_of_none hc]
    exact .of_members rfl
  | some c =>
    obtain ⟨hmem, rfl⟩ := Sound.mem_calls hc
    intro m hm hshut
    by_cases hi : c.pool = i
    · subst hi
      obtain ⟨m', hend, hstays⟩ := h.endDial_shut hmem hm hshut now outcome
      rw [hend]
      exact ⟨m', List.getElem?_set_self (List.getElem?_eq_some_iff.mp hm).1, hstays⟩
    · -- The dial is another pool's, which may well be open.
      obtain ⟨n, hn⟩ := h.exists_pool hc
      have hother (n' : Member) : KeepsShut i f ((f.endCall c.id).setMember c.pool n') :=
        fun m hm hshut => ⟨m, (List.getElem?_set_ne hi).trans hm, .refl hshut⟩
      have hends := endDial_cases hc hn now outcome
      generalize f.endDial now c.id outcome = ended at hends ⊢
      cases hends with
      | refused | givesUp | swept => exact hother _ m hm hshut
      | lent => exact ((hother _).trans (.hold _ now _ _)) m hm hshut
      | dials => exact hother _ m hm hshut

/-! ## Every turn -/

theorem Sound.keepsShut_turn (h : f.Sound [] []) (now : Nat) (t : FleetTurn) :
    KeepsShut i f (f.turn now t) := by
  cases t with
  | connect config script => exact .connect f now config script
  | beginCheckout j returns => exact .beginCheckout f now j returns
  | beginSweep j background => exact .beginSweep f now j background
  | endDial id outcome => exact h.keepsShut_endDial now id outcome
  | cancel id => exact .cancel f id
  | openGate j => exact .of_members rfl
  | put j holder => exact .put f now j holder
  | drop holder => exact .drop f now holder
  | deliver id name => exact .deliver f now id name
  | tag holder text => exact .of_members rfl
  | close j =>
    apply KeepsShut.modifyMember
    intro m hshut
    exact ⟨⟨rfl, rfl⟩, rfl, rfl⟩
  | detach j | plan j ticker | setHealth j number ok | script j plans =>
    apply KeepsShut.modifyMember
    intro m hshut
    exact ⟨hshut, rfl, rfl⟩
  | reap => exact .reap f

theorem Sound.keepsShut_run (h : f.Sound [] []) (turns : List (Nat × FleetTurn)) :
    KeepsShut i f (f.run turns) := by
  refine (runTurns_induction (P := fun f' : Fleet => f'.Sound [] [] ∧ KeepsShut i f f')
    ⟨h, .of_members rfl⟩ ?_ turns).2
  rintro f' now t ⟨hs, hkeeps⟩
  exact ⟨hs.turn now t, hkeeps.trans (hs.keepsShut_turn now t)⟩

/-! ## Calls and handles that come too late -/

theorem setMember_self (hm : f.members[i]? = some m) : f.setMember i m = f := by
  obtain ⟨hlt, rfl⟩ := List.getElem?_eq_some_iff.mp hm
  unfold setMember
  rw [List.set_getElem_self]

theorem beginCheckout_shut (hm : f.members[i]? = some m) (hshut : m.pool.Shut) (now : Nat)
    (returns : Bool) :
    f.beginCheckout now i returns = (.checkedOut (.error .closed), f.drawNext) := by
  have hself : f.drawNext.setMember i (m.withPool m.pool) = f.drawNext := setMember_self hm
  unfold beginCheckout
  simp only [hm, hshut.checkout]
  exact congrArg _ hself

theorem beginSweep_shut (hm : f.members[i]? = some m) (hshut : m.pool.Shut) (now : Nat)
    (background : Bool) : f.beginSweep now i background = (.swept, f.drawNext) := by
  have hself : f.drawNext.setMember i (m.withPool m.pool) = f.drawNext := setMember_self hm
  unfold beginSweep
  simp only [hm, hshut.beginSweep, if_true]
  exact congrArg _ hself

theorem close_shut (hm : f.members[i]? = some m) (hshut : m.pool.Shut) :
    f.close i = f.setMember i { m with ticker := none } := by
  unfold close
  rw [Sound.modifyMember_eq hm, hshut.close]

/-- Nobody but the holders of handles has connections of a closed pool. -/
theorem openNumbers_shut (hm : f.members[i]? = some m) (hshut : m.pool.Shut) :
    f.openNumbers i = (f.handles.filter fun p => p.2.pool == i).map fun p => p.2.conn.number := by
  unfold openNumbers
  simp only [hm]
  rw [hshut.no_slots, List.filterMap_nil, List.nil_append]

/-- The dial of a call ends for a closed pool: the call gets nothing, its reservations are given
back, and a connection that was opened is closed and nowhere to be found. -/
structure EndsTooLate (f : Fleet) (m : Member) (c : Call) (now : Nat) (outcome : DialOutcome) :
    Prop where
  status : (f.endDial now c.id outcome).1 = lateStatus m outcome c.purpose
  handles : (f.endDial now c.id outcome).2.handles = f.handles
  calls : (f.endDial now c.id outcome).2.calls = (f.endCall c.id).calls
  given_back : (f.endDial now c.id outcome).2.reserved c.pool + c.purpose.dials =
    f.reserved c.pool
  closes : f.passages now (.endDial c.id outcome) = (m.refused outcome).map (.closed c.pool)
  nowhere : (f.endDial now c.id outcome).2.openNumbers c.pool = f.openNumbers c.pool

theorem Sound.endsTooLate (h : f.Sound [] []) {c : Call} (hc : c ∈ f.calls)
    (hm : f.members[c.pool]? = some m) (hshut : m.pool.Shut) (now : Nat)
    (outcome : DialOutcome) : f.EndsTooLate m c now outcome := by
  obtain ⟨m', hend, hstays⟩ := h.endDial_shut hc hm hshut now outcome
  have hcall := h.call?_of_mem hc
  refine ⟨by rw [hend], by rw [hend]; rfl, by rw [hend]; rfl, ?_, ?_, ?_⟩
  · have hback := h.reserved_endDial hcall now outcome
    rwa [hend, held_setMember, ← hend] at hback
  · have hnone : handsOut c.id (f.endDial now c.id outcome) = [] := by
      rw [hend]
      cases c.purpose <;> rfl
    rw [passages, hnone, List.append_nil]
    exact refuses_eq hcall hm outcome
  · have hm' : ((f.endCall c.id).setMember c.pool m').members[c.pool]? = some m' :=
      List.getElem?_set_self (List.getElem?_eq_some_iff.mp hm).1
    rw [hend, openNumbers_shut hm hshut, openNumbers_shut hm' hstays.shut]
    rfl

/-- Wherever a holder brings its handle, the connection is closed and gone. -/
structure ClosesOnReturn (f : Fleet) (holder : Holder) (x : Handle) (now : Nat) : Prop where
  drop : f.drop now holder = f.takeHandle holder
  drop_closes : f.passages now (.drop holder) = [.closed x.pool x.conn.number]
  put : ∀ j, f.put now j holder = f.takeHandle holder
  put_closes : ∀ j, f.passages now (.put j holder) = [.closed x.pool x.conn.number]
  gone : (f.openNumbers x.pool).Perm
    (x.conn.number :: (f.takeHandle holder).openNumbers x.pool)

theorem putBack_shut (hm : f.members[x.pool]? = some m) (hshut : m.pool.Shut) (now : Nat) :
    f.putBack now x = f := by
  unfold putBack
  rw [Sound.modifyPool_eq hm, hshut.putBack]
  exact setMember_self hm

theorem letGo_shut (hm : f.members[x.pool]? = some m) (hshut : m.pool.Shut) (now : Nat) :
    f.letGo now x = f := by
  unfold letGo
  split
  · exact putBack_shut hm hshut now
  · unfold closeHandle
    rw [Sound.modifyPool_eq hm, hshut.free]
    exact setMember_self hm

theorem lapses_shut (hm : f.members[x.pool]? = some m) (hshut : m.pool.Shut) (back : Bool) :
    f.lapses x back = [.closed x.pool x.conn.number] := by
  rw [lapses, isOpen_eq hm, hshut.closed, Bool.not_true, Bool.and_false]
  rfl

theorem Sound.closesOnReturn (h : f.Sound [] []) (hx : f.handleOf? holder = some x)
    (hm : f.members[x.pool]? = some m) (hshut : m.pool.Shut) (now : Nat) :
    f.ClosesOnReturn holder x now := by
  have htaken : (f.takeHandle holder).members[x.pool]? = some m := hm
  refine ⟨?_, ?_, fun j => ?_, fun j => ?_, ?_⟩
  · unfold Fleet.drop
    rw [hx]
    exact letGo_shut htaken hshut now
  · rw [passages, givesUp, hx]
    exact lapses_shut hm hshut _
  · unfold Fleet.put
    rw [hx]
    simp only
    split
    · exact putBack_shut htaken hshut now
    · exact letGo_shut htaken hshut now
  · rw [passages, puts, hx]
    exact lapses_shut hm hshut _
  · rw [openNumbers_shut hm hshut, openNumbers_shut htaken hshut]
    have hperm := ((h.handles_perm hx).filter fun p => p.2.pool == x.pool).map
      fun p => p.2.conn.number
    simpa using hperm

/-! ## From the closing on -/

/-- What is known of the pool with an index, which was closed when it was `m` and is `m'` now, in
a fleet in which cancelled sweeps have left some calls behind. -/
structure ClosedForGood (f : Fleet) (left : List Call) (i : Nat) (m m' : Member) : Prop where
  present : f.members[i]? = some m'
  stays : m.StaysShut m'
  checkout : ∀ now returns,
    f.beginCheckout now i returns = (.checkedOut (.error .closed), f.drawNext)
  sweep : ∀ now background, f.beginSweep now i background = (.swept, f.drawNext)
  dials : ∀ c ∈ f.waiting i, ∀ now outcome, f.EndsTooLate m' c now outcome
  handles : ∀ holder x, f.handleOf? holder = some x → x.pool = i →
    ∀ now, f.ClosesOnReturn holder x now
  /-- Closing it again takes the plan for a background sweep away, if there should be one. -/
  again : f.close i = f.setMember i { m' with ticker := none }
  again_quiet : m'.ticker = none → f.close i = f
  reservations : m'.pool.dialing = dialsFor i f.calls + dialsFor i left
  /-- Once all handles are gone, no connection is open. -/
  no_connection : (∀ p ∈ f.handles, p.2.pool ≠ i) → f.openNumbers i = []
  /-- Once all dials have ended, no reservation is left but those of cancelled sweeps. -/
  no_reservation : f.waiting i = [] → (m'.pool.dialing = 0 ↔ ∀ c ∈ left, c.pool ≠ i)

/-- **Closing a pool is final.** In the fleet of any run in which a pool is closed, and however it
goes on from there: the pool stays closed and empty, no dial is begun and no connection handed out
for it, and all that is left to do is to end the dials and to close the connections that were out
when it was closed. -/
theorem closing_is_final (turns : List (Nat × FleetTurn)) (i : Nat) (m : Member)
    (hm : (empty.run turns).members[i]? = some m) (hclosed : m.pool.closed = true)
    (later : List (Nat × FleetTurn)) :
    (∃ m', ((empty.run turns).run later).ClosedForGood (empty.leftBehind (turns ++ later)) i m
        m') ∧
      handedOutBy i ((empty.run turns).passed later) = [] := by
  have hsound := sound_run turns
  have hshut : m.pool.Shut := ⟨hclosed, (hsound.accounts i m hm).no_slots hclosed⟩
  obtain ⟨m', hm', hstays⟩ := hsound.keepsShut_run later m hm hshut
  have hboth : (empty.run turns).run later = empty.run (turns ++ later) :=
    (runTurns_append turn empty turns later).symm
  have hlater : ((empty.run turns).run later).Sound [] [] := hboth ▸ sound_run (turns ++ later)
  have hreserved := reserved_run (turns ++ later) i
  rw [← hboth, reserved_eq hm'] at hreserved
  constructor
  · refine ⟨m', hm', hstays, beginCheckout_shut hm' hstays.shut, beginSweep_shut hm' hstays.shut,
      ?_, ?_, close_shut hm' hstays.shut, ?_, hreserved, ?_, ?_⟩
    · intro c hc now outcome
      obtain ⟨hmem, hpool⟩ := List.mem_filter.mp hc
      obtain rfl : c.pool = i := of_decide_eq_true hpool
      exact hlater.endsTooLate hmem hm' hstays.shut now outcome
    · rintro holder x hx rfl now
      exact hlater.closesOnReturn hx hm' hstays.shut now
    · intro hquiet
      have hself : { m' with ticker := none } = m' := by rw [← hquiet]
      rw [close_shut hm' hstays.shut, hself]
      exact setMember_self hm'
    · intro hnone
      rw [openNumbers_shut hm' hstays.shut, List.filter_eq_nil_iff.mpr, List.map_nil]
      intro p hp
      simpa using hnone p hp
    · intro hwaiting
      have hheld : dialsFor i ((empty.run turns).run later).calls = 0 := by
        show (((((empty.run turns).run later).waiting i).map fun c => c.purpose.dials).sum) = 0
        rw [hwaiting]
        rfl
      rw [hreserved, hheld, Nat.zero_add]
      exact dialsFor_eq_zero_iff (dials_of_mem_leftBehind (turns ++ later)) i
  · have hpasses := hsound.passes_run (apart_run turns) later
    exact ((hpasses.change i m m' hm hm').handed_eq_nil hshut).2

/-- A pool is closed with a handle out and a dial in flight; then the dial succeeds and the handle
is dropped. -/
theorem closing_is_final_handle_and_dial :
    let config := { PoolConfig.standard "db:1" with maxSize := 2, minSize := 1 }
    let turns : List (Nat × FleetTurn) := [(0, .connect config []), (1, .beginCheckout 0 true),
      (1, .deliver 0 "a"), (2, .beginCheckout 0 false), (3, .close 0)]
    let later : List (Nat × FleetTurn) := [(4, .endDial 1 (.opened false)),
      (5, .drop (.name "a"))]
    let f := (empty.run turns).run later
    ∃ m m', (empty.run turns).members[0]? = some m ∧ m.pool.closed = true ∧ m.pool.dialing = 1 ∧
      f.ClosedForGood (empty.leftBehind (turns ++ later)) 0 m m' ∧
      f.openNumbers 0 = [] ∧ m'.pool.dialing = 0 := by
  intro config turns later f
  have hbooks : ((empty.run turns).members[0]?.map fun m => (m.pool.closed, m.pool.dialing)) =
      some (true, 1) := by
    decide +kernel
  have hhandles : f.handles.length = 0 := by decide +kernel
  have hcalls : f.calls.length = 0 := by decide +kernel
  have hleft : (empty.leftBehind (turns ++ later)).length = 0 := by decide +kernel
  obtain ⟨m, hm, hclosed⟩ := Option.map_eq_some_iff.mp hbooks
  obtain ⟨hclosed, hdialing⟩ := Prod.mk.inj hclosed
  obtain ⟨⟨m', hgood⟩, -⟩ := closing_is_final turns 0 m hm hclosed later
  refine ⟨m, m', hm, hclosed, hdialing, hgood, hgood.no_connection ?_, ?_⟩
  · intro p hp
    rw [List.length_eq_zero_iff.mp hhandles] at hp
    cases hp
  · have hwaiting : f.waiting 0 = [] := by
      rw [waiting, List.length_eq_zero_iff.mp hcalls, List.filter_nil]
    refine (hgood.no_reservation hwaiting).mpr fun c hc => ?_
    rw [List.length_eq_zero_iff.mp hleft] at hc
    cases hc

/-- A pool is closed during a sweep for its one connection, and then the sweep is cancelled: the
pool has no connection, no handle and no call, and a reservation all the same. -/
theorem dialing_of_closed_pool :
    let config := { PoolConfig.standard "db:1" with maxSize := 1, minSize := 1 }
    let f := empty.run [(0, .connect config []), (1, .setHealth 0 none false),
      (1, .beginSweep 0 false), (2, .close 0), (3, .cancel 0)]
    (f.members.map fun m => (m.pool.closed, m.pool.slots.length, m.pool.dialing)) =
        [(true, 0, 1)] ∧
      f.handles.length = 0 ∧ f.calls.length = 0 := by
  intro config f
  decide +kernel

end Fleet

end BoundedResources
