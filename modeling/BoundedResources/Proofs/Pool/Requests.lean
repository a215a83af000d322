import BoundedResources.Proofs.Pool.Closing

/-!
# What becomes of the checkouts that are asked for

A pool counts a checkout when it is asked for, and an error when one fails. The two counts are moved
in different turns, a checkout can be cancelled between them, and a pool that was closed meanwhile
refuses the connection that was dialed for it without counting an error.

A `CheckoutEnd` is what somebody could note down who watches the checkouts end in the course of a
run. **`Fleet.requests_accounted`** says that the counts balance with these notes after every run:
each checkout that was counted waits for its dial or has ended in just one of the ways there are.
Sweeps and background work are not in the balance at all.
-/

set_option autoImplicit false

namespace BoundedResources

/-- How a checkout has ended. -/
inductive CheckoutEnd where
  | handedOut
  /-- It got an error, after a dial or at once. -/
  | failed (dialed : Bool) (e : PoolError)
  /-- It was cancelled while it waited for its dial. -/
  | cancelled
deriving DecidableEq

namespace CheckoutEnd

/-- Whether the checkout was counted. One that finds its pool closed is not. -/
def isCounted : CheckoutEnd → Bool
  | .failed false .closed => false
  | _ => true

/-- Whether the checkout has failed and that was counted. -/
def isError : CheckoutEnd → Bool
  | .failed _ (.noAvailableConnections _) => true
  | .failed _ (.dial _ _) => true
  | .failed _ (.dialTimeout _ _) => true
  | .failed _ .closed | .handedOut | .cancelled => false

/-- What there is to note when a checkout has come so far. -/
def told (dialed : Bool) : CallStatus → List CheckoutEnd
  | .checkedOut (.ok _) => [.handedOut]
  | .checkedOut (.error e) => [.failed dialed e]
  | .waiting | .swept => []

theorem mem_told {dialed dialed' : Bool} {e : PoolError} {status : CallStatus}
    (h : .failed dialed e ∈ told dialed' status) :
    dialed = dialed' ∧ status = .checkedOut (.error e) := by
  match status with
  | .checkedOut (.ok _) | .waiting | .swept => simp [told] at h
  | .checkedOut (.error e') =>
    obtain ⟨rfl, rfl⟩ : dialed = dialed' ∧ e = e' := by simpa [told] using h
    exact ⟨rfl, rfl⟩

/-- A checkout that was counted is in one place of the balance. -/
theorem countP_isCounted (ends : List CheckoutEnd) :
    ends.countP isCounted =
      ends.count .handedOut + ends.countP isError + ends.count .cancelled +
        ends.count (.failed true .closed) := by
  induction ends with
  | nil => rfl
  | cons e ends ih =>
    rw [List.countP_cons, List.countP_cons, List.count_cons, List.count_cons, List.count_cons, ih]
    cases e with
    | handedOut | cancelled =>
      simp [isCounted, isError]
      omega
    | failed dialed e =>
      cases dialed <;> cases e <;> simp [isCounted, isError] <;> omega

end CheckoutEnd

def Purpose.isCheckout : Purpose → Bool
  | .checkout _ => true
  | .sweep _ _ => false

/-- How many checkouts from a pool wait for their dials. -/
def seekers (i : Nat) (cs : List Call) : Nat :=
  cs.countP fun c => c.pool == i && c.purpose.isCheckout

theorem seekers_eq_asked (i : Nat) (cs : List Call) :
    seekers i cs = (cs.map Call.asked).countP fun a => a.2.1 == i && a.2.2.isCheckout := by
  rw [List.countP_map]
  rfl

theorem seekers_concat (i : Nat) (cs : List Call) (c : Call) :
    seekers i (cs ++ [c]) =
      seekers i cs + if c.pool == i && c.purpose.isCheckout then 1 else 0 := by
  simp [seekers]

/-! ## Checkouts that fail -/

/-- What a dial comes to is no error that its pool does not count. -/
theorem Member.isError_dialed {m : Member} {outcome : DialOutcome} {e : PoolError}
    (h : m.dialed outcome = .error e) : (CheckoutEnd.failed true e).isError = true := by
  cases outcome with
  | opened sick => simp [dialed, Dialer.conclude] at h
  | failed cause | timedOut =>
    simp only [dialed, Dialer.conclude, Except.error.injEq] at h
    rw [← h]
    rfl

/-- A checkout that gets nothing after its dial is an error of the dial, or else its pool was closed
meanwhile. -/
theorem Member.refused_cases {m : Member} {pool : Pool} {now : Nat} {outcome : DialOutcome}
    {e : PoolError} (hpool : m.pool.endCheckout now (m.dialed outcome) = (.error e, pool)) :
    ((CheckoutEnd.failed true e).isError = true ∧ pool.errors = m.pool.errors + 1) ∨
      (e = .closed ∧ m.pool.closed = true ∧ pool.errors = m.pool.errors) := by
  unfold Pool.endCheckout at hpool
  cases hdialed : m.dialed outcome with
  | error e' =>
    simp only [hdialed, Prod.mk.injEq, Except.error.injEq] at hpool
    obtain ⟨rfl, rfl⟩ := hpool
    exact .inl ⟨isError_dialed hdialed, rfl⟩
  | ok conn =>
    simp only [hdialed] at hpool
    split at hpool
    · rename_i hclosed
      simp only [Prod.mk.injEq, Except.error.injEq] at hpool
      obtain ⟨rfl, rfl⟩ := hpool
      exact .inr ⟨rfl, hclosed, rfl⟩
    · simp at hpool

theorem Pool.errors_lent {p pool : Pool} {now slot : Nat} {conn : Connection}
    {dialed : Except PoolError Connection}
    (hpool : p.endCheckout now dialed = (.ok (slot, conn), pool)) : pool.errors = p.errors := by
  unfold endCheckout at hpool
  cases dialed with
  | error e => simp at hpool
  | ok conn' =>
    simp only at hpool
    split at hpool
    · simp at hpool
    · obtain ⟨-, rfl⟩ := Prod.mk.inj hpool
      rfl

namespace Fleet

variable {f f' f'' : Fleet} {i j id : Nat} {m m' : Member} {c : Call}
variable {ends ends' : List CheckoutEnd}

/-- What there is to note about a call, if it waits for a dial for the pool. -/
def noteCall (f : Fleet) (i id : Nat) (note : Call → List CheckoutEnd) : List CheckoutEnd :=
  match f.call? id with
  | none => []
  | some c => if c.pool = i then note c else []

/-- The checkouts from a pool that end in a turn. -/
def checkoutEnds (i : Nat) (f : Fleet) (now : Nat) : FleetTurn → List CheckoutEnd
  | .beginCheckout j returns =>
    if j = i then CheckoutEnd.told false (f.beginCheckout now j returns).1 else []
  | .endDial id outcome =>
    f.noteCall i id fun _ => CheckoutEnd.told true (f.endDial now id outcome).1
  | .cancel id => f.noteCall i id fun c => if c.purpose.isCheckout then [.cancelled] else []
  | _ => []

/-- The checkouts from a pool that have ended in the course of some turns at a fleet. -/
def endedCheckouts (f : Fleet) (i : Nat) (turns : List (Nat × FleetTurn)) : List CheckoutEnd :=
  runReports turn (checkoutEnds i) f turns

/-! ## What a turn adds -/

/-- The counts of a pool move with the checkouts from it that end and those that wait. -/
structure Balanced (i : Nat) (f f' : Fleet) (ends : List CheckoutEnd) : Prop where
  requests : (f'.counts i).requests + seekers i f.calls =
    (f.counts i).requests + seekers i f'.calls + ends.countP CheckoutEnd.isCounted
  errors : (f'.counts i).errors = (f.counts i).errors + ends.countP CheckoutEnd.isError

namespace Balanced

theorem of_quiet (h : Quiet f f') : Balanced i f f' [] := by
  refine ⟨?_, ?_⟩
  · rw [h.counts, seekers_eq_asked i f'.calls, h.calls, ← seekers_eq_asked]
    rfl
  · rw [h.counts]
    rfl

theorem trans (h : Balanced i f f' ends) (h' : Balanced i f' f'' ends') :
    Balanced i f f'' (ends ++ ends') := by
  have hrequests := h.requests
  have hrequests' := h'.requests
  refine ⟨?_, ?_⟩
  · rw [List.countP_append]
    omega
  · rw [List.countP_append, h'.errors, h.errors, Nat.add_assoc]

theorem andQuiet (h : Balanced i f f' ends) (h' : Quiet f' f'') : Balanced i f f'' ends := by
  simpa using h.trans (of_quiet h')

/-- Nothing happens to the other pools and their calls. -/
theorem at_pool (hm : f.members[j]? = some m) (m' : Member) (ends : List CheckoutEnd)
    (hcounts : ∀ i, f'.counts i = if j = i then m'.pool.counts else f.counts i)
    (hothers : ∀ i, j ≠ i → seekers i f'.calls = seekers i f.calls)
    (hrequests : m'.pool.requests + seekers j f.calls =
      m.pool.requests + seekers j f'.calls + ends.countP CheckoutEnd.isCounted)
    (herrors : m'.pool.errors = m.pool.errors + ends.countP CheckoutEnd.isError) (i : Nat) :
    Balanced i f f' (if j = i then ends else []) := by
  have hcounts := hcounts i
  by_cases hij : j = i
  · subst hij
    rw [if_pos rfl] at hcounts ⊢
    constructor
    · rw [hcounts, counts_eq hm]
      exact hrequests
    · rw [hcounts, counts_eq hm]
      exact herrors
  · rw [if_neg hij] at hcounts ⊢
    constructor
    · rw [hcounts, hothers i hij]
      rfl
    · rw [hcounts]
      rfl

/-- A pool counts the checkouts that end. -/
theorem setMember (hm : f.members[j]? = some m) (m' : Member) (ends : List CheckoutEnd)
    (hrequests : m'.pool.requests = m.pool.requests + ends.countP CheckoutEnd.isCounted)
    (herrors : m'.pool.errors = m.pool.errors + ends.countP CheckoutEnd.isError) (i : Nat) :
    Balanced i f (f.setMember j m') (if j = i then ends else []) := by
  refine at_pool hm m' ends (counts_setMember hm m') (fun _ _ => rfl) ?_ herrors i
  rw [hrequests]
  exact Nat.add_right_comm _ _ _

/-- A pool changes otherwise. -/
theorem setMember_same (hm : f.members[j]? = some m) (m' : Member)
    (hrequests : m'.pool.requests = m.pool.requests) (herrors : m'.pool.errors = m.pool.errors)
    (i : Nat) : Balanced i f (f.setMember j m') [] := by
  have hset := setMember hm m' [] hrequests herrors i
  rwa [ite_self] at hset

/-- A sweep begins to wait. -/
theorem addSweep (h : Balanced i f f' ends) (hc : c.purpose.isCheckout = false) :
    Balanced i f { f' with calls := f'.calls ++ [c] } ends := by
  refine ⟨?_, h.errors⟩
  have hsame : seekers i (f'.calls ++ [c]) = seekers i f'.calls := by simp [seekers_concat, hc]
  simp only [hsame]
  exact h.requests

/-- A pool counts a checkout, which begins to wait. -/
theorem addCheckout (hm : f.members[j]? = some m) (m' : Member)
    (hrequests : m'.pool.requests = m.pool.requests + 1) (herrors : m'.pool.errors = m.pool.errors)
    (now id : Nat) (returns : Bool) (i : Nat) :
    Balanced i f (f.beginDial now id j m' (.checkout returns)) [] := by
  have hseekers (i : Nat) : seekers i (f.beginDial now id j m' (.checkout returns)).calls =
      seekers i f.calls + if j = i then 1 else 0 := by
    unfold Fleet.beginDial Fleet.setMember
    simp [seekers_concat, Purpose.isCheckout]
  have hadd : Balanced i f (f.beginDial now id j m' (.checkout returns))
      (if j = i then [] else []) := by
    refine at_pool hm { m' with dialer := m'.dialer.begin.2 } [] ?_ ?_ ?_ herrors i
    · exact counts_setMember hm _
    · intro i hij
      rw [hseekers, if_neg hij]
      rfl
    · rw [hseekers, if_pos rfl]
      show m'.pool.requests + _ = m.pool.requests + (_ + 1)
      omega
  rwa [ite_self] at hadd

theorem beginCheckout (f : Fleet) (now j : Nat) (returns : Bool) (i : Nat) :
    Balanced i f (f.beginCheckout now j returns).2
      (if j = i then CheckoutEnd.told false (f.beginCheckout now j returns).1 else []) := by
  have hbegins := f.beginCheckout_cases now j returns
  generalize f.beginCheckout now j returns = begun at hbegins ⊢
  cases hbegins with
  | missing hm =>
    -- There is no such pool, so that nothing is counted.
    have hdraw : Balanced i f f.drawNext [] := ⟨rfl, rfl⟩
    split
    · exact ⟨hdraw.requests, hdraw.errors⟩
    · exact hdraw
  | @refused m pool e hm hpool =>
    have hcounts := m.pool.counts_checkout now m.healthy
    rw [hpool] at hcounts
    have hset : Balanced i f.drawNext (f.drawNext.setMember j (m.withPool pool))
        (if j = i then [.failed false e] else []) := by
      apply setMember (f := f.drawNext) hm
      · cases e <;> exact congrArg Counts.requests hcounts
      · cases e <;> exact congrArg Counts.errors hcounts
    exact ⟨hset.requests, hset.errors⟩
  | @lent m pool slot conn hm hpool =>
    have hcounts := m.pool.counts_checkout now m.healthy
    rw [hpool] at hcounts
    have hset : Balanced i f.drawNext (f.drawNext.setMember j (m.withPool pool))
        (if j = i then [.handedOut] else []) := by
      apply setMember (f := f.drawNext) hm
      · exact congrArg Counts.requests hcounts
      · exact congrArg Counts.errors hcounts
    have hheld := hset.andQuiet (.hold _ now (.call f.nextCall) ⟨j, slot, conn, returns⟩)
    exact ⟨hheld.requests, hheld.errors⟩
  | @dials m pool hm hpool =>
    have hcounts := m.pool.counts_checkout now m.healthy
    rw [hpool] at hcounts
    have hadd := addCheckout (f := f.drawNext) hm (m.withPool pool)
      (congrArg Counts.requests hcounts) (congrArg Counts.errors hcounts) now f.nextCall returns i
    have hnone : (if j = i then CheckoutEnd.told false .waiting else []) = [] := ite_self []
    rw [hnone]
    exact ⟨hadd.requests, hadd.errors⟩

theorem beginSweep (f : Fleet) (now j : Nat) (background : Bool) (i : Nat) :
    Balanced i f (f.beginSweep now j background).2 [] := by
  have hbegins := f.beginSweep_cases now j background
  generalize f.beginSweep now j background = begun at hbegins ⊢
  cases hbegins with
  | missing hm => exact ⟨rfl, rfl⟩
  | @swept m pool hm hpool =>
    have hcounts := m.pool.counts_beginSweep m.healthy
    rw [hpool] at hcounts
    have hset := setMember_same (f := f.drawNext) hm (m.withPool pool)
      (congrArg Counts.requests hcounts) (congrArg Counts.errors hcounts) i
    exact ⟨hset.requests, hset.errors⟩
  | @dials m pool wanted hm hpool hwanted =>
    have hcounts := m.pool.counts_beginSweep m.healthy
    rw [hpool] at hcounts
    have hset := setMember_same (f := f.drawNext) hm
      { m.withPool pool with dialer := (m.withPool pool).dialer.begin.2 }
      (congrArg Counts.requests hcounts) (congrArg Counts.errors hcounts) i
    have hadd := hset.addSweep (c := ⟨f.nextCall, j, .sweep wanted background,
      (m.withPool pool).dialer.begin.1,
      ceilMillis (now + pool.config.connectTimeout.nanos), false⟩) rfl
    exact ⟨hadd.requests, hadd.errors⟩

end Balanced

theorem noteCall_eq (hc : f.call? id = some c) (i : Nat) (note : Call → List CheckoutEnd) :
    f.noteCall i id note = if c.pool = i then note c else [] := by
  simp [noteCall, hc]

theorem noteCall_of_none (hc : f.call? id = none) (i : Nat) (note : Call → List CheckoutEnd) :
    f.noteCall i id note = [] := by
  simp [noteCall, hc]

theorem Sound.seekers_endCall (h : f.Sound [] []) (hc : f.call? id = some c) (i : Nat) :
    seekers i f.calls = seekers i (f.endCall id).calls +
      if c.pool == i && c.purpose.isCheckout then 1 else 0 := by
  have hperm : seekers i f.calls = seekers i (c :: (f.endCall id).calls) :=
    (h.calls_perm hc).countP_eq _
  rw [hperm, seekers, List.countP_cons]
  rfl

/-- A call waits no more, and its pool counts how it has ended. -/
theorem Sound.balanced_endCall (h : f.Sound [] []) (hc : f.call? id = some c)
    (hm : f.members[c.pool]? = some m) (m' : Member) (ends : List CheckoutEnd)
    (hcounted : ends.countP CheckoutEnd.isCounted = if c.purpose.isCheckout then 1 else 0)
    (hrequests : m'.pool.requests = m.pool.requests)
    (herrors : m'.pool.errors = m.pool.errors + ends.countP CheckoutEnd.isError) (i : Nat) :
    Balanced i f ((f.endCall id).setMember c.pool m') (if c.pool = i then ends else []) := by
  refine .at_pool hm m' ends (counts_setMember (f := f.endCall id) hm m') ?_ ?_ herrors i
  · intro i hi
    rw [h.seekers_endCall hc i, beq_false_of_ne hi]
    rfl
  · rw [h.seekers_endCall hc, beq_self_eq_true, Bool.true_and, hcounted, hrequests]
    show _ = _ + seekers c.pool (f.endCall id).calls + _
    omega

/-- A sweep waits no more, or waits on. -/
theorem Sound.balanced_sweep (h : f.Sound [] []) (hc : f.call? id = some c)
    (hm : f.members[c.pool]? = some m) (m' : Member) (hpurpose : c.purpose.isCheckout = false)
    (hrequests : m'.pool.requests = m.pool.requests) (herrors : m'.pool.errors = m.pool.errors)
    (i : Nat) : Balanced i f ((f.endCall id).setMember c.pool m') [] := by
  have hend := h.balanced_endCall hc hm m' [] (by simp [hpurpose]) hrequests herrors i
  rwa [ite_self] at hend

theorem Sound.balanced_endDial (h : f.Sound [] []) (now id : Nat) (outcome : DialOutcome)
    (i : Nat) : Balanced i f (f.endDial now id outcome).2
      (f.noteCall i id fun _ => CheckoutEnd.told true (f.endDial now id outcome).1) := by
  cases hc : f.call? id with
  | none =>
    rw [endDial_of_none hc, noteCall_of_none hc]
    exact .of_quiet (.refl f)
  | some c =>
    obtain ⟨m, hm⟩ := h.exists_pool hc
    have hcheckout := m.pool.counts_endCheckout now (m.dialed outcome)
    have hsweep := m.pool.counts_endSweepDial now (m.dialed outcome)
    have hends := endDial_cases hc hm now outcome
    rw [noteCall_eq hc]
    generalize f.endDial now id outcome = ended at hends ⊢
    cases hends with
    | @refused pool returns e hpurpose hpool =>
      rw [hpool] at hcheckout
      refine h.balanced_endCall hc hm _ [.failed true e] ?_
        (congrArg Counts.requests hcheckout) ?_ i
      · simp [CheckoutEnd.isCounted, Purpose.isCheckout, hpurpose]
      · show pool.errors = _
        obtain ⟨herror, herrors⟩ | ⟨rfl, -, herrors⟩ := Member.refused_cases hpool
        · simp [herror, herrors]
        · simp [CheckoutEnd.isError, herrors]
    | @lent pool returns slot conn hpurpose hpool =>
      rw [hpool] at hcheckout
      refine (h.balanced_endCall hc hm _ [.handedOut] ?_
        (congrArg Counts.requests hcheckout) ?_ i).andQuiet (.hold _ now _ _)
      · simp [CheckoutEnd.isCounted, Purpose.isCheckout, hpurpose]
      · exact Pool.errors_lent hpool
    | @givesUp pool wanted background hpurpose hpool =>
      rw [hpool] at hsweep
      simp only [CheckoutEnd.told, ite_self]
      exact h.balanced_sweep hc hm _ (by rw [hpurpose]; rfl) (congrArg Counts.requests hsweep)
        (congrArg Counts.errors hsweep) i
    | @swept pool wanted background hpurpose hpool hlast =>
      rw [hpool] at hsweep
      simp only [CheckoutEnd.told, ite_self]
      exact h.balanced_sweep hc hm _ (by rw [hpurpose]; rfl) (congrArg Counts.requests hsweep)
        (congrArg Counts.errors hsweep) i
    | @dials pool wanted background hpurpose hpool hmore =>
      rw [hpool] at hsweep
      simp only [CheckoutEnd.told, ite_self]
      refine Balanced.addSweep (h.balanced_sweep hc hm _ (by rw [hpurpose]; rfl)
        (congrArg Counts.requests hsweep) (congrArg Counts.errors hsweep) i) rfl

theorem Sound.balanced_cancel (h : f.Sound [] []) (id i : Nat) : Balanced i f (f.cancel id)
    (f.noteCall i id fun c => if c.purpose.isCheckout then [.cancelled] else []) := by
  cases hc : f.call? id with
  | none =>
    rw [noteCall_of_none hc]
    unfold Fleet.cancel
    rw [hc]
    exact .of_quiet (.refl f)
  | some c =>
    obtain ⟨m, hm⟩ := h.exists_pool hc
    have hm' : (f.endCall id).members[c.pool]? = some m := hm
    rw [noteCall_eq hc]
    unfold Fleet.cancel
    simp only [hc]
    cases hpurpose : c.purpose with
    | checkout returns =>
      simp only [Sound.modifyPool_eq hm', Purpose.isCheckout, if_true]
      refine h.balanced_endCall hc hm (m.withPool (m.pool.unreserve 1)) [.cancelled] ?_ rfl rfl i
      simp [CheckoutEnd.isCounted, Purpose.isCheckout, hpurpose]
    | sweep wanted background =>
      have hsame : (f.endCall id).setMember c.pool m = f.endCall id := setMember_self hm'
      have hend := h.balanced_sweep hc hm m (by rw [hpurpose]; rfl) rfl rfl i
      rw [hsame] at hend
      simpa [Purpose.isCheckout] using hend

theorem Sound.balanced_turn (h : f.Sound [] []) (i now : Nat) (t : FleetTurn) :
    Balanced i f (f.turn now t) (checkoutEnds i f now t) := by
  cases t with
  | beginCheckout j returns => exact .beginCheckout f now j returns i
  | beginSweep j background => exact .beginSweep f now j background i
  | endDial id outcome => exact h.balanced_endDial now id outcome i
  | cancel id => exact h.balanced_cancel id i
  | _ => exact .of_quiet (quiet_turn f now rfl)

/-- A connection that was dialed for a checkout is refused by a closed pool only. -/
theorem Sound.shut_of_refused (h : f.Sound [] []) {now : Nat} {t : FleetTurn}
    (ht : .failed true .closed ∈ checkoutEnds i f now t) :
    ∃ m, f.members[i]? = some m ∧ m.pool.Shut := by
  cases t with
  | beginCheckout j returns =>
    simp only [checkoutEnds] at ht
    split at ht
    · exact Bool.noConfusion (CheckoutEnd.mem_told ht).1
    · simp at ht
  | endDial id outcome =>
    cases hc : f.call? id with
    | none => simp [checkoutEnds, noteCall, hc] at ht
    | some c =>
      obtain ⟨rfl, hmem⟩ : c.pool = i ∧ _ := by simpa [checkoutEnds, noteCall, hc] using ht
      obtain ⟨-, hstatus⟩ := CheckoutEnd.mem_told hmem
      obtain ⟨m, hm⟩ := h.exists_pool hc
      have hends := endDial_cases hc hm now outcome
      generalize f.endDial now id outcome = ended at hends hstatus
      cases hends with
      | @refused pool returns e hpurpose hpool =>
        obtain rfl : e = .closed := by simpa using hstatus
        obtain ⟨herror, -⟩ | ⟨-, hclosed, -⟩ := Member.refused_cases hpool
        · simp [CheckoutEnd.isError] at herror
        · exact ⟨m, hm, hclosed, (h.accounts c.pool m hm).no_slots hclosed⟩
      | _ => simp at hstatus
  | cancel id =>
    cases hc : f.call? id with
    | none => simp [checkoutEnds, noteCall, hc] at ht
    | some c => simp [checkoutEnds, noteCall, hc] at ht
  | _ => simp [checkoutEnds] at ht

/-! ## Every run -/

/-- The counts of a pool are those of the checkouts that wait or have ended. -/
structure Accounted (f : Fleet) (i : Nat) (ended : List CheckoutEnd) : Prop where
  requests : (f.counts i).requests = seekers i f.calls + ended.countP CheckoutEnd.isCounted
  errors : (f.counts i).errors = ended.countP CheckoutEnd.isError
  refused : .failed true .closed ∈ ended → ∃ m, f.members[i]? = some m ∧ m.pool.Shut

theorem Accounted.turn (h : f.Accounted i ends) (hf : f.Sound [] []) (now : Nat)
    (t : FleetTurn) : (f.turn now t).Accounted i (ends ++ checkoutEnds i f now t) := by
  have hturn := hf.balanced_turn i now t
  refine ⟨?_, ?_, fun hmem => ?_⟩
  · have hmoved := hturn.requests
    have hbefore := h.requests
    rw [List.countP_append]
    omega
  · rw [List.countP_append, hturn.errors, h.errors]
  · have hbefore : ∃ m, f.members[i]? = some m ∧ m.pool.Shut := by
      rcases List.mem_append.mp hmem with hmem | hmem
      · exact h.refused hmem
      · exact hf.shut_of_refused hmem
    obtain ⟨m, hm, hshut⟩ := hbefore
    -- A closed pool is closed after the turn, too.
    obtain ⟨m', hm', hstays⟩ := hf.keepsShut_turn now t m hm hshut
    exact ⟨m', hm', hstays.shut⟩

theorem accounted_run (turns : List (Nat × FleetTurn)) (i : Nat) :
    (empty.run turns).Accounted i (empty.endedCheckouts i turns) := by
  refine (runReports_induction (checkoutEnds i)
    (P := fun f ended => f.Sound [] [] ∧ f.Accounted i ended)
    ⟨sound_empty, rfl, rfl, fun hmem => (nomatch hmem)⟩ ?_ turns).2
  rintro f ended now t ⟨hf, h⟩
  exact ⟨hf.turn now t, h.turn hf now t⟩

/-- **What becomes of the checkouts that are asked for**, in every run of turns. Those that a pool
has counted were handed out, or are counted among its errors, or wait for their dials, or were
cancelled during them, or were refused after them because the pool was closed meanwhile. Its errors
are the checkouts that were told of one, other than that the pool is closed. And each of its open
connections is checked out or idle. -/
theorem requests_accounted (turns : List (Nat × FleetTurn)) (i : Nat) (m : Member)
    (hm : (empty.run turns).members[i]? = some m) :
    let ended := empty.endedCheckouts i turns
    m.pool.stats.requests =
        ended.count .handedOut + m.pool.stats.errors + seekers i (empty.run turns).calls +
          ended.count .cancelled + ended.count (.failed true .closed) ∧
      m.pool.stats.errors = ended.countP CheckoutEnd.isError ∧
      (.failed true .closed ∈ ended → m.pool.closed = true) ∧
      m.pool.stats.active + m.pool.stats.idle = m.pool.stats.total ∧
      m.pool.stats.idle = (m.pool.slots.filter fun s => !s.inUse).length := by
  intro ended
  have h : (empty.run turns).Accounted i ended := accounted_run turns i
  have hrequests : m.pool.stats.requests = _ := counts_eq hm ▸ h.requests
  have herrors : m.pool.stats.errors = _ := counts_eq hm ▸ h.errors
  have hidle : m.pool.slots.length =
      m.pool.active + (m.pool.slots.filter fun s => !s.inUse).length :=
    List.length_eq_length_filter_add Slot.inUse
  refine ⟨?_, herrors, fun hmem => ?_, ?_, ?_⟩
  · rw [hrequests, herrors, CheckoutEnd.countP_isCounted]
    omega
  · obtain ⟨m', hm', hshut⟩ := h.refused hmem
    obtain rfl := Option.some.inj (hm'.symm.trans hm)
    exact hshut.closed
  · show m.pool.active + (m.pool.slots.length - m.pool.active) = m.pool.slots.length
    omega
  · show m.pool.slots.length - m.pool.active = _
    omega

/-- A pool for three connections is asked for six: one is handed out, one is cancelled, one cannot
be dialed, two wait and one finds no room. Then the pool is closed; the dial of one that waits ends
too late, and a seventh is not counted any more. -/
theorem requests_accounted_in_six_ways :
    let config := { PoolConfig.standard "db:1" with maxSize := 3, minSize := 0 }
    let turns : List (Nat × FleetTurn) := [(0, .connect config []), (1, .beginCheckout 0 true),
      (2, .endDial 0 (.opened false)), (3, .beginCheckout 0 true), (4, .cancel 1),
      (5, .beginCheckout 0 true), (6, .endDial 2 (.failed "refused")), (7, .beginCheckout 0 true),
      (7, .beginCheckout 0 false), (8, .beginCheckout 0 true), (9, .close 0),
      (10, .endDial 3 (.opened false)), (11, .beginCheckout 0 true)]
    let ended := empty.endedCheckouts 0 turns
    ended = [.handedOut, .cancelled, .failed true (.dial "db:1" "refused"),
        .failed false (.noAvailableConnections 3), .failed true .closed, .failed false .closed] ∧
      ∃ m, (empty.run turns).members[0]? = some m ∧ m.pool.stats.requests = 6 ∧
        m.pool.stats.requests =
          ended.count .handedOut + m.pool.stats.errors + seekers 0 (empty.run turns).calls +
            ended.count .cancelled + ended.count (.failed true .closed) := by
  intro config turns ended
  have hsix : ((empty.run turns).members[0]?.map fun m => m.pool.stats.requests) = some 6 := by
    decide +kernel
  obtain ⟨m, hm, hrequests⟩ := Option.map_eq_some_iff.mp hsix
  exact ⟨by decide +kernel, m, hm, hrequests, (requests_accounted turns 0 m hm).1⟩

end Fleet

end BoundedResources
