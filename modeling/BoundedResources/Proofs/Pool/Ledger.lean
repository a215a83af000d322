import BoundedResources.Proofs.Pool.Obligations

/-!
# What turns leave alone

Whatever happens to the connections of a pool, its counts are changed by calls only: how many dials
are reserved, how many checkouts were asked for, and how many of them have failed. So a turn that is
none of a call is quiet (`Fleet.quiet_turn`). It changes no count of any pool, and all calls go on
with what they have asked for.

A turn of a call leaves the other calls alone. **`Fleet.Sound.goesOn_turn`** says that a call goes
on with what it has asked for until its dial ends or it is cancelled, whoever takes turns until
then.
-/

set_option autoImplicit false

namespace BoundedResources

/-- The counts in the books of a pool. -/
structure Counts where
  dialing : Nat
  requests : Nat
  errors : Nat

/-- The counts of a pool. -/
def Pool.counts (p : Pool) : Counts := ⟨p.dialing, p.requests, p.errors⟩

namespace Pool

/-- Every checkout of an open pool is counted as a request, and one that is refused as an error,
too. A dial is reserved if there is room for it. -/
theorem counts_checkout (p : Pool) (now : Nat) (healthy : Connection → Bool) :
    (p.checkout now healthy).2.counts = match (p.checkout now healthy).1 with
      | .error .closed => p.counts
      | .error _ => ⟨p.dialing, p.requests + 1, p.errors + 1⟩
      | .ok (.idle _ _) => ⟨p.dialing, p.requests + 1, p.errors⟩
      | .ok .room => ⟨p.dialing + 1, p.requests + 1, p.errors⟩ := by
  unfold checkout
  split
  · rfl
  · simp only
    split
    · rfl
    · split <;> rfl

theorem counts_beginSweep (p : Pool) (healthy : Connection → Bool) :
    (p.beginSweep healthy).2.counts =
      ⟨p.dialing + (p.beginSweep healthy).1, p.requests, p.errors⟩ := by
  unfold beginSweep
  split <;> rfl

/-- The end of a dial gives its reservation back; for a checkout, a failure is an error. -/
theorem counts_endCheckout (p : Pool) (now : Nat) (dialed : Except PoolError Connection) :
    (p.endCheckout now dialed).2.counts =
      ⟨p.dialing - 1, p.requests, p.errors + if dialed.isOk then 0 else 1⟩ := by
  unfold endCheckout
  cases dialed with
  | error e => rfl
  | ok conn =>
    simp only
    split <;> rfl

/-- For a sweep, a failed dial is no error. -/
theorem counts_endSweepDial (p : Pool) (now : Nat) (dialed : Except PoolError Connection) :
    (p.endSweepDial now dialed).2.counts = ⟨p.dialing - 1, p.requests, p.errors⟩ := by
  unfold endSweepDial
  cases dialed with
  | error e => rfl
  | ok conn =>
    simp only
    split <;> rfl

end Pool

/-- What a call is: its number, its pool, and what it dials for. -/
def Call.asked (c : Call) : Nat × Nat × Purpose := (c.id, c.pool, c.purpose)

/-- Whether a turn is one of a call: it begins, its dial ends, or it is cancelled. -/
def FleetTurn.ofCall : FleetTurn → Bool
  | .beginCheckout _ _ | .beginSweep _ _ | .endDial _ _ | .cancel _ => true
  | _ => false

namespace Fleet

variable {f f' f'' : Fleet} {i j id : Nat} {m m' : Member} {c : Call}

/-- The counts of a pool, zero while there is no pool. -/
def counts (f : Fleet) (i : Nat) : Counts :=
  (f.members[i]?.map fun m => m.pool.counts).getD ⟨0, 0, 0⟩

theorem counts_eq (hm : f.members[i]? = some m) : f.counts i = m.pool.counts := by
  simp [counts, hm]

theorem counts_setMember (hm : f.members[j]? = some m) (m' : Member) (i : Nat) :
    (f.setMember j m').counts i = if j = i then m'.pool.counts else f.counts i := by
  have hlt := (List.getElem?_eq_some_iff.mp hm).1
  unfold counts setMember
  by_cases hij : j = i
  · subst hij
    simp [hlt]
  · simp [hij]

/-- How many dials a pool owes to its calls can be read off what they have asked for. -/
theorem dialsFor_eq_asked (i : Nat) (cs : List Call) :
    dialsFor i cs =
      (((cs.map Call.asked).filter fun a => a.2.1 = i).map fun a => a.2.2.dials).sum := by
  rw [List.filter_map, List.map_map]
  rfl

theorem asked_call? (f : Fleet) (id : Nat) :
    (f.call? id).map Call.asked = (f.calls.map Call.asked).find? fun a => a.1 == id := by
  rw [List.find?_map]
  rfl

/-! ## Quiet turns -/

/-- No count and no call changes from one fleet to the other. -/
structure Quiet (f f' : Fleet) : Prop where
  counts : ∀ i, f'.counts i = f.counts i
  calls : f'.calls.map Call.asked = f.calls.map Call.asked
  nextCall : f'.nextCall = f.nextCall

namespace Quiet

theorem refl (f : Fleet) : Quiet f f := ⟨fun _ => rfl, rfl, rfl⟩

theorem of_takeHandle {holder : Holder} (h : Quiet (f.takeHandle holder) f') : Quiet f f' :=
  ⟨h.counts, h.calls, h.nextCall⟩

theorem withMembers {members : List Member}
    (h : ∀ i : Nat, (members[i]?.map fun m => m.pool.counts) =
      f.members[i]?.map fun m => m.pool.counts) :
    Quiet f { f with members := members } :=
  ⟨fun i => congrArg (·.getD ⟨0, 0, 0⟩) (h i), rfl, rfl⟩

theorem modifyMember {change : Member → Member}
    (h : ∀ m, (change m).pool.counts = m.pool.counts) (j : Nat) :
    Quiet f { f with members := f.members.modify j change } := by
  refine withMembers fun i => ?_
  rw [List.getElem?_modify]
  cases f.members[i]? with
  | none => rfl
  | some m =>
    by_cases hij : j = i
    · simp [hij, h]
    · simp [hij]

theorem putBack (f : Fleet) (now : Nat) (x : Handle) : Quiet f (f.putBack now x) := by
  apply modifyMember
  exact fun _ => rfl

theorem letGo (f : Fleet) (now : Nat) (x : Handle) : Quiet f (f.letGo now x) := by
  unfold Fleet.letGo
  split
  · exact putBack f now x
  · apply modifyMember
    exact fun _ => rfl

theorem hold (f : Fleet) (now : Nat) (holder : Holder) (x : Handle) :
    Quiet f (f.hold now holder x) := by
  unfold Fleet.hold
  cases f.handleOf? holder with
  | none => exact ⟨fun _ => rfl, rfl, rfl⟩
  | some old =>
    have hold := letGo { f.takeHandle holder with
      handles := (f.takeHandle holder).handles ++ [(holder, x)] } now old
    exact ⟨hold.counts, hold.calls, hold.nextCall⟩

theorem drop (f : Fleet) (now : Nat) (holder : Holder) : Quiet f (f.drop now holder) := by
  unfold Fleet.drop
  split
  · exact refl f
  · rename_i x _
    exact (letGo _ now x).of_takeHandle

theorem deliver (f : Fleet) (now id : Nat) (name : String) : Quiet f (f.deliver now id name) := by
  unfold Fleet.deliver
  split
  · exact refl f
  · rename_i x _
    exact (hold _ now (.name name) x).of_takeHandle

theorem put (f : Fleet) (now i : Nat) (holder : Holder) : Quiet f (f.put now i holder) := by
  unfold Fleet.put
  split
  · exact refl f
  · rename_i x _
    simp only
    split
    · exact (putBack _ now x).of_takeHandle
    · exact (letGo _ now x).of_takeHandle

theorem openGate (f : Fleet) (i : Nat) : Quiet f (f.openGate i) := by
  refine ⟨fun _ => rfl, ?_, rfl⟩
  unfold Fleet.openGate
  rw [List.map_map]
  refine List.map_congr_left fun c _ => ?_
  dsimp only [Function.comp]
  split <;> rfl

end Quiet

/-- A pool that nobody uses any more is closed, and each other one stays as it is. -/
theorem reapMember_cases (f : Fleet) (i : Nat) (m : Member) :
    (f.reapMember i m).dialer = m.dialer ∧
      ((f.reapMember i m).pool = m.pool ∨ (f.reapMember i m).pool = m.pool.close) := by
  unfold Fleet.reapMember
  split
  · exact ⟨rfl, .inl rfl⟩
  · split
    · exact ⟨rfl, .inl rfl⟩
    · exact ⟨rfl, .inr rfl⟩

theorem Quiet.reap (f : Fleet) : Quiet f f.reap := by
  refine .withMembers fun i => ?_
  rw [List.getElem?_mapIdx]
  cases f.members[i]? with
  | none => rfl
  | some m =>
    obtain ⟨-, hpool | hpool⟩ := f.reapMember_cases i m
    · simp [hpool]
    · simp [hpool, Pool.counts, Pool.close]

theorem Quiet.addMember (f : Fleet) (hm : m.pool.counts = ⟨0, 0, 0⟩) :
    Quiet f { f with members := f.members ++ [m] } := by
  refine ⟨fun i => ?_, rfl, rfl⟩
  unfold Fleet.counts
  rcases Nat.lt_or_ge i f.members.length with hlt | hge
  · rw [List.getElem?_append_left hlt]
  · rw [List.getElem?_append_right hge, List.getElem?_eq_none hge, List.getElem?_singleton]
    split
    · exact hm
    · rfl

/-- A pool joins the fleet with nothing counted. -/
theorem Quiet.connect (f : Fleet) (now : Nat) (config : PoolConfig) (script : List DialPlan) :
    Quiet f (f.connect now config script) := by
  obtain ⟨dialer, later, ⟨e, -, hconnect⟩ | ⟨conns, -, hconnect⟩⟩ :=
    f.connect_cases now config script
  · rw [hconnect]
    exact .addMember f rfl
  · rw [hconnect]
    exact .addMember f (PoolSession.seeded_keeps (fun _ _ _ => rfl) config.normalized later conns)

/-- **What is no turn of a call changes no count and no call.** -/
theorem quiet_turn (f : Fleet) (now : Nat) {t : FleetTurn} (ht : t.ofCall = false) :
    Quiet f (f.turn now t) := by
  cases t with
  | beginCheckout | beginSweep | endDial | cancel => simp [FleetTurn.ofCall] at ht
  | connect config script => exact .connect f now config script
  | openGate j => exact .openGate f j
  | put j holder => exact .put f now j holder
  | drop holder => exact .drop f now holder
  | deliver id name => exact .deliver f now id name
  | tag holder text => exact ⟨fun _ => rfl, rfl, rfl⟩
  | close | detach | setHealth | script | plan =>
    apply Quiet.modifyMember
    exact fun _ => rfl
  | reap => exact .reap f

/-! ## The calls of others -/

theorem call?_endCall_of_ne (f : Fleet) {id' : Nat} (hne : id' ≠ id) :
    (f.endCall id').call? id = f.call? id := by
  unfold call? endCall
  induction f.calls with
  | nil => rfl
  | cons c cs ih =>
    by_cases hc : c.id = id'
    · have hother : (c.id == id) = false := by simpa [hc] using hne
      rw [List.filter_cons_of_neg (by simp [hc]), ih, List.find?_cons, hother]
    · rw [List.filter_cons_of_pos (by simp [hc]), List.find?_cons, List.find?_cons, ih]

theorem call?_beginDial_of_ne (f : Fleet) {id' : Nat} (hne : id' ≠ id) (now i : Nat) (m : Member)
    (purpose : Purpose) : (f.beginDial now id' i m purpose).call? id = f.call? id := by
  have hother : (id' == id) = false := beq_false_of_ne hne
  unfold call? beginDial setMember
  simp [List.find?_append, hother]

theorem call?_beginDial (hnone : f.call? id = none) (now i : Nat) (m : Member)
    (purpose : Purpose) : (f.beginDial now id i m purpose).call? id =
      some ⟨id, i, purpose, m.dialer.begin.1,
        ceilMillis (now + m.pool.config.connectTimeout.nanos), false⟩ := by
  unfold call? at hnone
  unfold call? beginDial setMember
  simp [List.find?_append, hnone]

/-- Calls draw their numbers in order, and the call with a number goes on with what it has asked
for. -/
structure GoesOn (id : Nat) (f f' : Fleet) : Prop where
  drawn : f.nextCall ≤ f'.nextCall
  asked : (f'.call? id).map Call.asked = (f.call? id).map Call.asked

namespace GoesOn

theorem of_quiet (h : Quiet f f') : GoesOn id f f' :=
  ⟨Nat.le_of_eq h.nextCall.symm, by rw [asked_call?, asked_call?, h.calls]⟩

theorem andQuiet (h : GoesOn id f f') (h' : Quiet f' f'') : GoesOn id f f'' :=
  have hnext : GoesOn id f' f'' := .of_quiet h'
  ⟨Nat.le_trans h.drawn hnext.drawn, hnext.asked.trans h.asked⟩

theorem of_call? (hnext : f.nextCall ≤ f'.nextCall) (hcall : f'.call? id = f.call? id) :
    GoesOn id f f' :=
  ⟨hnext, congrArg _ hcall⟩

theorem beginCheckout (f : Fleet) (hid : id < f.nextCall) (now j : Nat) (returns : Bool) :
    GoesOn id f (f.beginCheckout now j returns).2 := by
  have hbegins := f.beginCheckout_cases now j returns
  generalize f.beginCheckout now j returns = begun at hbegins ⊢
  cases hbegins with
  | missing | refused => exact .of_call? (Nat.le_succ _) rfl
  | @lent m pool =>
    have hset : GoesOn id f (f.drawNext.setMember j (m.withPool pool)) :=
      .of_call? (Nat.le_succ _) rfl
    exact hset.andQuiet (.hold _ now _ _)
  | dials => exact .of_call? (Nat.le_succ _) (call?_beginDial_of_ne _ (Nat.ne_of_gt hid) now j _ _)

theorem beginSweep (f : Fleet) (hid : id < f.nextCall) (now j : Nat) (background : Bool) :
    GoesOn id f (f.beginSweep now j background).2 := by
  have hbegins := f.beginSweep_cases now j background
  generalize f.beginSweep now j background = begun at hbegins ⊢
  cases hbegins with
  | missing | swept => exact .of_call? (Nat.le_succ _) rfl
  | dials => exact .of_call? (Nat.le_succ _) (call?_beginDial_of_ne _ (Nat.ne_of_gt hid) now j _ _)

theorem cancel (f : Fleet) {id' : Nat} (hne : id' ≠ id) : GoesOn id f (f.cancel id') := by
  unfold Fleet.cancel
  split
  · exact .of_call? (Nat.le_refl _) rfl
  · simp only
    split
    · exact .of_call? (Nat.le_refl _) (call?_endCall_of_ne f hne)
    · exact .of_call? (Nat.le_refl _) (call?_endCall_of_ne f hne)

end GoesOn

theorem Sound.nextCall_endDial (h : f.Sound [] []) (now id : Nat) (outcome : DialOutcome) :
    (f.endDial now id outcome).2.nextCall = f.nextCall := by
  cases hc : f.call? id with
  | none => rw [endDial_of_none hc]
  | some c =>
    obtain ⟨m, hm⟩ := h.exists_pool hc
    have hends := endDial_cases hc hm now outcome
    generalize f.endDial now id outcome = ended at hends ⊢
    cases hends with
    | refused | givesUp | swept | dials => rfl
    | lent => exact (Quiet.hold _ now _ _).nextCall

theorem Sound.goesOn_endDial (h : f.Sound [] []) {id' : Nat} (hne : id' ≠ id) (now : Nat)
    (outcome : DialOutcome) : GoesOn id f (f.endDial now id' outcome).2 := by
  refine ⟨Nat.le_of_eq (h.nextCall_endDial now id' outcome).symm, ?_⟩
  cases hc : f.call? id' with
  | none => rw [endDial_of_none hc]
  | some c =>
    obtain ⟨m, hm⟩ := h.exists_pool hc
    have hother := congrArg (Option.map Call.asked) (call?_endCall_of_ne f hne)
    have hends := endDial_cases hc hm now outcome
    generalize f.endDial now id' outcome = ended at hends ⊢
    cases hends with
    | refused | givesUp | swept => exact hother
    | lent => exact (GoesOn.of_quiet (.hold _ now _ _)).asked.trans hother
    | dials => exact (congrArg _ (call?_beginDial_of_ne _ hne now _ _ _)).trans hother

/-- **A call goes on with what it has asked for** in every turn in which neither its dial ends nor
it is cancelled. -/
theorem Sound.goesOn_turn (h : f.Sound [] []) (hid : id < f.nextCall) (now : Nat) {t : FleetTurn}
    (hend : ∀ outcome, t ≠ .endDial id outcome) (hcancel : t ≠ .cancel id) :
    GoesOn id f (f.turn now t) := by
  cases ht : t.ofCall with
  | false => exact .of_quiet (quiet_turn f now ht)
  | true =>
    cases t with
    | beginCheckout j returns => exact .beginCheckout f hid now j returns
    | beginSweep j background => exact .beginSweep f hid now j background
    | endDial id' outcome =>
      exact h.goesOn_endDial (by rintro rfl; exact hend outcome rfl) now outcome
    | cancel id' => exact .cancel f (by rintro rfl; exact hcancel rfl)
    | _ => simp [FleetTurn.ofCall] at ht

end Fleet

end BoundedResources
