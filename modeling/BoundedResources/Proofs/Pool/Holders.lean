import BoundedResources.Proofs.Pool.Capacity

/-!
# Who holds what

Holders of handles are those who have a name, and the calls that have ended with a handle which was
not delivered yet. A call draws its number when it begins. **`Fleet.Apart`** says that a call with a
handle has begun and waits no more; so nobody has a handle under the number of a call that is going
to end, and the handle that it ends with takes the place of no other. Every turn keeps this
(`Fleet.Apart.turn`).
-/

set_option autoImplicit false

namespace BoundedResources

namespace Fleet

variable {f f' : Fleet} {holder : Holder} {x : Handle}

theorem handleOf?_takeHandle (f : Fleet) {holder other : Holder} (hne : other ≠ holder) :
    (f.takeHandle holder).handleOf? other = f.handleOf? other := by
  unfold handleOf? takeHandle
  induction f.handles with
  | nil => rfl
  | cons p handles ih =>
    by_cases hp : p.1 = holder
    · have hother : (other == p.1) = false := beq_false_of_ne (hp ▸ hne)
      rw [List.filter_cons_of_neg (by simp [hp]), ih, List.lookup_cons, hother]
    · rw [List.filter_cons_of_pos (by simp [hp]), List.lookup_cons, List.lookup_cons, ih]

theorem handles_letGo (f : Fleet) (now : Nat) (x : Handle) :
    (f.letGo now x).handles = f.handles := by
  unfold letGo
  split <;> rfl

/-- Whoever gets a handle gives up the one he had. -/
theorem handles_hold (f : Fleet) (now : Nat) (holder : Holder) (x : Handle) :
    (f.hold now holder x).handles = (f.takeHandle holder).handles ++ [(holder, x)] := by
  unfold hold
  cases f.handleOf? holder with
  | none => rfl
  | some old => exact handles_letGo _ now old

/-- Whoever gets a handle has it. -/
theorem handleOf?_hold (f : Fleet) (now : Nat) (holder : Holder) (x : Handle) :
    (f.hold now holder x).handleOf? holder = some x := by
  have hnone : (f.takeHandle holder).handles.lookup holder = none := by
    refine List.lookup_eq_none_iff.mpr fun p hp => ?_
    have hne : p.1 ≠ holder := by simpa using (List.mem_filter.mp hp).2
    exact bne_iff_ne.mpr (Ne.symm hne)
  unfold handleOf?
  rw [handles_hold, List.lookup_append, hnone]
  simp

theorem handleOf?_eq_none (hnot : holder ∉ f.handles.map Prod.fst) :
    f.handleOf? holder = none := by
  refine List.lookup_eq_none_iff.mpr fun p hp => bne_iff_ne.mpr ?_
  rintro rfl
  exact hnot (List.mem_map_of_mem hp)

theorem map_id_beginDial (f : Fleet) (now id i : Nat) (m : Member) (purpose : Purpose) :
    (f.beginDial now id i m purpose).calls.map Call.id = f.calls.map Call.id ++ [id] :=
  List.map_append

/-- A call whose handle was not delivered yet was begun before and waits no more. -/
def Apart (f : Fleet) : Prop :=
  ∀ id, Holder.call id ∈ f.handles.map Prod.fst → id < f.nextCall ∧ id ∉ f.calls.map Call.id

theorem apart_empty : empty.Apart := fun _ hmem => nomatch hmem

namespace Apart

variable {id : Nat} {c : Call} {m : Member}

/-- Nobody has a handle of a call that has not begun. -/
theorem handleOf?_next (h : f.Apart) : f.handleOf? (.call f.nextCall) = none :=
  handleOf?_eq_none fun hmem => Nat.lt_irrefl _ (h _ hmem).1

/-- Nobody has a handle of a call that waits. -/
theorem handleOf?_waiting (h : f.Apart) (hc : f.call? id = some c) :
    f.handleOf? (.call id) = none := by
  obtain ⟨hmem, rfl⟩ := Sound.mem_calls hc
  exact handleOf?_eq_none fun hhas => (h _ hhas).2 (List.mem_map_of_mem hmem)

/-- No call gets a handle, and no call that has begun before begins to wait. -/
theorem of_subset (h : f.Apart) (hnext : f.nextCall ≤ f'.nextCall)
    (hholders : ∀ id, .call id ∈ f'.handles.map Prod.fst → .call id ∈ f.handles.map Prod.fst)
    (hcalls : ∀ id ∈ f'.calls.map Call.id, id ∈ f.calls.map Call.id ∨ f.nextCall ≤ id) :
    f'.Apart := by
  intro id hid
  obtain ⟨hlt, hnot⟩ := h id (hholders id hid)
  refine ⟨Nat.lt_of_lt_of_le hlt hnext, fun hmem => ?_⟩
  rcases hcalls id hmem with hmem | hge
  · exact hnot hmem
  · exact absurd hlt (Nat.not_lt.mpr hge)

/-- Calls end. -/
theorem withCalls {calls : List Call} (h : f.Apart)
    (hcalls : ∀ id ∈ calls.map Call.id, id ∈ f.calls.map Call.id) :
    { f with calls := calls }.Apart :=
  h.of_subset (Nat.le_refl _) (fun _ hid => hid) fun id hid => .inl (hcalls id hid)

theorem drawNumber (h : f.Apart) : f.drawNext.Apart :=
  h.of_subset (Nat.le_succ _) (fun _ hid => hid) fun _ hid => .inl hid

theorem endCall (h : f.Apart) (id : Nat) : (f.endCall id).Apart :=
  h.withCalls fun _ hid => (List.filter_sublist.map Call.id).subset hid

/-- A call begins to wait. -/
theorem beginNextDial (h : f.Apart) (now i : Nat) (m : Member) (purpose : Purpose) :
    (f.drawNext.beginDial now f.nextCall i m purpose).Apart := by
  refine h.of_subset (Nat.le_succ _) (fun _ hid => hid) fun id hid => ?_
  rw [map_id_beginDial] at hid
  rcases List.mem_append.mp hid with hold | hnew
  · exact .inl hold
  · rw [List.mem_singleton.mp hnew]
    exact .inr (Nat.le_refl _)

/-! ## Handles -/

theorem takeHandle (h : f.Apart) (holder : Holder) : (f.takeHandle holder).Apart :=
  h.of_subset (Nat.le_refl _) (fun _ hid => (List.filter_sublist.map Prod.fst).subset hid)
    fun _ hid => .inl hid

theorem letGo (h : f.Apart) (now : Nat) (x : Handle) : (f.letGo now x).Apart := by
  unfold Fleet.letGo
  split <;> exact h

/-- A call gets a handle when it waits no more. -/
theorem hold (h : f.Apart) (now : Nat) (x : Handle)
    (hcall : ∀ id, holder = .call id → id < f.nextCall ∧ id ∉ f.calls.map Call.id) :
    (f.hold now holder x).Apart := by
  intro id hid
  rw [handles_hold, List.map_append] at hid
  rw [(Quiet.hold f now _ x).nextCall, calls_hold]
  rcases List.mem_append.mp hid with hid | hid
  · exact h.takeHandle holder id hid
  · exact hcall id (List.mem_singleton.mp hid).symm

theorem drop (h : f.Apart) (now : Nat) (holder : Holder) : (f.drop now holder).Apart := by
  unfold Fleet.drop
  split
  · exact h
  · exact (h.takeHandle holder).letGo now _

theorem deliver (h : f.Apart) (now id : Nat) (name : String) :
    (f.deliver now id name).Apart := by
  unfold Fleet.deliver
  split
  · exact h
  · exact (h.takeHandle (.call id)).hold now _ fun _ hname => nomatch hname

theorem put (h : f.Apart) (now i : Nat) (holder : Holder) : (f.put now i holder).Apart := by
  unfold Fleet.put
  split
  · exact h
  · simp only
    split
    · exact h.takeHandle holder
    · exact (h.takeHandle holder).letGo now _

theorem tag (h : f.Apart) (holder : Holder) (text : String) : (f.tag holder text).Apart :=
  h.of_subset (Nat.le_refl _) (fun _ hid => Sound.map_fst_tag f holder text ▸ hid)
    fun _ hid => .inl hid

/-! ## Calls -/

/-- A checkout that is served at once has ended, and one that dials waits under a number that nobody
has drawn before. -/
theorem beginCheckout (h : f.Apart) (hs : f.Sound [] []) (now i : Nat) (returns : Bool) :
    (f.beginCheckout now i returns).2.Apart := by
  have hdrawn := h.drawNumber
  have hbegins := f.beginCheckout_cases now i returns
  generalize f.beginCheckout now i returns = begun at hbegins ⊢
  cases hbegins with
  | missing hm => exact hdrawn
  | refused hm hpool => exact hdrawn
  | @lent m pool slot conn hm hpool =>
    have hset : (f.drawNext.setMember i (m.withPool pool)).Apart := hdrawn
    refine hset.hold now _ fun id hid => ?_
    obtain rfl := Holder.call.inj hid
    exact ⟨Nat.lt_succ_self _, hs.nextCall_not_mem⟩
  | dials hm hpool => exact h.beginNextDial now i _ _

theorem beginSweep (h : f.Apart) (now i : Nat) (background : Bool) :
    (f.beginSweep now i background).2.Apart := by
  have hdrawn := h.drawNumber
  have hbegins := f.beginSweep_cases now i background
  generalize f.beginSweep now i background = begun at hbegins ⊢
  cases hbegins with
  | missing hm => exact hdrawn
  | swept hm hpool => exact hdrawn
  | dials hm hpool hwanted => exact h.beginNextDial now i _ _

theorem endDial (h : f.Apart) (hs : f.Sound [] []) (now id : Nat) (outcome : DialOutcome) :
    (f.endDial now id outcome).2.Apart := by
  cases hc : f.call? id with
  | none =>
    rw [endDial_of_none hc]
    exact h
  | some c =>
    obtain ⟨m, hm⟩ := hs.exists_pool hc
    have hend := h.endCall id
    have hends := endDial_cases hc hm now outcome
    generalize f.endDial now id outcome = ended at hends ⊢
    cases hends with
    | refused hpurpose hpool => exact hend
    | @lent pool returns slot conn hpurpose hpool =>
      have hset : ((f.endCall id).setMember c.pool ((m.concluded outcome).withPool pool)).Apart :=
        hend
      refine hset.hold now _ fun id' hid' => ?_
      obtain rfl := Holder.call.inj hid'
      exact ⟨hs.drawn_of_call? hc, Sound.not_mem_endCall f id⟩
    | givesUp hpurpose hpool => exact hend
    | swept hpurpose hpool hlast => exact hend
    | dials hpurpose hpool hmore =>
      -- The call goes on waiting, among those that did before.
      obtain ⟨hmem, hid⟩ := Sound.mem_calls hc
      have hwaiting : id ∈ f.calls.map Call.id := hid ▸ List.mem_map_of_mem hmem
      refine h.of_subset (Nat.le_refl _) (fun _ hid => hid) fun id' hid' => .inl ?_
      rw [map_id_beginDial] at hid'
      rcases List.mem_append.mp hid' with hold | hnew
      · exact (List.filter_sublist.map Call.id).subset hold
      · rw [List.mem_singleton.mp hnew]
        exact hwaiting

theorem cancel (h : f.Apart) (id : Nat) : (f.cancel id).Apart := by
  have hend := h.endCall id
  unfold Fleet.cancel
  cases f.call? id with
  | none => exact h
  | some c =>
    simp only
    split <;> exact hend

theorem openGate (h : f.Apart) (i : Nat) : (f.openGate i).Apart :=
  h.withCalls fun _ hid => Sound.map_id_openGate f i ▸ hid

theorem turn (h : f.Apart) (hs : f.Sound [] []) (now : Nat) (t : FleetTurn) :
    (f.turn now t).Apart := by
  cases t with
  | beginCheckout i returns => exact h.beginCheckout hs now i returns
  | beginSweep i background => exact h.beginSweep now i background
  | endDial id outcome => exact h.endDial hs now id outcome
  | cancel id => exact h.cancel id
  | openGate i => exact h.openGate i
  | put i holder => exact h.put now i holder
  | drop holder => exact h.drop now holder
  | deliver id name => exact h.deliver now id name
  | tag holder text => exact h.tag holder text
  | connect | close | detach | reap | setHealth | script | plan => exact h

end Apart

/-- **In every run the handles of calls and the calls that wait are apart.** -/
theorem apart_run (turns : List (Nat × FleetTurn)) : (empty.run turns).Apart := by
  refine (runTurns_induction (P := fun f : Fleet => f.Sound [] [] ∧ f.Apart)
    ⟨sound_empty, apart_empty⟩ ?_ turns).2
  rintro f now t ⟨hs, ha⟩
  exact ⟨hs.turn now t, ha.turn hs now t⟩

end Fleet

end BoundedResources
