import Mathlib.Algebra.Ring.Nat
import Mathlib.Data.List.Nodup
import BoundedResources.Proofs.Pool.Books
import BoundedResources.Proofs.Pool.Seeding
import BoundedResources.Proofs.Pool.Steps
import BoundedResources.Proofs.Pool.Turns

/-!
# Obligations between the pools and their users

What a pool has lent is in the handles that it has issued, and what it owes is in the calls that
wait for its dials. `Fleet.Sound` says that the books of every pool of a fleet are right for just
those handles and calls, and **`Fleet.sound_run`** that they are so after every run of turns.

In the middle of a turn a handle can be in nobody's hands, and a reservation can belong to no
call: it was made for a call that does not wait yet, or is left over from one that waits no more.
So `Sound` has two more arguments, the handles `loose` and the pools `spare`, each named once for
every such reservation. They are what makes one small lemma for each step of a turn possible; at
the end of a turn both are empty.
-/

set_option autoImplicit false

namespace BoundedResources

/-! ## What is lent and what is owed -/

/-- The slots of the handles that a pool has issued. -/
def issuedBy (i : Nat) (handles : List Handle) : List Nat :=
  (handles.filter fun h => h.pool = i).map Handle.slot

theorem issuedBy_append (i : Nat) (hs hs' : List Handle) :
    issuedBy i (hs ++ hs') = issuedBy i hs ++ issuedBy i hs' := by
  rw [issuedBy, List.filter_append, List.map_append]
  rfl

theorem issuedBy_cons_self (h : Handle) (hs : List Handle) :
    issuedBy h.pool (h :: hs) = h.slot :: issuedBy h.pool hs := by
  rw [issuedBy, List.filter_cons_of_pos (by simp), List.map_cons]
  rfl

theorem issuedBy_cons_of_ne {i : Nat} {h : Handle} (hne : h.pool ≠ i) (hs : List Handle) :
    issuedBy i (h :: hs) = issuedBy i hs := by
  rw [issuedBy, List.filter_cons_of_neg (by simpa using hne)]
  rfl

theorem issuedBy_perm (i : Nat) {hs hs' : List Handle} (h : hs.Perm hs') :
    (issuedBy i hs).Perm (issuedBy i hs') :=
  (h.filter _).map _

/-- Where the connection of a handle comes from. -/
def Handle.place (h : Handle) : Nat × Nat := (h.pool, h.slot)

theorem issuedBy_congr (i : Nat) {hs hs' : List Handle}
    (h : hs.map Handle.place = hs'.map Handle.place) : issuedBy i hs = issuedBy i hs' := by
  have hkey (hs : List Handle) : issuedBy i hs =
      ((hs.map Handle.place).filter fun p => p.1 = i).map Prod.snd := by
    rw [List.filter_map, List.map_map]
    rfl
  rw [hkey, hkey, h]

/-- How many dials the waiting calls of a pool have still to do. -/
def dialsFor (i : Nat) (calls : List Call) : Nat :=
  ((calls.filter fun c => c.pool = i).map fun c => c.purpose.dials).sum

theorem dialsFor_cons (i : Nat) (c : Call) (cs : List Call) :
    dialsFor i (c :: cs) = (if c.pool = i then c.purpose.dials else 0) + dialsFor i cs := by
  unfold dialsFor
  by_cases h : c.pool = i
  · simp [h]
  · simp [h]

theorem dialsFor_append (i : Nat) (cs cs' : List Call) :
    dialsFor i (cs ++ cs') = dialsFor i cs + dialsFor i cs' := by
  rw [dialsFor, List.filter_append, List.map_append, List.sum_append]
  rfl

theorem dialsFor_perm (i : Nat) {cs cs' : List Call} (h : cs.Perm cs') :
    dialsFor i cs = dialsFor i cs' :=
  ((h.filter _).map _).sum_nat

theorem le_dialsFor (i : Nat) {cs : List Call} {c : Call} (hc : c ∈ cs) :
    (if c.pool = i then c.purpose.dials else 0) ≤ dialsFor i cs := by
  induction cs with
  | nil => cases hc
  | cons c' cs ih =>
    rw [dialsFor_cons]
    rcases List.mem_cons.mp hc with rfl | hc
    · exact Nat.le_add_right _ _
    · exact Nat.le_trans (ih hc) (Nat.le_add_left _ _)

/-- What a call has still to do is not to be done by the other calls. -/
theorem dialsFor_filter_add_le (i : Nat) {cs : List Call} (keep : Call → Bool) {c : Call}
    (hc : c ∈ cs) (hdrop : keep c = false) :
    dialsFor i (cs.filter keep) + (if c.pool = i then c.purpose.dials else 0) ≤
      dialsFor i cs := by
  have hc' : c ∈ cs.filter fun c => !keep c := List.mem_filter.mpr ⟨hc, by simp [hdrop]⟩
  have hsplit := dialsFor_perm i (List.filter_append_perm keep cs)
  rw [dialsFor_append] at hsplit
  rw [← hsplit]
  exact Nat.add_le_add_left (le_dialsFor i hc') _

namespace Fleet

/-- The slots that a pool has lent to the holders of handles, and in loose handles. -/
def lent (f : Fleet) (loose : List Handle) (i : Nat) : List Nat :=
  issuedBy i (f.handles.map Prod.snd ++ loose)

/-- The dials that a pool owes to waiting calls, and that are spare. -/
def owed (f : Fleet) (spare : List Nat) (i : Nat) : Nat := dialsFor i f.calls + spare.count i

/-- The books of all pools are right for the handles and the calls that there are. -/
structure Sound (f : Fleet) (loose : List Handle) (spare : List Nat) : Prop where
  /-- A holder has one handle. -/
  holders : (f.handles.map Prod.fst).Nodup
  issuers : ∀ h ∈ f.handles.map Prod.snd ++ loose, h.pool < f.members.length
  /-- The numbers of the calls were drawn before, each once. -/
  numbers : (f.calls.map Call.id).Nodup
  drawn : ∀ c ∈ f.calls, c.id < f.nextCall
  callers : ∀ c ∈ f.calls, c.pool < f.members.length ∧ 1 ≤ c.purpose.dials
  accounts : ∀ (i : Nat) (m : Member), f.members[i]? = some m →
    m.pool.Accounts (f.lent loose i) (f.owed spare i)

theorem sound_empty : empty.Sound [] [] :=
  ⟨List.nodup_nil, fun _ h => (nomatch h), List.nodup_nil, fun _ h => (nomatch h),
    fun _ h => (nomatch h), fun _ _ h => (nomatch h)⟩

namespace Sound

variable {f : Fleet} {loose : List Handle} {spare : List Nat} {i : Nat} {m : Member}

/-! ## Parts of a fleet change -/

theorem drawNumber (h : f.Sound loose spare) : f.drawNext.Sound loose spare :=
  ⟨h.holders, h.issuers, h.numbers, fun c hc => Nat.lt_succ_of_lt (h.drawn c hc), h.callers,
    h.accounts⟩

/-- One pool changes, together with what is loose and spare of it. -/
theorem setMember {loose' : List Handle} {spare' : List Nat} {m' : Member}
    (h : f.Sound loose spare) (hm : f.members[i]? = some m)
    (hissuers : ∀ x ∈ loose', x ∈ loose ∨ x.pool = i)
    (hloose : ∀ j, j ≠ i → issuedBy j loose' = issuedBy j loose)
    (hspare : ∀ j, j ≠ i → spare'.count j ≤ spare.count j)
    (hpool : m.pool.Accounts (f.lent loose i) (f.owed spare i) →
      m'.pool.Accounts (f.lent loose' i) (f.owed spare' i)) :
    (f.setMember i m').Sound loose' spare' := by
  have hlt : i < f.members.length := (List.getElem?_eq_some_iff.mp hm).1
  have hlen : (f.setMember i m').members.length = f.members.length := List.length_set
  refine ⟨h.holders, ?_, h.numbers, h.drawn, hlen ▸ h.callers, ?_⟩
  · intro x hx
    rw [hlen]
    rcases List.mem_append.mp hx with hx | hx
    · exact h.issuers x (List.mem_append_left _ hx)
    · rcases hissuers x hx with hx | rfl
      · exact h.issuers x (List.mem_append_right _ hx)
      · exact hlt
  · intro j m'' hj
    have hset : (f.members.set i m')[j]? = some m'' := hj
    by_cases hij : i = j
    · subst hij
      rw [List.getElem?_set_self hlt, Option.some.injEq] at hset
      exact hset ▸ hpool (h.accounts i m hm)
    · rw [List.getElem?_set_ne hij] at hset
      have hacc := h.accounts j m'' hset
      rw [lent, issuedBy_append, ← hloose j (Ne.symm hij), ← issuedBy_append] at hacc
      exact hacc.mono (Nat.add_le_add_left (hspare j (Ne.symm hij)) _)

/-- No pool changes its books, unless it is closed. -/
theorem withMembers {members : List Member} (h : f.Sound loose spare)
    (hlen : members.length = f.members.length)
    (hpools : ∀ (i : Nat) (m' : Member), members[i]? = some m' →
      ∃ m : Member, f.members[i]? = some m ∧ (m'.pool = m.pool ∨ m'.pool = m.pool.close)) :
    { f with members := members }.Sound loose spare := by
  refine ⟨h.holders, hlen ▸ h.issuers, h.numbers, h.drawn, hlen ▸ h.callers, ?_⟩
  intro i m' hm'
  obtain ⟨m, hm, hsame | hclosed⟩ := hpools i m' hm'
  · exact hsame ▸ h.accounts i m hm
  · exact hclosed ▸ (h.accounts i m hm).close

/-- The calls change, and owe no more than before together with what is spare. -/
theorem withCalls {calls : List Call} {spare' : List Nat} (h : f.Sound loose spare)
    (hnumbers : (calls.map Call.id).Nodup) (hdrawn : ∀ c ∈ calls, c.id < f.nextCall)
    (hcallers : ∀ c ∈ calls, c.pool < f.members.length ∧ 1 ≤ c.purpose.dials)
    (howed : ∀ i, dialsFor i calls + spare'.count i ≤ f.owed spare i) :
    { f with calls := calls }.Sound loose spare' :=
  ⟨h.holders, h.issuers, hnumbers, hdrawn, hcallers,
    fun i m hm => (h.accounts i m hm).mono (howed i)⟩

/-- The handles change, and with the loose ones they are on the same slots as before. -/
theorem withHandles {handles : List (Holder × Handle)} {loose' : List Handle}
    (h : f.Sound loose spare) (hholders : (handles.map Prod.fst).Nodup)
    (hissuers : ∀ x ∈ handles.map Prod.snd ++ loose', x.pool < f.members.length)
    (hlent : ∀ i, (f.lent loose i).Perm (issuedBy i (handles.map Prod.snd ++ loose'))) :
    { f with handles := handles }.Sound loose' spare :=
  ⟨hholders, hissuers, h.numbers, h.drawn, h.callers,
    fun i m hm => (h.accounts i m hm).perm (hlent i)⟩

/-- The handles change hands. -/
theorem withHandles_perm {handles : List (Holder × Handle)} {loose' : List Handle}
    (h : f.Sound loose spare) (hholders : (handles.map Prod.fst).Nodup)
    (hperm : (f.handles.map Prod.snd ++ loose).Perm (handles.map Prod.snd ++ loose')) :
    { f with handles := handles }.Sound loose' spare :=
  h.withHandles hholders (fun x hx => h.issuers x (hperm.mem_iff.mpr hx))
    fun i => issuedBy_perm i hperm

theorem loose_perm {loose' : List Handle} (h : f.Sound loose spare) (hp : loose.Perm loose') :
    f.Sound loose' spare :=
  h.withHandles_perm h.holders (hp.append_left _)

/-- What is spare can be left behind. -/
theorem leave (h : f.Sound loose spare) : f.Sound loose [] :=
  h.withCalls h.numbers h.drawn h.callers fun _ => Nat.le_add_right _ _

/-! ## Handles change hands -/

variable {holder : Holder} {x : Handle}

theorem handles_perm (h : f.Sound loose spare) (hx : f.handleOf? holder = some x) :
    f.handles.Perm ((holder, x) :: (f.takeHandle holder).handles) := by
  obtain ⟨front, back, hsplit, hfront⟩ := List.lookup_eq_some_iff.mp hx
  have hnodup := h.holders
  rw [hsplit, List.map_append, List.map_cons, List.nodup_middle, List.nodup_cons] at hnodup
  -- The holder has no second handle, behind the one that was found.
  have hstay : ∀ p ∈ front ++ back, (!(p.1 == holder)) = true := by
    intro p hp
    have hne : p.1 ≠ holder := by
      rintro rfl
      rw [← List.map_append] at hnodup
      exact hnodup.1 (List.mem_map.mpr ⟨p, hp, rfl⟩)
    simpa using hne
  have hrest : (f.takeHandle holder).handles = front ++ back := by
    show f.handles.filter _ = front ++ back
    rw [hsplit, List.filter_append, List.filter_cons_of_neg (by simp), ← List.filter_append,
      List.filter_eq_self.mpr hstay]
  rw [hrest, hsplit]
  exact List.perm_middle

theorem take (h : f.Sound loose spare) (hx : f.handleOf? holder = some x) :
    (f.takeHandle holder).Sound (x :: loose) spare := by
  have hnodup : ((f.takeHandle holder).handles.map Prod.fst).Nodup :=
    (List.filter_sublist.map Prod.fst).nodup h.holders
  apply h.withHandles_perm hnodup
  have hperm := ((h.handles_perm hx).map Prod.snd).append_right loose
  exact hperm.trans List.perm_middle.symm

/-- A loose handle goes to somebody who has none. -/
theorem give (h : f.Sound (x :: loose) spare) (hfree : holder ∉ f.handles.map Prod.fst) :
    { f with handles := f.handles ++ [(holder, x)] }.Sound loose spare := by
  refine h.withHandles_perm ?_ ?_
  · rw [List.map_append]
    exact List.nodup_append_comm.mp (List.nodup_cons.mpr ⟨hfree, h.holders⟩)
  · rw [List.map_append, List.append_assoc]
    exact List.Perm.refl _

theorem modifyMember_eq (hm : f.members[i]? = some m) (change : Member → Member) :
    { f with members := f.members.modify i change } = f.setMember i (change m) := by
  unfold Fleet.setMember
  congr 1
  refine List.ext_getElem? fun j => ?_
  rw [List.getElem?_modify, List.getElem?_set]
  by_cases hij : i = j
  · subst hij
    rw [if_pos rfl, if_pos (List.getElem?_eq_some_iff.mp hm).1, hm]
    exact congrArg some (if_pos rfl)
  · simp [hij]

theorem modifyPool_eq {change : Pool → Pool} (hm : f.members[i]? = some m) :
    f.modifyPool i change = f.setMember i (m.withPool (change m.pool)) :=
  modifyMember_eq hm _

/-- Somebody lets go of a loose handle: its pool makes good for the slot. -/
theorem release {change : Pool → Pool} (h : f.Sound (x :: loose) spare)
    (hchange : ∀ (p : Pool) (lent : List Nat) (owed : Nat),
      p.Accounts (x.slot :: lent) owed → (change p).Accounts lent owed) :
    (f.modifyPool x.pool change).Sound loose spare := by
  have hlt := h.issuers x (List.mem_append_right _ List.mem_cons_self)
  obtain ⟨m, hm⟩ : ∃ m, f.members[x.pool]? = some m := ⟨_, List.getElem?_eq_getElem hlt⟩
  rw [modifyPool_eq hm]
  refine h.setMember hm (fun y hy => .inl (List.mem_cons_of_mem _ hy)) ?_
    (fun _ _ => Nat.le_refl _) ?_
  · intro j hj
    exact (issuedBy_cons_of_ne (Ne.symm hj) loose).symm
  · intro hacc
    rw [lent, issuedBy_append, issuedBy_cons_self] at hacc
    refine hchange m.pool _ _ (hacc.perm ?_)
    rw [lent, issuedBy_append]
    exact List.perm_middle

theorem putBack (h : f.Sound (x :: loose) spare) (now : Nat) :
    (f.putBack now x).Sound loose spare :=
  h.release fun _ _ _ hacc => hacc.putBack now x.conn

theorem letGo (h : f.Sound (x :: loose) spare) (now : Nat) :
    (f.letGo now x).Sound loose spare := by
  unfold Fleet.letGo
  split
  · exact h.putBack now
  · exact h.release fun _ _ _ hacc => hacc.free

theorem drop (h : f.Sound loose spare) (now : Nat) (holder : Holder) :
    (f.drop now holder).Sound loose spare := by
  unfold Fleet.drop
  split
  · exact h
  · rename_i hx
    exact (h.take hx).letGo now

theorem not_mem_takeHandle (f : Fleet) (holder : Holder) :
    holder ∉ (f.takeHandle holder).handles.map Prod.fst := by
  intro hmem
  obtain ⟨p, hp, rfl⟩ := List.mem_map.mp hmem
  exact absurd (List.mem_filter.mp hp).2 (by simp)

theorem takeHandle_of_none (hnone : f.handleOf? holder = none) : f.takeHandle holder = f := by
  have hstay : ∀ p ∈ f.handles, (!(p.1 == holder)) = true := by
    intro p hp
    have hne := bne_iff_ne.mp (List.lookup_eq_none_iff.mp hnone p hp)
    simpa using Ne.symm hne
  unfold takeHandle
  rw [List.filter_eq_self.mpr hstay]

theorem hold (h : f.Sound (x :: loose) spare) (now : Nat) (holder : Holder) :
    (f.hold now holder x).Sound loose spare := by
  have hfree := not_mem_takeHandle f holder
  unfold Fleet.hold
  cases hold : f.handleOf? holder with
  | none =>
    rw [takeHandle_of_none hold] at hfree ⊢
    exact h.give hfree
  | some old =>
    -- Both handles are loose; the new one is held first, and the old one let go of after that.
    have hboth := (h.take hold).loose_perm (List.Perm.swap x old loose)
    exact (hboth.give hfree).letGo now

theorem deliver (h : f.Sound loose spare) (now call : Nat) (name : String) :
    (f.deliver now call name).Sound loose spare := by
  unfold Fleet.deliver
  split
  · exact h
  · rename_i hx
    exact (h.take hx).hold now (.name name)

theorem put (h : f.Sound loose spare) (now i : Nat) (holder : Holder) :
    (f.put now i holder).Sound loose spare := by
  unfold Fleet.put
  split
  · exact h
  · rename_i hx
    have htaken := h.take hx
    simp only
    split
    · exact htaken.putBack now
    · exact htaken.letGo now

theorem map_fst_tag (f : Fleet) (holder : Holder) (text : String) :
    (f.tag holder text).handles.map Prod.fst = f.handles.map Prod.fst := by
  rw [Fleet.tag, List.map_map]
  refine List.map_congr_left fun p _ => ?_
  simp only [Function.comp_apply]
  split <;> rfl

theorem tag (h : f.Sound loose spare) (holder : Holder) (text : String) :
    (f.tag holder text).Sound loose spare := by
  have hplaces : ((f.tag holder text).handles.map Prod.snd ++ loose).map Handle.place =
      (f.handles.map Prod.snd ++ loose).map Handle.place := by
    rw [Fleet.tag, List.map_append, List.map_append, List.map_map, List.map_map, List.map_map]
    refine congrArg (· ++ _) (List.map_congr_left fun p _ => ?_)
    simp only [Function.comp_apply]
    split <;> rfl
  refine h.withHandles (map_fst_tag f holder text ▸ h.holders) ?_ ?_
  · intro x hx
    have hplace : x.place ∈ (f.handles.map Prod.snd ++ loose).map Handle.place :=
      hplaces ▸ List.mem_map_of_mem hx
    obtain ⟨y, hy, hsame⟩ := List.mem_map.mp hplace
    have hpool : y.pool = x.pool := congrArg Prod.fst hsame
    exact hpool ▸ h.issuers y hy
  · intro i
    have hissued := issuedBy_congr i hplaces
    exact List.Perm.of_eq hissued.symm

/-! ## Calls -/

variable {id : Nat} {c : Call}

theorem mem_calls (hc : f.call? id = some c) : c ∈ f.calls ∧ c.id = id :=
  ⟨List.mem_of_find?_eq_some hc, by simpa using List.find?_some hc⟩

theorem drawn_of_call? (h : f.Sound loose spare) (hc : f.call? id = some c) :
    id < f.nextCall := by
  obtain ⟨hmem, rfl⟩ := mem_calls hc
  exact h.drawn c hmem

/-- The pool of a call is there. -/
theorem exists_pool (h : f.Sound loose spare) (hc : f.call? id = some c) :
    ∃ m, f.members[c.pool]? = some m :=
  ⟨_, List.getElem?_eq_getElem (h.callers c (mem_calls hc).1).1⟩

theorem nextCall_not_mem (h : f.Sound loose spare) : f.nextCall ∉ f.calls.map Call.id := by
  intro hmem
  obtain ⟨c, hc, hid⟩ := List.mem_map.mp hmem
  exact Nat.ne_of_lt (h.drawn c hc) hid

theorem not_mem_endCall (f : Fleet) (id : Nat) : id ∉ (f.endCall id).calls.map Call.id := by
  intro hmem
  obtain ⟨c, hc, rfl⟩ := List.mem_map.mp hmem
  exact absurd (List.mem_filter.mp hc).2 (by simp)

/-- What a call has reserved is spare once it waits no more. -/
theorem endCall (h : f.Sound loose []) (hc : f.call? id = some c) :
    (f.endCall id).Sound loose (List.replicate c.purpose.dials c.pool) := by
  obtain ⟨hmem, hid⟩ := mem_calls hc
  refine h.withCalls ((List.filter_sublist.map Call.id).nodup h.numbers)
    (fun c' hc' => h.drawn c' (List.mem_filter.mp hc').1)
    (fun c' hc' => h.callers c' (List.mem_filter.mp hc').1) fun i => ?_
  have hrest := dialsFor_filter_add_le i (fun c => !(c.id == id)) hmem (by simp [hid])
  rw [List.count_replicate, beq_eq_decide]
  simpa [owed] using hrest

/-- Reservations of one pool that belong to no call. -/
theorem owed_replicate (f : Fleet) (n i : Nat) :
    f.owed (List.replicate n i) i = f.owed [] i + n := by
  rw [owed, List.count_replicate_self]
  rfl

/-- A pool settles the reservations that are spare. -/
theorem settle {m' : Member} (n : Nat) (h : f.Sound loose (List.replicate n i))
    (hm : f.members[i]? = some m)
    (hpool : ∀ lent owed, m.pool.Accounts lent (owed + n) → m'.pool.Accounts lent owed) :
    (f.setMember i m').Sound loose [] := by
  refine h.setMember hm (fun _ hx => .inl hx) (fun _ _ => rfl) (fun _ _ => Nat.zero_le _) ?_
  intro hacc
  exact hpool _ _ (owed_replicate f n i ▸ hacc)

/-- A pool settles the reservations that are spare, and lends the slot of a handle that nobody
holds yet. -/
theorem lend {m' : Member} (n : Nat) (x : Handle) (h : f.Sound [] (List.replicate n x.pool))
    (hm : f.members[x.pool]? = some m)
    (hpool : ∀ lent owed, m.pool.Accounts lent (owed + n) →
      m'.pool.Accounts (x.slot :: lent) owed) :
    (f.setMember x.pool m').Sound [x] [] := by
  refine h.setMember hm ?_ ?_ (fun _ _ => Nat.zero_le _) ?_
  · intro y hy
    rw [List.mem_singleton.mp hy]
    exact .inr rfl
  · intro j hj
    exact issuedBy_cons_of_ne (Ne.symm hj) []
  · intro hacc
    apply (hpool _ _ (owed_replicate f n x.pool ▸ hacc)).perm
    rw [lent, lent, issuedBy_append, issuedBy_append, issuedBy_cons_self]
    exact List.perm_middle.symm

/-- A pool settles the reservations that are spare, and a call begins to wait with others. -/
theorem beginDial {m' : Member} (n : Nat) (purpose : Purpose)
    (h : f.Sound loose (List.replicate n i)) (hm : f.members[i]? = some m)
    (hdials : 1 ≤ purpose.dials) (hnew : id ∉ f.calls.map Call.id) (hdrawn : id < f.nextCall)
    (hpool : ∀ lent owed, m.pool.Accounts lent (owed + n) →
      m'.pool.Accounts lent (owed + purpose.dials)) (now : Nat) :
    (f.beginDial now id i m' purpose).Sound loose [] := by
  -- For a moment the new reservations are spare; then the call has them.
  have hset : (f.setMember i { m' with dialer := m'.dialer.begin.2 }).Sound loose
      (List.replicate purpose.dials i) := by
    refine h.setMember hm (fun _ hx => .inl hx) (fun _ _ => rfl) ?_ ?_
    · intro j hj
      rw [List.count_replicate, if_neg (by simpa using Ne.symm hj)]
      exact Nat.zero_le _
    · intro hacc
      rw [owed_replicate] at hacc ⊢
      exact hpool _ _ hacc
  have hlt : i < (f.setMember i { m' with dialer := m'.dialer.begin.2 }).members.length := by
    rw [Fleet.setMember, List.length_set]
    exact (List.getElem?_eq_some_iff.mp hm).1
  refine hset.withCalls ?_ ?_ ?_ fun j => Nat.le_of_eq ?_
  · rw [List.map_append]
    exact List.nodup_append_comm.mp (List.nodup_cons.mpr ⟨hnew, h.numbers⟩)
  · intro c hc
    rcases List.mem_append.mp hc with hc | hc
    · exact h.drawn c hc
    · rw [List.mem_singleton.mp hc]
      exact hdrawn
  · intro c hc
    rcases List.mem_append.mp hc with hc | hc
    · exact hset.callers c hc
    · rw [List.mem_singleton.mp hc]
      exact ⟨hlt, hdials⟩
  · rw [dialsFor_append, dialsFor_cons, owed, List.count_replicate, beq_eq_decide]
    simp only [decide_eq_true_eq]
    rfl

theorem beginCheckout (h : f.Sound [] []) (now i : Nat) (returns : Bool) :
    (f.beginCheckout now i returns).2.Sound [] [] := by
  have hf := h.drawNumber
  have hbegins := f.beginCheckout_cases now i returns
  generalize f.beginCheckout now i returns = begun at hbegins ⊢
  cases hbegins with
  | missing hm => exact hf
  | @refused m pool e hm hpool =>
    refine hf.settle 0 hm fun lent owed hacc => ?_
    have hchecked := hacc.checkout now m.healthy
    rwa [hpool] at hchecked
  | @lent m pool slot conn hm hpool =>
    refine Sound.hold ?_ now (.call f.nextCall)
    refine hf.lend 0 ⟨i, slot, conn, returns⟩ hm fun lent owed hacc => ?_
    have hchecked := hacc.checkout now m.healthy
    rwa [hpool] at hchecked
  | @dials m pool hm hpool =>
    refine hf.beginDial 0 (.checkout returns) hm (Nat.le_refl 1) h.nextCall_not_mem
      (Nat.lt_succ_self _) (fun lent owed hacc => ?_) now
    have hchecked := hacc.checkout now m.healthy
    rwa [hpool] at hchecked

theorem beginSweep (h : f.Sound [] []) (now i : Nat) (background : Bool) :
    (f.beginSweep now i background).2.Sound [] [] := by
  have hf := h.drawNumber
  have hbegins := f.beginSweep_cases now i background
  generalize f.beginSweep now i background = begun at hbegins ⊢
  cases hbegins with
  | missing hm => exact hf
  | @swept m pool hm hpool =>
    refine hf.settle 0 hm fun lent owed hacc => ?_
    have hbegun := hacc.beginSweep m.healthy
    rwa [hpool] at hbegun
  | @dials m pool wanted hm hpool hwanted =>
    refine hf.beginDial 0 (.sweep wanted background) hm (Nat.one_le_iff_ne_zero.mpr hwanted)
      h.nextCall_not_mem (Nat.lt_succ_self _) (fun lent owed hacc => ?_) now
    have hbegun := hacc.beginSweep m.healthy
    rwa [hpool] at hbegun

/-- A sweep's dial settles one of the reservations of the sweep. -/
theorem accounts_endSweepDial {pool : Pool} {made : Bool} {wanted now : Nat}
    {dialed : Except PoolError Connection} (hpos : 1 ≤ wanted)
    (hpool : m.pool.endSweepDial now dialed = (made, pool)) (lent : List Nat) (owed : Nat)
    (hacc : m.pool.Accounts lent (owed + wanted)) : pool.Accounts lent (owed + (wanted - 1)) := by
  have hsplit : owed + wanted = owed + (wanted - 1) + 1 := by omega
  have hended := (hsplit ▸ hacc).endSweepDial now dialed
  rwa [hpool] at hended

theorem endDial (h : f.Sound [] []) (now id : Nat) (outcome : DialOutcome) :
    (f.endDial now id outcome).2.Sound [] [] := by
  cases hc : f.call? id with
  | none =>
    rw [endDial_of_none hc]
    exact h
  | some c =>
    obtain ⟨m, hm⟩ := h.exists_pool hc
    -- What the call has reserved is spare now, and each case is one way to settle it.
    have hend := h.endCall hc
    have hpos := (h.callers c (mem_calls hc).1).2
    have hends := endDial_cases hc hm now outcome
    generalize f.endDial now id outcome = ended at hends ⊢
    cases hends with
    | refused hpurpose hpool =>
      rw [hpurpose] at hend
      refine hend.settle 1 hm fun lent owed hacc => ?_
      have hended := hacc.endCheckout now (m.dialed outcome)
      rwa [hpool] at hended
    | @lent pool returns slot conn hpurpose hpool =>
      rw [hpurpose] at hend
      refine Sound.hold ?_ now (.call id)
      refine hend.lend 1 ⟨c.pool, slot, conn, returns⟩ hm fun lent owed hacc => ?_
      have hended := hacc.endCheckout now (m.dialed outcome)
      rwa [hpool] at hended
    | @givesUp pool wanted background hpurpose hpool =>
      rw [hpurpose] at hend hpos
      refine hend.settle wanted hm fun lent owed hacc => ?_
      exact (accounts_endSweepDial hpos hpool lent owed hacc).unreserve
    | @swept pool wanted background hpurpose hpool hlast =>
      rw [hpurpose] at hend hpos
      refine hend.settle wanted hm fun lent owed hacc => ?_
      exact (accounts_endSweepDial hpos hpool lent owed hacc).mono (Nat.le_add_right _ _)
    | @dials pool wanted background hpurpose hpool hmore =>
      rw [hpurpose] at hend hpos
      have hnext : 1 ≤ wanted - 1 := by omega
      exact hend.beginDial wanted (.sweep (wanted - 1) background) hm hnext
        (not_mem_endCall f id) (h.drawn_of_call? hc) (accounts_endSweepDial hpos hpool) now

theorem cancel (h : f.Sound [] []) (id : Nat) : (f.cancel id).Sound [] [] := by
  unfold Fleet.cancel
  cases hc : f.call? id with
  | none => exact h
  | some c =>
    have hend := h.endCall hc
    simp only
    cases hpurpose : c.purpose with
    | sweep wanted background => exact hend.leave
    | checkout returns =>
      rw [hpurpose] at hend
      obtain ⟨m, hm⟩ := h.exists_pool hc
      have hm' : (f.endCall id).members[c.pool]? = some m := hm
      simp only
      rw [modifyPool_eq hm']
      exact hend.settle 1 hm' fun _ _ hacc => hacc.unreserve

theorem map_id_openGate (f : Fleet) (i : Nat) :
    (f.openGate i).calls.map Call.id = f.calls.map Call.id := by
  rw [Fleet.openGate, List.map_map]
  refine List.map_congr_left fun c _ => ?_
  simp only [Function.comp_apply]
  split <;> rfl

theorem openGate (h : f.Sound loose spare) (i : Nat) : (f.openGate i).Sound loose spare := by
  have hpool (c : Call) : (if c.pool = i then { c with released := true } else c).pool =
      c.pool := by
    split <;> rfl
  have hpurpose (c : Call) : (if c.pool = i then { c with released := true } else c).purpose =
      c.purpose := by
    split <;> rfl
  have hid (c : Call) : (if c.pool = i then { c with released := true } else c).id = c.id := by
    split <;> rfl
  refine h.withCalls ?_ (fun c hc => ?_) (fun c hc => ?_) fun j => ?_
  · exact map_id_openGate f i ▸ h.numbers
  · obtain ⟨c', hc', rfl⟩ := List.mem_map.mp hc
    rw [hid]
    exact h.drawn c' hc'
  · obtain ⟨c', hc', rfl⟩ := List.mem_map.mp hc
    rw [hpool, hpurpose]
    exact h.callers c' hc'
  · unfold owed
    induction f.calls with
    | nil => exact Nat.le_refl _
    | cons c cs ih =>
      rw [List.map_cons, dialsFor_cons, dialsFor_cons, hpool, hpurpose]
      omega

/-! ## Pools -/

theorem modifyMember (h : f.Sound loose spare) (i : Nat) {change : Member → Member}
    (hchange : ∀ m, (change m).pool = m.pool ∨ (change m).pool = m.pool.close) :
    { f with members := f.members.modify i change }.Sound loose spare := by
  refine h.withMembers (List.length_modify _ _ _) fun j m' hm' => ?_
  rw [List.getElem?_modify] at hm'
  obtain ⟨m, hm, rfl⟩ := Option.map_eq_some_iff.mp hm'
  refine ⟨m, hm, ?_⟩
  split
  · exact hchange m
  · exact .inl rfl

theorem reap (h : f.Sound loose spare) : f.reap.Sound loose spare := by
  refine h.withMembers List.length_mapIdx fun j m' hm' => ?_
  rw [List.getElem?_mapIdx] at hm'
  obtain ⟨m, hm, rfl⟩ := Option.map_eq_some_iff.mp hm'
  refine ⟨m, hm, ?_⟩
  unfold reapMember
  split
  · exact .inl rfl
  · split
    · exact .inl rfl
    · exact .inr rfl

/-- Nobody has a handle of a pool that is not there. -/
theorem handles_of_length_le (h : f.Sound loose spare) (hi : f.members.length ≤ i) :
    (f.handles.map Prod.snd ++ loose).filter (fun x : Handle => x.pool = i) = [] := by
  refine List.filter_eq_nil_iff.mpr fun x hx => ?_
  simpa using Nat.ne_of_lt (Nat.lt_of_lt_of_le (h.issuers x hx) hi)

/-- A pool joins the fleet that has lent and owes nothing yet. -/
theorem addMember (h : f.Sound [] []) (hm : m.pool.Accounts [] 0) :
    { f with members := f.members ++ [m] }.Sound [] [] := by
  have hlen : f.members.length ≤ (f.members ++ [m]).length := by
    rw [List.length_append]
    exact Nat.le_add_right _ _
  refine ⟨h.holders, fun x hx => Nat.lt_of_lt_of_le (h.issuers x hx) hlen, h.numbers, h.drawn,
    fun c hc => ⟨Nat.lt_of_lt_of_le (h.callers c hc).1 hlen, (h.callers c hc).2⟩, ?_⟩
  intro i m' hm'
  rcases Nat.lt_or_ge i f.members.length with hlt | hge
  · rw [List.getElem?_append_left hlt] at hm'
    exact h.accounts i m' hm'
  · -- Nobody holds a handle of the new pool, and no call waits for its dials.
    rw [List.getElem?_append_right hge, List.getElem?_singleton] at hm'
    split at hm'
    · rename_i hnew
      obtain rfl := Option.some.inj hm'
      have hlent : f.lent [] i = [] := by
        rw [lent, issuedBy, h.handles_of_length_le hge]
        rfl
      have howed : f.owed [] i = 0 := by
        have hnone : f.calls.filter (fun c => c.pool = i) = [] := by
          apply List.filter_eq_nil_iff.mpr
          intro c hc
          have := (h.callers c hc).1
          simp only [decide_eq_true_eq]
          omega
        rw [owed, dialsFor, hnone]
        rfl
      show m.pool.Accounts (f.lent [] i) (f.owed [] i)
      rw [hlent, howed]
      exact hm
    · cases hm'

end Sound

end Fleet

namespace PoolSession

/-- As many connections are opened for a new pool as its minimum asks for. -/
theorem length_seed {config : PoolConfig} {n now now' : Nat} {dialer dialer' : Dialer}
    {conns conns' : List Connection}
    (h : seed config n dialer now conns = (.ok conns', dialer', now')) :
    conns'.length = conns.length + n := by
  rw [(seed_eq_ok h).1, List.length_append, List.length_map, List.length_range']

/-- What making a slot does not change is in a new pool as in one without connections. -/
theorem seeded_keeps {α : Type} {field : Pool → α}
    (hpush : ∀ (p : Pool) (now : Nat) (conn : Option Connection), field (p.push now conn) = field p)
    (config : PoolConfig) (now : Nat) (conns : List Connection) :
    field (seeded config now conns) = field (.empty config) := by
  suffices hfold : ∀ p : Pool, field (conns.foldl (fun p conn => p.push now (some conn)) p) =
      field p from hfold (.empty config)
  induction conns with
  | nil => exact fun _ => rfl
  | cons conn conns ih => exact fun p => (ih (p.push now (some conn))).trans (hpush p now _)

theorem accounts_seeded (config : PoolConfig) (now : Nat) {conns : List Connection}
    (h : conns.length ≤ config.normalized.maxSize) :
    (seeded config.normalized now conns).Accounts [] 0 := by
  suffices hfold : ∀ (conns : List Connection) (p : Pool), p.Accounts [] 0 → p.closed = false →
      p.occupied + conns.length ≤ p.config.maxSize →
        (conns.foldl (fun p conn => p.push now (some conn)) p).Accounts [] 0 from
    hfold conns _ (Pool.Accounts.empty config false) rfl ((Nat.zero_add _).symm ▸ h)
  intro conns
  induction conns with
  | nil => exact fun p hp _ _ => hp
  | cons conn rest ih =>
    intro p hp hopen hroom
    rw [List.length_cons] at hroom
    apply ih _ (hp.push hopen (by omega) now (some conn)) hopen
    rw [Pool.occupied_push]
    show p.occupied + 1 + rest.length ≤ p.config.maxSize
    omega

end PoolSession

namespace Fleet

theorem Sound.connect {f : Fleet} (h : f.Sound [] []) (now : Nat) (config : PoolConfig)
    (script : List DialPlan) : (f.connect now config script).Sound [] [] := by
  obtain ⟨dialer, later, ⟨e, -, hconnect⟩ | ⟨conns, hseed, hconnect⟩⟩ :=
    f.connect_cases now config script
  · rw [hconnect]
    exact h.addMember (Pool.Accounts.empty config true)
  · have hlen : conns.length = config.normalized.minSize := by
      rw [PoolSession.length_seed hseed, List.length_nil, Nat.zero_add]
    have hroom := config.minSize_le_maxSize_normalized
    rw [hconnect]
    exact h.addMember (PoolSession.accounts_seeded config later (hlen ▸ hroom))

theorem Sound.turn {f : Fleet} (h : f.Sound [] []) (now : Nat) (t : FleetTurn) :
    (f.turn now t).Sound [] [] := by
  cases t with
  | connect config script => exact h.connect now config script
  | beginCheckout i returns => exact h.beginCheckout now i returns
  | beginSweep i background => exact h.beginSweep now i background
  | endDial id outcome => exact h.endDial now id outcome
  | cancel id => exact h.cancel id
  | openGate i => exact h.openGate i
  | put i holder => exact h.put now i holder
  | drop holder => exact h.drop now holder
  | deliver id name => exact h.deliver now id name
  | tag holder text => exact h.tag holder text
  | close i => exact h.modifyMember i fun _ => .inr rfl
  | detach i => exact h.modifyMember i fun _ => .inl rfl
  | reap => exact h.reap
  | setHealth i number ok => exact h.modifyMember i fun _ => .inl rfl
  | script i plans => exact h.modifyMember i fun _ => .inl rfl
  | plan i ticker => exact h.modifyMember i fun _ => .inl rfl

/-- **After every run of turns the books of all pools are right.** -/
theorem sound_run (turns : List (Nat × FleetTurn)) : (empty.run turns).Sound [] [] :=
  runTurns_induction (P := fun f : Fleet => f.Sound [] []) sound_empty
    (fun _ now t h => h.turn now t) turns

end Fleet

end BoundedResources
