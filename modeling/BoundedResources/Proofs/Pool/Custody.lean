import BoundedResources.Proofs.Pool.Books
import BoundedResources.Proofs.Pool.Steps

/-!
# The custody of connections

A connection that was opened for a pool is idle in its slot, lent in a handle, or closed again.
`Stock` puts together what there is to know of this: the pool, how many connections were opened for
it, and the handles in which they are lent. **`Stock.Change`** lists what can happen to a stock,
with the connections that are closed by it and those that are handed out. Each operation of a pool
is such a change; whatever all of them keep is proved once, by cases of this list.

Two things are. A stock that is in custody stays so (`Stock.Change.custody`): each connection is in
one of the three places and in no two of them, and the count in its slot is right. And the slots
that are new have new numbers, so that none is ever used twice (`Stock.Change.follows`).
-/

set_option autoImplicit false

namespace BoundedResources

/-- The numbers of the idle connections of which something is true. -/
def idleNumbers (which : Connection → Bool) (slots : List Slot) : List Nat :=
  slots.filterMap fun s => (s.conn.filter which).map Connection.number

/-- The numbers of all idle connections. -/
abbrev allIdle (slots : List Slot) : List Nat := idleNumbers (fun _ => true) slots

theorem idleNumbers_append (which : Connection → Bool) (slots slots' : List Slot) :
    idleNumbers which (slots ++ slots') = idleNumbers which slots ++ idleNumbers which slots' :=
  List.filterMap_append

theorem idleNumbers_cons (which : Connection → Bool) (s : Slot) (slots : List Slot) :
    idleNumbers which (s :: slots) =
      ((s.conn.filter which).map Connection.number).toList ++ idleNumbers which slots := by
  unfold idleNumbers
  rw [List.filterMap_cons]
  cases (s.conn.filter which).map Connection.number <;> rfl

section Middle

variable {front back : List Slot} {x : Slot} {conn : Connection}

theorem allIdle_of_some (hconn : x.conn = some conn) :
    (allIdle (front ++ x :: back)).Perm (conn.number :: allIdle (front ++ back)) := by
  rw [allIdle, idleNumbers_append, idleNumbers_cons, hconn, allIdle, idleNumbers_append]
  exact List.perm_middle

theorem allIdle_of_none (hconn : x.conn = none) :
    allIdle (front ++ x :: back) = allIdle (front ++ back) := by
  rw [allIdle, idleNumbers_append, idleNumbers_cons, hconn, allIdle, idleNumbers_append]
  rfl

end Middle

/-- Pruning closes what is not healthy, and leaves the other idle connections. -/
theorem allIdle_perm_prune (healthy : Connection → Bool) (slots : List Slot) :
    (allIdle slots).Perm
      (allIdle (slots.filter (Slot.survives healthy)) ++
        idleNumbers (fun c => !healthy c) slots) := by
  induction slots with
  | nil => exact List.Perm.refl _
  | cons s slots ih =>
    cases hconn : s.conn with
    | none => simpa [idleNumbers_cons, Slot.survives, hconn] using ih
    | some c =>
      cases hhealthy : healthy c with
      | true =>
        simpa [idleNumbers_cons, Slot.survives, hconn, hhealthy, Option.filter_some] using ih
      | false =>
        simp only [allIdle, idleNumbers_cons, Slot.survives, hconn, hhealthy, Option.all_some,
          Bool.false_eq_true, not_false_eq_true, List.filter_cons_of_neg, Option.filter_some,
          Bool.not_false, if_true, Option.map_some, Option.toList_some, List.singleton_append]
        exact (ih.cons c.number).trans List.perm_middle.symm

/-- What is known of the connections of a pool. -/
structure Stock where
  pool : Pool
  /-- How many were opened; they are numbered from 1 on. -/
  made : Nat
  /-- The handles that they are lent in: the slot and the number of each. -/
  lent : List (Nat × Nat)

namespace Stock

/-- What can happen to a stock, with the numbers of the connections that are closed by it and of
those that are handed out. -/
inductive Change : Stock → List Nat → List Nat → Stock → Prop where
  /-- Nothing happens to connections. -/
  | keep {s s' : Stock} (hslots : s'.pool.slots = s.pool.slots)
      (hnext : s'.pool.nextId = s.pool.nextId) (hclosed : s'.pool.closed = s.pool.closed)
      (hmade : s'.made = s.made) (hlent : s.lent.Perm s'.lent) : Change s [] [] s'
  /-- The idle connections that are not healthy are closed. -/
  | prune (s : Stock) (healthy : Connection → Bool) :
      Change s (idleNumbers (fun c => !healthy c) s.pool.slots) []
        { s with pool := s.pool.prune healthy }
  /-- An idle connection is handed out. -/
  | lend {s : Stock} {front back : List Slot} {x : Slot} {conn : Connection}
      (hslots : s.pool.slots = front ++ x :: back) (hconn : x.conn = some conn) (now : Nat) :
      Change s [] [conn.number]
        ⟨{ s.pool with slots := front ++ x.lend now :: back }, s.made,
          (x.id, conn.number) :: s.lent⟩
  /-- A connection is opened and handed out. -/
  | openLent (s : Stock) (hopen : s.pool.closed = false) (now : Nat) :
      Change s [] [s.made + 1]
        ⟨s.pool.push now none, s.made + 1, (s.pool.nextId, s.made + 1) :: s.lent⟩
  /-- A connection is opened and stays idle. -/
  | openIdle (s : Stock) (hopen : s.pool.closed = false) (now : Nat) (tag : String) :
      Change s [] [] ⟨s.pool.push now (some ⟨s.made + 1, tag⟩), s.made + 1, s.lent⟩
  /-- A connection is opened for a pool that is closed by then. -/
  | refuse (s : Stock) (hclosed : s.pool.closed = true) :
      Change s [s.made + 1] [] { s with made := s.made + 1 }
  /-- A connection comes back into its slot. -/
  | takeBack {s : Stock} {front back : List Slot} {x : Slot} {conn : Connection}
      {lent : List (Nat × Nat)} (hslots : s.pool.slots = front ++ x :: back)
      (hconn : x.conn = none) (hlent : s.lent.Perm ((x.id, conn.number) :: lent)) (now : Nat) :
      Change s [] []
        ⟨{ s.pool with
            slots := front ++ { x with conn := some conn, lastUsedAt := now } :: back },
          s.made, lent⟩
  /-- A connection that is lent is closed, and its slot freed. -/
  | free {s : Stock} {front back : List Slot} {x : Slot} {number : Nat}
      {lent : List (Nat × Nat)} (hslots : s.pool.slots = front ++ x :: back)
      (hconn : x.conn = none) (hlent : s.lent.Perm ((x.id, number) :: lent)) :
      Change s [number] [] ⟨{ s.pool with slots := front ++ back }, s.made, lent⟩
  /-- A connection that is lent is closed, and its pool was closed before. -/
  | lapse {s : Stock} {id number : Nat} {lent : List (Nat × Nat)}
      (hclosed : s.pool.closed = true) (hlent : s.lent.Perm ((id, number) :: lent)) :
      Change s [number] [] { s with lent := lent }
  /-- The pool is closed with its idle connections. -/
  | close (s : Stock) : Change s (allIdle s.pool.slots) [] { s with pool := s.pool.close }
  | trans {s s' s'' : Stock} {closed closed' handed handed' : List Nat}
      (h : Change s closed handed s') (h' : Change s' closed' handed' s'') :
      Change s (closed ++ closed') (handed ++ handed') s''

/-! ## Custody -/

/-- Each connection that was opened is idle or lent, or is one of those that are gone, and each slot
counts how often its connection is among those that were handed out. -/
structure Custody (s : Stock) (gone handed : List Nat) : Prop where
  inOrder : Pool.SlotsInOrder s.pool.slots s.pool.nextId
  numbered : s.pool.closed = false → s.pool.nextId = s.made + 1
  idle : ∀ x ∈ s.pool.slots, ∀ c, x.conn = some c → c.number = x.id
  lent : ∀ l ∈ s.lent, l.2 = l.1
  whereabouts : (List.range' 1 s.made).Perm
    (allIdle s.pool.slots ++ s.lent.map Prod.snd ++ gone)
  counted : ∀ x ∈ s.pool.slots, x.useCount = handed.count x.id
  handed_le : ∀ n ∈ handed, n ≤ s.made

variable {s s' : Stock} {gone handed : List Nat}

namespace Custody

/-- What is lent no longer goes to what is gone. -/
theorem perm_goes {idle lent lent' gone : List Nat} {n : Nat} (h : lent.Perm (n :: lent')) :
    (idle ++ lent ++ gone).Perm (idle ++ lent' ++ (gone ++ [n])) := by
  apply ((h.append_left idle).append_right gone).trans
  apply (List.perm_middle.append_right gone).trans
  rw [List.cons_append, ← List.append_assoc (idle ++ lent')]
  exact (List.perm_append_singleton n _).symm

/-- The next connection was not handed out yet. -/
theorem count_next (h : s.Custody gone handed) : handed.count (s.made + 1) = 0 := by
  apply List.count_eq_zero_of_not_mem
  intro hmem
  exact absurd (h.handed_le _ hmem) (Nat.not_succ_le_self s.made)

/-- Slots go or are pruned, and what they held goes with them. -/
theorem withSlots {slots : List Slot} {lent : List (Nat × Nat)} {gone' : List Nat}
    (h : s.Custody gone handed) (hsub : slots.Sublist s.pool.slots)
    (hlent : ∀ l ∈ lent, l ∈ s.lent)
    (hwhere : (allIdle s.pool.slots ++ s.lent.map Prod.snd ++ gone).Perm
      (allIdle slots ++ lent.map Prod.snd ++ gone')) :
    Custody ⟨{ s.pool with slots := slots }, s.made, lent⟩ gone' handed where
  inOrder := ⟨h.inOrder.ascending.sublist hsub, fun x hx => h.inOrder.below x (hsub.subset hx)⟩
  numbered := h.numbered
  idle := fun x hx => h.idle x (hsub.subset hx)
  lent := fun l hl => h.lent l (hlent l hl)
  whereabouts := h.whereabouts.trans hwhere
  counted := fun x hx => h.counted x (hsub.subset hx)
  handed_le := h.handed_le

theorem keep (h : s.Custody gone handed) (hslots : s'.pool.slots = s.pool.slots)
    (hnext : s'.pool.nextId = s.pool.nextId) (hclosed : s'.pool.closed = s.pool.closed)
    (hmade : s'.made = s.made) (hlent : s.lent.Perm s'.lent) : s'.Custody gone handed := by
  refine ⟨?_, ?_, ?_, ?_, ?_, ?_, ?_⟩
  · rw [hslots, hnext]
    exact h.inOrder
  · rw [hclosed, hnext, hmade]
    exact h.numbered
  · rw [hslots]
    exact h.idle
  · intro l hl
    exact h.lent l (hlent.mem_iff.mpr hl)
  · rw [hslots, hmade]
    exact h.whereabouts.trans (((hlent.map Prod.snd).append_left _).append_right _)
  · rw [hslots]
    exact h.counted
  · rw [hmade]
    exact h.handed_le

theorem prune (h : s.Custody gone handed) (healthy : Connection → Bool) :
    Custody { s with pool := s.pool.prune healthy }
      (gone ++ idleNumbers (fun c => !healthy c) s.pool.slots) handed := by
  refine h.withSlots List.filter_sublist (fun _ hl => hl) ?_
  have hpruned := ((allIdle_perm_prune healthy s.pool.slots).append_right
    (s.lent.map Prod.snd)).append_right gone
  apply hpruned.trans
  rw [List.append_assoc, List.append_assoc, List.append_assoc, ← List.append_assoc _ gone]
  exact List.perm_append_comm.append_left _

theorem close (h : s.Custody gone handed) :
    Custody { s with pool := s.pool.close } (gone ++ allIdle s.pool.slots) handed where
  inOrder := ⟨List.Pairwise.nil, fun _ hx => (nomatch hx)⟩
  numbered := fun hopen => Bool.noConfusion hopen
  idle := fun _ hx => (nomatch hx)
  lent := h.lent
  whereabouts := by
    apply h.whereabouts.trans
    rw [List.append_assoc]
    apply List.perm_append_comm.trans
    rw [List.append_assoc]
    exact List.Perm.refl _
  counted := fun _ hx => (nomatch hx)
  handed_le := h.handed_le

variable {front back : List Slot} {x x' : Slot} {conn : Connection} {lent : List (Nat × Nat)}

/-- One slot changes, but for its number. -/
theorem replace {handed' : List Nat} (h : s.Custody gone handed)
    (hslots : s.pool.slots = front ++ x :: back) (hid : x'.id = x.id)
    (hidle : ∀ c, x'.conn = some c → c.number = x.id) (hlent : ∀ l ∈ lent, l.2 = l.1)
    (hwhere : (allIdle (front ++ x :: back) ++ s.lent.map Prod.snd ++ gone).Perm
      (allIdle (front ++ x' :: back) ++ lent.map Prod.snd ++ gone))
    (hcount : x'.useCount = handed'.count x.id)
    (hothers : ∀ n, n ≠ x.id → handed'.count n = handed.count n)
    (hle : ∀ n ∈ handed', n ≤ s.made) :
    Custody ⟨{ s.pool with slots := front ++ x' :: back }, s.made, lent⟩ gone handed' := by
  have hmem : ∀ y ∈ front ++ x' :: back, y = x' ∨ (y ∈ s.pool.slots ∧ y.id ≠ x.id) := by
    intro y hy
    rcases List.mem_cons.mp (List.perm_middle.mem_iff.mp hy) with rfl | hy
    · exact .inl rfl
    · refine .inr ⟨?_, h.inOrder.id_ne hslots y hy⟩
      rw [hslots]
      exact List.perm_middle.mem_iff.mpr (List.mem_cons_of_mem _ hy)
  refine ⟨h.inOrder.of_map_id ?_, h.numbered, ?_, hlent, ?_, ?_, hle⟩
  · rw [hslots, List.map_append, List.map_append, List.map_cons, List.map_cons, hid]
  · intro y hy c hc
    rcases hmem y hy with rfl | ⟨hy, -⟩
    · exact (hidle c hc).trans hid.symm
    · exact h.idle y hy c hc
  · exact (hslots ▸ h.whereabouts).trans hwhere
  · intro y hy
    rcases hmem y hy with rfl | ⟨hy, hne⟩
    · rw [hid, hcount]
    · rw [hothers y.id hne, h.counted y hy]

theorem lend (h : s.Custody gone handed) (hslots : s.pool.slots = front ++ x :: back)
    (hconn : x.conn = some conn) (now : Nat) :
    Custody ⟨{ s.pool with slots := front ++ x.lend now :: back }, s.made,
      (x.id, conn.number) :: s.lent⟩ gone (handed ++ [conn.number]) := by
  have hx : x ∈ s.pool.slots := hslots ▸ List.mem_append_right _ List.mem_cons_self
  have hnumber := h.idle x hx conn hconn
  have hle : conn.number ≤ s.made := by
    have hmem : conn.number ∈ allIdle s.pool.slots ++ s.lent.map Prod.snd ++ gone := by
      simp [hslots, idleNumbers_append, idleNumbers_cons, hconn]
    have := List.mem_range'_1.mp (h.whereabouts.mem_iff.mpr hmem)
    omega
  refine h.replace hslots rfl (fun c hc => nomatch hc)
    (List.forall_mem_cons.mpr ⟨hnumber, h.lent⟩) ?_ ?_ ?_ ?_
  · rw [allIdle_of_none (x := x.lend now) rfl]
    apply (((allIdle_of_some hconn).append_right _).append_right _).trans
    exact List.perm_middle.symm.append_right gone
  · rw [hnumber, List.count_append, List.count_singleton_self, ← h.counted x hx]
    rfl
  · intro n hn
    rw [hnumber, List.count_append, List.count_singleton, if_neg (by simpa using Ne.symm hn)]
    rfl
  · intro n hn
    rcases List.mem_append.mp hn with hn | hn
    · exact h.handed_le n hn
    · exact List.mem_singleton.mp hn ▸ hle

theorem takeBack (h : s.Custody gone handed) (hslots : s.pool.slots = front ++ x :: back)
    (hconn : x.conn = none) (hlent : s.lent.Perm ((x.id, conn.number) :: lent)) (now : Nat) :
    Custody ⟨{ s.pool with
        slots := front ++ { x with conn := some conn, lastUsedAt := now } :: back }, s.made, lent⟩
      gone handed := by
  have hx : x ∈ s.pool.slots := hslots ▸ List.mem_append_right _ List.mem_cons_self
  have hback : ∀ l ∈ (x.id, conn.number) :: lent, l.2 = l.1 := fun l hl =>
    h.lent l (hlent.mem_iff.mpr hl)
  obtain ⟨hnumber, hrest⟩ := List.forall_mem_cons.mp hback
  refine h.replace hslots rfl ?_ hrest ?_ (h.counted x hx) (fun _ _ => rfl) h.handed_le
  · intro c hc
    rw [← Option.some.inj hc]
    exact hnumber
  · rw [allIdle_of_none hconn]
    apply (((hlent.map Prod.snd).append_left _).append_right _).trans
    apply (List.perm_middle.append_right gone).trans
    exact (((allIdle_of_some rfl).append_right _).append_right _).symm

theorem free {number : Nat} (h : s.Custody gone handed)
    (hslots : s.pool.slots = front ++ x :: back) (hconn : x.conn = none)
    (hlent : s.lent.Perm ((x.id, number) :: lent)) :
    Custody ⟨{ s.pool with slots := front ++ back }, s.made, lent⟩ (gone ++ [number]) handed := by
  refine h.withSlots ?_ (fun l hl => hlent.mem_iff.mpr (List.mem_cons_of_mem _ hl)) ?_
  · rw [hslots]
    exact (List.sublist_cons_self x back).append_left front
  · rw [hslots, allIdle_of_none hconn]
    exact perm_goes (hlent.map Prod.snd)

theorem lapse {id number : Nat} (h : s.Custody gone handed)
    (hlent : s.lent.Perm ((id, number) :: lent)) :
    Custody { s with lent := lent } (gone ++ [number]) handed := by
  refine h.withSlots (List.Sublist.refl _)
    (fun l hl => hlent.mem_iff.mpr (List.mem_cons_of_mem _ hl)) ?_
  exact perm_goes (hlent.map Prod.snd)

/-! ### Connections are opened -/

/-- The next connection is opened, and has to go somewhere. -/
theorem range'_succ (h : s.Custody gone handed) :
    (List.range' 1 (s.made + 1)).Perm
      ((s.made + 1) :: (allIdle s.pool.slots ++ s.lent.map Prod.snd ++ gone)) := by
  rw [List.range'_concat, Nat.one_mul, Nat.add_comm 1]
  exact (h.whereabouts.append_right _).trans (List.perm_append_singleton _ _)

theorem refuse (h : s.Custody gone handed) (hclosed : s.pool.closed = true) :
    Custody { s with made := s.made + 1 } (gone ++ [s.made + 1]) handed where
  inOrder := h.inOrder
  numbered := fun hopen => absurd (hclosed.symm.trans hopen) (by decide)
  idle := h.idle
  lent := h.lent
  whereabouts := by
    apply h.range'_succ.trans
    rw [← List.append_assoc]
    exact (List.perm_append_singleton _ _).symm
  counted := h.counted
  handed_le := fun n hn => Nat.le_succ_of_le (h.handed_le n hn)

/-- A slot is made for the next connection. -/
theorem push {made : Option Connection} {handed' : List Nat} (h : s.Custody gone handed)
    (hopen : s.pool.closed = false) (now : Nat)
    (hidle : ∀ c, made = some c → c.number = s.made + 1) (hlent : ∀ l ∈ lent, l.2 = l.1)
    (hwhere : ((s.made + 1) :: (allIdle s.pool.slots ++ s.lent.map Prod.snd ++ gone)).Perm
      (allIdle (s.pool.push now made).slots ++ lent.map Prod.snd ++ gone))
    (hcount : handed'.count (s.made + 1) = if made.isNone then 1 else 0)
    (hothers : ∀ n, n ≠ s.made + 1 → handed'.count n = handed.count n) :
    Custody ⟨s.pool.push now made, s.made + 1, lent⟩ gone handed' := by
  have hnext := h.numbered hopen
  refine ⟨h.inOrder.push rfl, fun _ => congrArg (· + 1) hnext, ?_, hlent,
    h.range'_succ.trans hwhere, ?_, ?_⟩
  · intro x hx c hc
    rcases List.mem_append.mp hx with hx | hx
    · exact h.idle x hx c hc
    · rw [List.mem_singleton.mp hx] at hc ⊢
      exact (hidle c hc).trans hnext.symm
  · intro x hx
    rcases List.mem_append.mp hx with hx | hx
    · have hlt := h.inOrder.below x hx
      rw [hothers x.id (by omega)]
      exact h.counted x hx
    · rw [List.mem_singleton.mp hx, hnext]
      exact hcount.symm
  · intro n hn
    by_cases hnew : n = s.made + 1
    · exact Nat.le_of_eq hnew
    · have hmem : n ∈ handed := by
        rw [← List.count_pos_iff, ← hothers n hnew]
        exact List.count_pos_iff.mpr hn
      exact Nat.le_succ_of_le (h.handed_le n hmem)

theorem openLent (h : s.Custody gone handed) (hopen : s.pool.closed = false) (now : Nat) :
    Custody ⟨s.pool.push now none, s.made + 1, (s.pool.nextId, s.made + 1) :: s.lent⟩ gone
      (handed ++ [s.made + 1]) := by
  refine h.push hopen now (fun c hc => nomatch hc)
    (List.forall_mem_cons.mpr ⟨(h.numbered hopen).symm, h.lent⟩) ?_ ?_ ?_
  · have hslots : allIdle (s.pool.push now none).slots = allIdle s.pool.slots := by
      rw [Pool.push, allIdle_of_none rfl, List.append_nil]
    rw [hslots]
    exact List.perm_middle.symm.append_right gone
  · rw [List.count_append, h.count_next, List.count_singleton_self]
    rfl
  · intro n hn
    rw [List.count_append, List.count_singleton, if_neg (by simpa using Ne.symm hn)]
    rfl

theorem openIdle (h : s.Custody gone handed) (hopen : s.pool.closed = false) (now : Nat)
    (tag : String) :
    Custody ⟨s.pool.push now (some ⟨s.made + 1, tag⟩), s.made + 1, s.lent⟩ gone handed := by
  refine h.push hopen now (fun c hc => ?_) h.lent ?_ h.count_next (fun _ _ => rfl)
  · rw [← Option.some.inj hc]
  · have hslots : (allIdle (s.pool.push now (some ⟨s.made + 1, tag⟩)).slots).Perm
        ((s.made + 1) :: allIdle s.pool.slots) := by
      refine List.Perm.trans (allIdle_of_some rfl) ?_
      rw [List.append_nil]
    exact ((hslots.append_right _).append_right _).symm

/-- Some connections are opened and stay idle. -/
theorem openAll {conns : List Connection} (h : s.Custody gone handed)
    (hopen : s.pool.closed = false) (now : Nat)
    (hconns : conns.map Connection.number = List.range' (s.made + 1) conns.length) :
    Custody ⟨conns.foldl (fun p conn => p.push now (some conn)) s.pool,
      s.made + conns.length, s.lent⟩ gone handed := by
  induction conns generalizing s with
  | nil => exact h
  | cons conn conns ih =>
    rw [List.map_cons, List.length_cons, List.range'_succ, List.cons.injEq] at hconns
    obtain ⟨hnumber, hconns⟩ := hconns
    have hfirst := h.openIdle hopen now conn.tag
    rw [← hnumber] at hfirst
    have hrest := ih hfirst hopen (hnumber ▸ hconns)
    rw [List.length_cons, Nat.add_comm conns.length, ← Nat.add_assoc, ← hnumber]
    exact hrest

/-! ### New pools -/

theorem empty (config : PoolConfig) : Custody ⟨.empty config, 0, []⟩ [] [] where
  inOrder := ⟨List.Pairwise.nil, fun _ hx => (nomatch hx)⟩
  numbered := fun _ => rfl
  idle := fun _ hx => (nomatch hx)
  lent := fun _ hl => (nomatch hl)
  whereabouts := List.Perm.refl _
  counted := fun _ hx => (nomatch hx)
  handed_le := fun _ hn => (nomatch hn)

/-- A pool that was not set up has closed what was opened for it. -/
theorem abandoned (config : PoolConfig) (made : Nat) :
    Custody ⟨(Pool.empty config).close, made, []⟩ (List.range' 1 made) [] where
  inOrder := ⟨List.Pairwise.nil, fun _ hx => (nomatch hx)⟩
  numbered := fun hopen => Bool.noConfusion hopen
  idle := fun _ hx => (nomatch hx)
  lent := fun _ hl => (nomatch hl)
  whereabouts := List.Perm.refl _
  counted := fun _ hx => (nomatch hx)
  handed_le := fun _ hn => (nomatch hn)

end Custody

/-- **Custody is kept.** What is closed is gone, and what is handed out is counted. -/
theorem Change.custody {closed lent : List Nat} (hchange : Change s closed lent s')
    (h : s.Custody gone handed) : s'.Custody (gone ++ closed) (handed ++ lent) := by
  -- What has gone and was handed out before the first of two changes is more before the second.
  induction hchange generalizing gone handed with
  | keep hslots hnext hclosed hmade hlent =>
    rw [List.append_nil, List.append_nil]
    exact h.keep hslots hnext hclosed hmade hlent
  | prune s healthy =>
    rw [List.append_nil]
    exact h.prune healthy
  | lend hslots hconn now =>
    rw [List.append_nil]
    exact h.lend hslots hconn now
  | openLent s hopen now =>
    rw [List.append_nil]
    exact h.openLent hopen now
  | openIdle s hopen now tag =>
    rw [List.append_nil, List.append_nil]
    exact h.openIdle hopen now tag
  | refuse s hclosed =>
    rw [List.append_nil]
    exact h.refuse hclosed
  | takeBack hslots hconn hlent now =>
    rw [List.append_nil, List.append_nil]
    exact h.takeBack hslots hconn hlent now
  | free hslots hconn hlent =>
    rw [List.append_nil]
    exact h.free hslots hconn hlent
  | lapse hclosed hlent =>
    rw [List.append_nil]
    exact h.lapse hlent
  | close s =>
    rw [List.append_nil]
    exact h.close
  | trans _ _ ih ih' =>
    rw [← List.append_assoc, ← List.append_assoc]
    exact ih' (ih h)

/-! ## Numbers are used once -/

end Stock

/-- A pool has gone on: of the slots that have a number given out before, each was there before. -/
structure Pool.Follows (p p' : Pool) : Prop where
  next_le : p.nextId ≤ p'.nextId
  same : ∀ x' ∈ p'.slots, x'.id < p.nextId →
    ∃ x ∈ p.slots, x.id = x'.id ∧ x.createdAt = x'.createdAt

namespace Pool.Follows

variable {p p' p'' : Pool}

theorem refl (p : Pool) : Follows p p := ⟨Nat.le_refl _, fun x hx _ => ⟨x, hx, rfl, rfl⟩⟩

theorem trans (h : Follows p p') (h' : Follows p' p'') : Follows p p'' := by
  refine ⟨Nat.le_trans h.next_le h'.next_le, fun x'' hx'' hlt => ?_⟩
  obtain ⟨x', hx', hid', hat'⟩ := h'.same x'' hx'' (Nat.lt_of_lt_of_le hlt h.next_le)
  obtain ⟨x, hx, hid, hat⟩ := h.same x' hx' (hid' ▸ hlt)
  exact ⟨x, hx, hid.trans hid', hat.trans hat'⟩

/-- No slot is made. -/
theorem of_slots (hnext : p'.nextId = p.nextId)
    (h : ∀ x' ∈ p'.slots, ∃ x ∈ p.slots, x.id = x'.id ∧ x.createdAt = x'.createdAt) :
    Follows p p' :=
  ⟨Nat.le_of_eq hnext.symm, fun x' hx' _ => h x' hx'⟩

theorem of_subset (hnext : p'.nextId = p.nextId) (h : ∀ x ∈ p'.slots, x ∈ p.slots) :
    Follows p p' :=
  of_slots hnext fun x hx => ⟨x, h x hx, rfl, rfl⟩

theorem replace {front back : List Slot} {x x' : Slot} (hslots : p.slots = front ++ x :: back)
    (hid : x.id = x'.id) (hat : x.createdAt = x'.createdAt) :
    Follows p { p with slots := front ++ x' :: back } := by
  refine of_slots rfl fun y hy => ?_
  rw [hslots]
  rcases List.mem_append.mp hy with hy | hy
  · exact ⟨y, List.mem_append_left _ hy, rfl, rfl⟩
  · rcases List.mem_cons.mp hy with rfl | hy
    · exact ⟨x, List.mem_append_right _ List.mem_cons_self, hid, hat⟩
    · exact ⟨y, List.mem_append_right _ (List.mem_cons_of_mem _ hy), rfl, rfl⟩

theorem push (p : Pool) (now : Nat) (conn : Option Connection) : Follows p (p.push now conn) := by
  refine ⟨Nat.le_succ _, fun x hx hlt => ?_⟩
  rcases List.mem_append.mp hx with hx | hx
  · exact ⟨x, hx, rfl, rfl⟩
  · rw [List.mem_singleton.mp hx] at hlt
    exact absurd hlt (Nat.lt_irrefl _)

end Pool.Follows

namespace Stock

/-- **No number of a slot is used twice.** -/
theorem Change.follows {s s' : Stock} {closed handed : List Nat}
    (h : Change s closed handed s') : s.pool.Follows s'.pool := by
  induction h with
  | keep hslots hnext _ _ _ => exact .of_subset hnext fun x hx => hslots ▸ hx
  | prune s healthy => exact .of_subset rfl fun x hx => (List.mem_filter.mp hx).1
  | lend hslots _ now => exact .replace hslots rfl rfl
  | openLent s _ now => exact .push s.pool now none
  | openIdle s _ now tag => exact .push s.pool now _
  | refuse s _ => exact .refl s.pool
  | takeBack hslots _ _ now => exact .replace hslots rfl rfl
  | free hslots _ _ =>
    refine .of_subset rfl fun x hx => ?_
    rw [hslots]
    exact ((List.sublist_cons_self _ _).append_left _).subset hx
  | lapse _ _ => exact .refl _
  | close s => exact .of_subset rfl fun x hx => nomatch hx
  | trans _ _ ih ih' => exact ih.trans ih'

end Stock

/-! ## The operations of a pool -/

/-- The number of the connection that a dial has opened for a pool that is closed by then. -/
def Member.refused (m : Member) : DialOutcome → List Nat
  | .opened _ => if m.pool.closed then [m.dialer.made + 1] else []
  | .failed _ | .timedOut => []

namespace Pool

variable {p : Pool} {id owed : Nat} {lent : List Nat}

/-- What an open pool has lent has a slot in use, and no other slot has its number. -/
theorem Accounts.exists_lent (h : p.Accounts (id :: lent) owed) (hopen : p.closed = false) :
    ∃ front x back, p.slots = front ++ x :: back ∧ x.id = id ∧ x.conn = none ∧
      ∀ y ∈ front ++ back, y.id ≠ id := by
  have hmem : id ∈ p.lentIds := (h.lent_open hopen).mem_iff.mp List.mem_cons_self
  obtain ⟨x, hx, rfl⟩ := List.mem_map.mp hmem
  obtain ⟨hx, huse⟩ := List.mem_filter.mp hx
  obtain ⟨front, back, hslots⟩ := List.append_of_mem hx
  exact ⟨front, x, back, hslots, rfl, Option.isNone_iff_eq_none.mp huse, h.inOrder.id_ne hslots⟩

variable {front back : List Slot} {x : Slot}

theorem putBack_eq (hslots : p.slots = front ++ x :: back) (hconn : x.conn = none)
    (hothers : ∀ y ∈ front ++ back, y.id ≠ x.id) (now : Nat) (conn : Connection) :
    p.putBack now x.id conn =
      { p with slots := front ++ { x with conn := some conn, lastUsedAt := now } :: back } := by
  have hstay (part : List Slot) (hpart : ∀ y ∈ part, y ∈ front ++ back) :
      (part.map fun y => if y.id = x.id && y.inUse then
        { y with conn := some conn, lastUsedAt := now } else y) = part := by
    refine (List.map_congr_left fun y hy => ?_).trans (List.map_id part)
    simp [hothers y (hpart y hy)]
  unfold putBack
  rw [hslots, List.map_append, List.map_cons, hstay front fun y => List.mem_append_left _,
    hstay back fun y => List.mem_append_right _]
  simp [Slot.inUse, hconn]

theorem free_eq (hslots : p.slots = front ++ x :: back) (hconn : x.conn = none)
    (hothers : ∀ y ∈ front ++ back, y.id ≠ x.id) :
    p.free x.id = { p with slots := front ++ back } := by
  have hstay : (front ++ back).filter (fun y => !(y.id = x.id && y.inUse)) = front ++ back := by
    apply List.filter_eq_self.mpr
    intro y hy
    simp [hothers y hy]
  unfold free
  rw [hslots, List.filter_append, List.filter_cons_of_neg (by simp [Slot.inUse, hconn]),
    ← List.filter_append, hstay]

end Pool

namespace Stock.Change

variable {s s' s'' : Stock} {closed handed : List Nat}

/-- The books are changed otherwise, too. -/
theorem books (h : Change s closed handed s') (hslots : s''.pool.slots = s'.pool.slots)
    (hnext : s''.pool.nextId = s'.pool.nextId) (hclosed : s''.pool.closed = s'.pool.closed)
    (hmade : s''.made = s'.made) (hlent : s'.lent.Perm s''.lent) : Change s closed handed s'' := by
  have hboth := h.trans (.keep hslots hnext hclosed hmade hlent)
  rwa [List.append_nil, List.append_nil] at hboth

theorem checkout (hnone : s.pool.closed = true → s.pool.slots = []) (now : Nat)
    (healthy : Connection → Bool) :
    match s.pool.checkout now healthy with
    | (.ok (.idle id conn), p) =>
      Change s (idleNumbers (fun c => !healthy c) s.pool.slots) [conn.number]
        ⟨p, s.made, (id, conn.number) :: s.lent⟩
    | (_, p) =>
      Change s (idleNumbers (fun c => !healthy c) s.pool.slots) [] { s with pool := p } := by
  unfold Pool.checkout
  cases hclosed : s.pool.closed with
  | true =>
    rw [if_pos rfl, hnone hclosed]
    exact .keep rfl rfl rfl rfl (List.Perm.refl _)
  | false =>
    have hpruned := Change.prune s healthy
    simp only [Bool.false_eq_true, if_false]
    cases htake : Pool.takeIdle now (s.pool.prune healthy).slots with
    | some taken =>
      obtain ⟨id, conn, slots⟩ := taken
      obtain ⟨front, x, back, hslots, -, rfl, hconn, rfl⟩ := Pool.takeIdle_eq_some htake
      have hlent := hpruned.trans (.lend hslots hconn now)
      rw [List.append_nil] at hlent
      exact hlent.books rfl rfl rfl rfl (List.Perm.refl _)
    | none =>
      by_cases hroom : { s.pool.prune healthy with requests := s.pool.requests + 1 }.occupied <
          (s.pool.prune healthy).config.maxSize
      · simp only [if_pos hroom]
        exact hpruned.books rfl rfl rfl rfl (List.Perm.refl _)
      · simp only [if_neg hroom]
        exact hpruned.books rfl rfl rfl rfl (List.Perm.refl _)

theorem beginSweep (hnone : s.pool.closed = true → s.pool.slots = [])
    (healthy : Connection → Bool) :
    Change s (idleNumbers (fun c => !healthy c) s.pool.slots) []
      { s with pool := (s.pool.beginSweep healthy).2 } := by
  unfold Pool.beginSweep
  cases hclosed : s.pool.closed with
  | true =>
    rw [if_pos rfl, hnone hclosed]
    exact .keep rfl rfl rfl rfl (List.Perm.refl _)
  | false => exact (Change.prune s healthy).books rfl rfl rfl rfl (List.Perm.refl _)

/-- The end of a checkout's dial. -/
theorem endCheckout (m : Member) (lent : List (Nat × Nat)) (now : Nat) (outcome : DialOutcome) :
    match m.pool.endCheckout now (m.dialed outcome) with
    | (.ok (id, conn), p) =>
      Change ⟨m.pool, m.dialer.made, lent⟩ (m.refused outcome) [conn.number]
        ⟨p, (m.concluded outcome).dialer.made, (id, conn.number) :: lent⟩
    | (.error _, p) =>
      Change ⟨m.pool, m.dialer.made, lent⟩ (m.refused outcome) []
        ⟨p, (m.concluded outcome).dialer.made, lent⟩ := by
  unfold Pool.endCheckout Member.refused Member.dialed Member.concluded
  cases outcome with
  | opened sick =>
    simp only [Dialer.conclude]
    cases hclosed : m.pool.closed with
    | true =>
      have hrefused : (m.pool.unreserve 1).closed = true := hclosed
      simp only [hrefused, if_true]
      exact (refuse ⟨m.pool, m.dialer.made, lent⟩ hclosed).books rfl rfl rfl rfl
        (List.Perm.refl _)
    | false =>
      have hopen : (m.pool.unreserve 1).closed = false := hclosed
      simp only [hopen, Bool.false_eq_true, if_false]
      exact (openLent ⟨m.pool, m.dialer.made, lent⟩ hclosed now).books rfl rfl rfl rfl
        (List.Perm.refl _)
  | failed cause => exact .keep rfl rfl rfl rfl (List.Perm.refl _)
  | timedOut => exact .keep rfl rfl rfl rfl (List.Perm.refl _)

/-- The end of a sweep's dial. -/
theorem endSweepDial (m : Member) (lent : List (Nat × Nat)) (now : Nat) (outcome : DialOutcome) :
    Change ⟨m.pool, m.dialer.made, lent⟩ (m.refused outcome) []
      ⟨(m.pool.endSweepDial now (m.dialed outcome)).2, (m.concluded outcome).dialer.made,
        lent⟩ := by
  unfold Pool.endSweepDial Member.refused Member.dialed Member.concluded
  cases outcome with
  | opened sick =>
    simp only [Dialer.conclude]
    cases hclosed : m.pool.closed with
    | true =>
      have hrefused : (m.pool.unreserve 1).closed = true := hclosed
      simp only [hrefused, if_true]
      exact (refuse ⟨m.pool, m.dialer.made, lent⟩ hclosed).books rfl rfl rfl rfl
        (List.Perm.refl _)
    | false =>
      have hopen : (m.pool.unreserve 1).closed = false := hclosed
      simp only [hopen, Bool.false_eq_true, if_false]
      exact (openIdle ⟨m.pool, m.dialer.made, lent⟩ hclosed now "").books rfl rfl rfl rfl
        (List.Perm.refl _)
  | failed cause => exact .keep rfl rfl rfl rfl (List.Perm.refl _)
  | timedOut => exact .keep rfl rfl rfl rfl (List.Perm.refl _)

variable {id number owed : Nat} {conn : Connection} {lent : List (Nat × Nat)} {slots : List Nat}

/-- A handle comes back. -/
theorem putBack (hacc : s.pool.Accounts (id :: slots) owed)
    (hlent : s.lent.Perm ((id, conn.number) :: lent)) (now : Nat) :
    Change s (if s.pool.closed then [conn.number] else []) []
      ⟨s.pool.putBack now id conn, s.made, lent⟩ := by
  cases hclosed : s.pool.closed with
  | true =>
    refine (lapse hclosed hlent).books ?_ rfl rfl rfl (List.Perm.refl _)
    show s.pool.slots.map _ = s.pool.slots
    rw [hacc.no_slots hclosed, List.map_nil]
  | false =>
    obtain ⟨front, x, back, hslots, rfl, hconn, hothers⟩ := hacc.exists_lent hclosed
    rw [Pool.putBack_eq hslots hconn hothers]
    exact takeBack hslots hconn hlent now

/-- The connection of a handle is closed. -/
theorem freed (hacc : s.pool.Accounts (id :: slots) owed)
    (hlent : s.lent.Perm ((id, number) :: lent)) :
    Change s [number] [] ⟨s.pool.free id, s.made, lent⟩ := by
  cases hclosed : s.pool.closed with
  | true =>
    refine (lapse hclosed hlent).books ?_ rfl rfl rfl (List.Perm.refl _)
    show s.pool.slots.filter _ = s.pool.slots
    rw [hacc.no_slots hclosed, List.filter_nil]
  | false =>
    obtain ⟨front, x, back, hslots, rfl, hconn, hothers⟩ := hacc.exists_lent hclosed
    rw [Pool.free_eq hslots hconn hothers]
    exact free hslots hconn hlent

end Stock.Change

end BoundedResources
