import BoundedResources.Proofs.Pool.Holders
import BoundedResources.Proofs.Pool.Passages

/-!
# What turns do to connections

**`Fleet.Sound.passes_turn`**: of the connections that there are, a turn hands out and closes just
those that it reports. The turn is followed through its steps (`Fleet.Passes`); a handle that is in
nobody's hands between two of them counts as loose. That a pool has what it lends again is known
from its books (`Fleet.Sound`), and that the handle a call has ended with takes the place of no
other, from the numbers of calls (`Fleet.Apart`).
-/

set_option autoImplicit false

namespace BoundedResources

namespace Fleet

/-! ## Handles are given up -/

variable {f : Fleet} {loose : List Handle} {spare : List Nat} {i : Nat} {m : Member}
variable {holder : Holder} {x : Handle}

theorem isOpen_eq (hm : f.members[i]? = some m) : f.isOpen i = !m.pool.closed := by
  rw [isOpen, hm]
  rfl

/-- The pool of a loose handle accounts for its slot. -/
theorem Sound.exists_issuer (h : f.Sound (x :: loose) spare) :
    ∃ m, f.members[x.pool]? = some m ∧
      ∃ slots owed, m.pool.Accounts (x.slot :: slots) owed := by
  have hlt := h.issuers x (List.mem_append_right _ List.mem_cons_self)
  obtain ⟨m, hm⟩ : ∃ m, f.members[x.pool]? = some m := ⟨_, List.getElem?_eq_getElem hlt⟩
  have hacc := h.accounts x.pool m hm
  rw [lent, issuedBy_append, issuedBy_cons_self] at hacc
  exact ⟨m, hm, _, _, hacc.perm List.perm_middle⟩

theorem stock_pool (f : Fleet) (loose : List Handle) (i : Nat) (m : Member) :
    (f.stock loose i m).pool = m.pool := rfl

/-- The stock of a pool counts a loose handle as lent. -/
theorem stock_loose (f : Fleet) (x : Handle) (loose : List Handle) (m : Member) :
    (f.stock (x :: loose) x.pool m).lent.Perm
      ((x.slot, x.conn.number) :: (f.stock loose x.pool m).lent) := by
  show (holdings x.pool (_ ++ x :: loose)).Perm (_ :: holdings x.pool (_ ++ loose))
  rw [holdings_append, holdings_append, holdings_cons_self]
  exact List.perm_middle

namespace Sound

/-- A loose handle that is put back into its pool is closed if the pool is. -/
theorem passes_putBack (h : f.Sound (x :: loose) spare) (now : Nat) :
    Passes f (x :: loose) (f.lapses x true) (f.putBack now x) loose := by
  obtain ⟨m, hm, slots, owed, hacc⟩ := h.exists_issuer
  have hchange := Stock.Change.putBack (s := f.stock (x :: loose) x.pool m) hacc
    (f.stock_loose x loose m) now
  have hset := Passes.setMember hm (m.withPool (m.pool.putBack now x.slot x.conn))
    (fun j hj => (holdings_cons_of_ne (Ne.symm hj) loose).symm) hchange
  have hlog : f.lapses x true =
      (if m.pool.closed then [x.conn.number] else []).map (.closed x.pool) ++ [] := by
    rw [lapses, isOpen_eq hm, List.append_nil]
    cases m.pool.closed <;> rfl
  rw [hlog, Fleet.putBack, modifyPool_eq hm]
  exact hset

/-- Closing a loose handle closes its connection, and no other. -/
theorem passes_closeHandle (h : f.Sound (x :: loose) spare) :
    Passes f (x :: loose) (f.lapses x false) (f.closeHandle x) loose := by
  obtain ⟨m, hm, slots, owed, hacc⟩ := h.exists_issuer
  have hchange := Stock.Change.freed (s := f.stock (x :: loose) x.pool m) hacc
    (f.stock_loose x loose m)
  have hset := Passes.setMember hm (m.withPool (m.pool.free x.slot))
    (fun j hj => (holdings_cons_of_ne (Ne.symm hj) loose).symm) hchange
  rw [Fleet.closeHandle, modifyPool_eq hm]
  exact hset

theorem passes_letGo (h : f.Sound (x :: loose) spare) (now : Nat) :
    Passes f (x :: loose) (f.lapses x x.returns) (f.letGo now x) loose := by
  unfold Fleet.letGo
  cases x.returns with
  | true => exact h.passes_putBack now
  | false => exact h.passes_closeHandle

/-- A handle that is taken from its holder is loose; nothing is opened or closed by that. -/
theorem passes_take (h : f.Sound loose spare) (hx : f.handleOf? holder = some x) :
    Passes f loose [] (f.takeHandle holder) (x :: loose) := by
  refine .of_perm rfl ?_
  have hperm := ((h.handles_perm hx).map Prod.snd).append_right loose
  exact hperm.trans List.perm_middle.symm

/-- A loose handle is given to somebody, besides all that he may have. -/
theorem passes_give (f : Fleet) (holder : Holder) (x : Handle) (loose : List Handle) :
    Passes f (x :: loose) [] { f with handles := f.handles ++ [(holder, x)] } loose := by
  refine .of_perm rfl ?_
  rw [List.map_append, List.append_assoc]
  exact List.Perm.refl _

/-- Nothing is given up by those who have nothing. -/
theorem passes_hold_none (hnone : f.handleOf? holder = none) (now : Nat) (x : Handle)
    (loose : List Handle) : Passes f (x :: loose) [] (f.hold now holder x) loose := by
  unfold Fleet.hold
  rw [hnone, takeHandle_of_none hnone]
  exact passes_give f holder x loose

/-- Whoever has a handle and gets another one gives up the first. -/
theorem passes_hold (h : f.Sound (x :: loose) spare) (now : Nat) (holder : Holder) :
    Passes f (x :: loose) (f.givesUp holder) (f.hold now holder x) loose := by
  have hfree := not_mem_takeHandle f holder
  unfold givesUp
  cases hold : f.handleOf? holder with
  | none => exact passes_hold_none hold now x loose
  | some old =>
    -- The new handle is held first, and the old one is loose for a moment.
    have hboth := (h.take hold).loose_perm (List.Perm.swap x old loose)
    have hswap : Passes f (x :: loose) [] (f.takeHandle holder) (x :: old :: loose) :=
      (h.passes_take hold).trans (.of_perm rfl ((List.Perm.swap x old loose).append_left _))
    have hgive := hswap.trans (passes_give _ holder x (old :: loose))
    unfold Fleet.hold
    rw [hold]
    exact hgive.trans ((hboth.give hfree).passes_letGo now)

/-- Dropping a handle lets go of what its holder had. -/
theorem passes_drop (h : f.Sound loose spare) (now : Nat) (holder : Holder) :
    Passes f loose (f.givesUp holder) (f.drop now holder) loose := by
  unfold Fleet.drop givesUp
  cases hx : f.handleOf? holder with
  | none => exact .refl f loose
  | some x => exact (h.passes_take hx).trans ((h.take hx).passes_letGo now)

/-- Delivering moves a handle from a call to a name, and the name gives up what it had. -/
theorem passes_deliver (h : f.Sound loose spare) (now id : Nat) (name : String) :
    Passes f loose (f.delivers id name) (f.deliver now id name) loose := by
  unfold Fleet.deliver delivers
  cases hx : f.handleOf? (.call id) with
  | none => exact .refl f loose
  | some x =>
    have hsame : (f.takeHandle (.call id)).givesUp (.name name) = f.givesUp (.name name) := by
      unfold givesUp
      rw [handleOf?_takeHandle f (by simp)]
      rfl
    exact hsame ▸ (h.passes_take hx).trans ((h.take hx).passes_hold now (.name name))

/-- A handle that is put into a pool goes back there if it is the pool's own, and is let go if it
belongs to another one. -/
theorem passes_put (h : f.Sound loose spare) (now i : Nat) (holder : Holder) :
    Passes f loose (f.puts i holder) (f.put now i holder) loose := by
  unfold Fleet.put puts
  cases hx : f.handleOf? holder with
  | none => exact .refl f loose
  | some x =>
    simp only
    by_cases hown : x.pool = i
    · have hback : (x.returns || x.pool == i) = true := by simp [hown]
      rw [if_pos hown, hback]
      exact (h.passes_take hx).trans ((h.take hx).passes_putBack now)
    · have hback : (x.returns || x.pool == i) = x.returns := by simp [hown]
      rw [if_neg hown, hback]
      exact (h.passes_take hx).trans ((h.take hx).passes_letGo now)

end Sound

/-! ## Calls -/

theorem prunes_eq (hm : f.members[i]? = some m) :
    f.prunes i = (idleNumbers (fun c => !m.healthy c) m.pool.slots).map (.closed i) := by
  rw [prunes, closesIdle, hm]
  simp

theorem drains_eq (hm : f.members[i]? = some m) :
    f.drains i = (allIdle m.pool.slots).map (.closed i) := by
  rw [drains, closesIdle, hm]
  simp

theorem prunes_of_none (hm : f.members[i]? = none) : f.prunes i = [] := by
  rw [prunes, closesIdle, hm]
  rfl

/-- What is handed out is the connection in the handle. -/
theorem handsOut_hold (f : Fleet) (now id : Nat) (x : Handle) :
    handsOut id (.checkedOut (.ok ()), f.hold now (.call id) x) =
      [x.conn.number].map (.handedOut x.pool) := by
  unfold handsOut
  simp only [handleOf?_hold]

/-- Beginning a dial opens nothing yet, so the passages are those of what came before it. -/
theorem Passes.beginDial {closed handed : List Nat} (hm : f.members[i]? = some m) (m' : Member)
    (purpose : Purpose)
    (hchange : Stock.Change (f.stock loose i m) closed handed (f.stock loose i m'))
    (now id : Nat) :
    Passes f loose (closed.map (.closed i) ++ handed.map (.handedOut i))
      (f.beginDial now id i m' purpose) loose := by
  have hbegun : Stock.Change (f.stock loose i m) closed handed
      (f.stock loose i { m' with dialer := m'.dialer.begin.2 }) :=
    hchange.books rfl rfl rfl m'.dialer.made_begin (List.Perm.refl _)
  exact (Passes.setMember hm _ (fun _ _ => rfl) hbegun).andQuiet (.of_perm rfl (List.Perm.refl _))

namespace Sound

/-- A checkout closes the idle connections that are sick, and hands one out if one is left. -/
theorem passes_beginCheckout (h : f.Sound [] []) (ha : f.Apart) (now i : Nat) (returns : Bool) :
    Passes f [] (f.prunes i ++ handsOut f.nextCall (f.beginCheckout now i returns))
      (f.beginCheckout now i returns).2 [] := by
  have hdraw : Passes f [] [] f.drawNext [] := .of_perm rfl (List.Perm.refl _)
  have hchecked (m : Member) (hm : f.members[i]? = some m) :=
    Stock.Change.checkout (s := f.stock [] i m) (h.accounts i m hm).no_slots now m.healthy
  have hbegins := f.beginCheckout_cases now i returns
  generalize f.beginCheckout now i returns = begun at hbegins ⊢
  cases hbegins with
  | missing hm =>
    rw [prunes_of_none hm]
    exact hdraw
  | @refused m pool e hm hpool =>
    have hchange := hchecked m hm
    rw [stock_pool, hpool] at hchange
    have hset := Passes.setMember (f := f.drawNext) hm (m.withPool pool) (fun _ _ => rfl) hchange
    rw [prunes_eq hm]
    exact hdraw.trans hset
  | @lent m pool slot conn hm hpool =>
    have hchange := hchecked m hm
    rw [stock_pool, hpool] at hchange
    have hloose : Stock.Change (f.stock [] i m)
        (idleNumbers (fun c => !m.healthy c) m.pool.slots) [conn.number]
        (f.stock [⟨i, slot, conn, returns⟩] i (m.withPool pool)) := by
      refine hchange.books rfl rfl rfl rfl ?_
      exact (f.stock_loose ⟨i, slot, conn, returns⟩ [] (m.withPool pool)).symm
    have hset := Passes.setMember (f := f.drawNext) hm (m.withPool pool)
      (fun j hj => holdings_cons_of_ne (Ne.symm hj) []) hloose
    have hnone : (f.drawNext.setMember i (m.withPool pool)).handleOf? (.call f.nextCall) = none :=
      ha.handleOf?_next
    have hgive := passes_hold_none hnone now ⟨i, slot, conn, returns⟩ []
    rw [prunes_eq hm, handsOut_hold]
    exact hdraw.trans (hset.andQuiet hgive)
  | @dials m pool hm hpool =>
    have hchange := hchecked m hm
    rw [stock_pool, hpool] at hchange
    have hbegin := Passes.beginDial (f := f.drawNext) hm (m.withPool pool) (.checkout returns)
      hchange now f.nextCall
    rw [prunes_eq hm]
    exact hdraw.trans hbegin

/-- A sweep closes the idle connections that are sick. -/
theorem passes_beginSweep (h : f.Sound [] []) (now i : Nat) (background : Bool) :
    Passes f [] (f.prunes i) (f.beginSweep now i background).2 [] := by
  have hdraw : Passes f [] [] f.drawNext [] := .of_perm rfl (List.Perm.refl _)
  have hlog (m : Member) (hm : f.members[i]? = some m) : f.prunes i =
      (idleNumbers (fun c => !m.healthy c) m.pool.slots).map (.closed i) ++ [] := by
    rw [prunes_eq hm, List.append_nil]
  have hswept (m : Member) (hm : f.members[i]? = some m) :=
    Stock.Change.beginSweep (s := f.stock [] i m) (h.accounts i m hm).no_slots m.healthy
  have hbegins := f.beginSweep_cases now i background
  generalize f.beginSweep now i background = begun at hbegins ⊢
  cases hbegins with
  | missing hm =>
    rw [prunes_of_none hm]
    exact hdraw
  | @swept m pool hm hpool =>
    have hchange := hswept m hm
    rw [stock_pool, hpool] at hchange
    have hset := Passes.setMember (f := f.drawNext) hm (m.withPool pool) (fun _ _ => rfl) hchange
    rw [hlog m hm]
    exact hdraw.trans hset
  | @dials m pool wanted hm hpool hwanted =>
    have hchange := hswept m hm
    rw [stock_pool, hpool] at hchange
    have hbegin := Passes.beginDial (f := f.drawNext) hm (m.withPool pool)
      (.sweep wanted background) hchange now f.nextCall
    rw [hlog m hm]
    exact hdraw.trans hbegin

theorem refuses_eq {id : Nat} {c : Call} (hc : f.call? id = some c)
    (hm : f.members[c.pool]? = some m) (outcome : DialOutcome) :
    f.refuses id outcome = (m.refused outcome).map (.closed c.pool) := by
  unfold refuses
  simp only [hc, hm]
  simp

/-- The end of a dial hands the connection out or leaves it idle, or closes it if the pool cannot
take it. -/
theorem passes_endDial (h : f.Sound [] []) (ha : f.Apart) (now id : Nat)
    (outcome : DialOutcome) :
    Passes f [] (f.refuses id outcome ++ handsOut id (f.endDial now id outcome))
      (f.endDial now id outcome).2 [] := by
  cases hc : f.call? id with
  | none =>
    unfold refuses
    rw [hc, endDial_of_none hc]
    exact .refl f []
  | some c =>
    obtain ⟨m, hm⟩ := h.exists_pool hc
    have hend : Passes f [] [] (f.endCall id) [] := .of_perm rfl (List.Perm.refl _)
    have hcheckout := Stock.Change.endCheckout m (f.stock [] c.pool m).lent now outcome
    have hsweep := Stock.Change.endSweepDial m (f.stock [] c.pool m).lent now outcome
    rw [refuses_eq hc hm]
    have hends := endDial_cases hc hm now outcome
    generalize f.endDial now id outcome = ended at hends ⊢
    cases hends with
    | @refused pool returns e hpurpose hpool =>
      rw [hpool] at hcheckout
      have hset := Passes.setMember (f := f.endCall id) hm ((m.concluded outcome).withPool pool)
        (fun _ _ => rfl) hcheckout
      exact hend.trans hset
    | @lent pool returns slot conn hpurpose hpool =>
      rw [hpool] at hcheckout
      have hloose : Stock.Change ((f.endCall id).stock [] c.pool m)
          (m.refused outcome) [conn.number]
          ((f.endCall id).stock [⟨c.pool, slot, conn, returns⟩] c.pool
            ((m.concluded outcome).withPool pool)) := by
        refine hcheckout.books rfl rfl rfl rfl ?_
        exact (f.stock_loose ⟨c.pool, slot, conn, returns⟩ [] m).symm
      have hset := Passes.setMember (f := f.endCall id) hm ((m.concluded outcome).withPool pool)
        (fun j hj => holdings_cons_of_ne (Ne.symm hj) []) hloose
      have hgive := passes_hold_none (f := (f.endCall id).setMember c.pool
        ((m.concluded outcome).withPool pool)) (ha.handleOf?_waiting hc) now
        ⟨c.pool, slot, conn, returns⟩ []
      rw [handsOut_hold]
      exact hend.trans (hset.andQuiet hgive)
    | @givesUp pool wanted background hpurpose hpool =>
      rw [hpool] at hsweep
      have hback : Stock.Change ((f.endCall id).stock [] c.pool m)
          (m.refused outcome) [] ((f.endCall id).stock [] c.pool
            ((m.concluded outcome).withPool (pool.unreserve (wanted - 1)))) :=
        hsweep.books rfl rfl rfl rfl (List.Perm.refl _)
      exact hend.trans (.setMember (f := f.endCall id) hm _ (fun _ _ => rfl) hback)
    | @swept pool wanted background hpurpose hpool hlast =>
      rw [hpool] at hsweep
      have hset := Passes.setMember (f := f.endCall id) hm ((m.concluded outcome).withPool pool)
        (fun _ _ => rfl) hsweep
      exact hend.trans hset
    | @dials pool wanted background hpurpose hpool hmore =>
      rw [hpool] at hsweep
      have hbegin := Passes.beginDial (f := f.endCall id) hm ((m.concluded outcome).withPool pool)
        (.sweep (wanted - 1) background) hsweep now id
      exact hend.trans hbegin

end Sound

/-! ## Pools -/

theorem Passes.tag (f : Fleet) (holder : Holder) (text : String) (loose : List Handle) :
    Passes f loose [] (f.tag holder text) loose := by
  refine quiet rfl (fun i m m' hm hm' => ?_) fun i => ?_
  · have hsame : f.members[i]? = some m' := hm'
    rw [hm, Option.some.injEq] at hsame
    subst hsame
    exact ⟨rfl, rfl, rfl, rfl⟩
  · refine List.Perm.of_eq (holdings_congr i ?_)
    rw [Fleet.tag, List.map_append, List.map_append, List.map_map, List.map_map, List.map_map]
    refine congrArg (· ++ _) (List.map_congr_left fun p _ => ?_)
    simp only [Function.comp_apply]
    split <;> rfl

/-- What leaves the slots and numbers of a pool alone, and whether it is closed, moves no
connection. -/
theorem Passes.modifyMember {change : Member → Member} (i : Nat)
    (hsame : ∀ m, (change m).pool.slots = m.pool.slots ∧
      (change m).pool.nextId = m.pool.nextId ∧ (change m).pool.closed = m.pool.closed ∧
        (change m).dialer.made = m.dialer.made) :
    Passes f loose [] { f with members := f.members.modify i change } loose := by
  refine quiet (List.length_modify _ _ _) (fun j m m' hm hm' => ?_)
    fun _ => List.Perm.refl _
  rw [List.getElem?_modify, hm] at hm'
  obtain rfl := Option.some.inj hm'
  split
  · exact hsame m
  · exact ⟨rfl, rfl, rfl, rfl⟩

theorem Passes.cancel (f : Fleet) (id : Nat) : Passes f [] [] (f.cancel id) [] := by
  have hend : Passes f [] [] (f.endCall id) [] := .of_perm rfl (List.Perm.refl _)
  unfold Fleet.cancel
  cases hc : f.call? id with
  | none => exact .refl f []
  | some c =>
    simp only
    split
    · exact hend.trans (.modifyMember c.pool fun _ => ⟨rfl, rfl, rfl, rfl⟩)
    · exact hend

/-- Closing a pool closes all its idle connections. -/
theorem Passes.close (f : Fleet) (i : Nat) : Passes f [] (f.drains i) (f.close i) [] := by
  unfold Fleet.close
  cases hm : f.members[i]? with
  | none =>
    rw [List.modify_eq_self (List.getElem?_eq_none_iff.mp hm), drains, closesIdle, hm]
    exact .refl f []
  | some m =>
    rw [drains_eq hm, Sound.modifyMember_eq hm]
    have hset := Passes.setMember hm { m with pool := m.pool.close, ticker := none }
      (fun _ _ => rfl) (Stock.Change.close (f.stock [] i m))
    rwa [List.map_nil, List.append_nil] at hset

/-- Of what several pools report, only the report of a pool itself is about its connections. -/
theorem closedBy_range (i : Nat) {n : Nat} {logs : Nat → List Passage}
    (hothers : ∀ j, j ≠ i → closedBy i (logs j) = []) :
    closedBy i ((List.range n).flatMap logs) = if i < n then closedBy i (logs i) else [] := by
  induction n with
  | zero => rfl
  | succ n ih =>
    rw [List.range_succ, List.flatMap_append, closedBy_append, ih, List.flatMap_singleton]
    by_cases hi : i = n
    · subst hi
      rw [if_neg (Nat.lt_irrefl i), if_pos (Nat.lt_succ_self i), List.nil_append]
    · rw [hothers n (Ne.symm hi), List.append_nil]
      have hlt : i < n ↔ i < n + 1 := by omega
      simp only [hlt]

/-- The pools that nobody uses any more are closed, and their idle connections with them. -/
theorem Sound.passes_reap (h : f.Sound [] []) (now : Nat) :
    Passes f [] (f.passages now .reap) f.reap [] := by
  have hlog : ∀ p ∈ f.passages now .reap,
      ∃ j < f.members.length, ∃ n, p = .closed j n := by
    intro p hp
    obtain ⟨j, hj, hp⟩ := List.mem_flatMap.mp hp
    split at hp
    · cases hp
    · obtain ⟨n, -, rfl⟩ := List.mem_map.mp hp
      exact ⟨j, List.mem_range.mp hj, n, rfl⟩
  have hhanded (i : Nat) : handedOutBy i (f.passages now .reap) = [] := by
    refine List.filterMap_eq_nil_iff.mpr fun p hp => ?_
    obtain ⟨j, -, n, rfl⟩ := hlog p hp
    rfl
  refine .of_length_eq List.length_mapIdx (fun i m m' hm hm' => ?_) fun p hp => ?_
  · have hlt : i < f.members.length := (List.getElem?_eq_some_iff.mp hm).1
    have hmapped : f.reap.members[i]? = some (f.reapMember i m) := by
      show (f.members.mapIdx f.reapMember)[i]? = _
      rw [List.getElem?_mapIdx, hm]
      rfl
    obtain rfl := Option.some.inj (hmapped.symm.trans hm')
    have hclosed : closedBy i (f.passages now .reap) =
        if (f.reapMember i m).pool.closed then allIdle m.pool.slots else [] := by
      have hothers (j : Nat) (hj : j ≠ i) :
          closedBy i (if f.reap.isOpen j then [] else f.drains j) = [] := by
        split
        · rfl
        · rw [drains, closesIdle, closedBy_closed, if_neg hj]
      rw [passages, closedBy_range i hothers, if_pos hlt, isOpen_eq hmapped, drains_eq hm]
      cases (f.reapMember i m).pool.closed with
      | false => rfl
      | true => exact (closedBy_closed i i _).trans (if_pos rfl)
    rw [hclosed, hhanded]
    obtain ⟨hdialer, hsame | hclose⟩ := f.reapMember_cases i m
    · -- A pool that stays as it is may be closed already, but then nothing is idle in it.
      have hnothing :
          (if (f.reapMember i m).pool.closed then allIdle m.pool.slots else []) = [] := by
        rw [hsame]
        cases hc : m.pool.closed with
        | false => rfl
        | true =>
          rw [(h.accounts i m hm).no_slots hc]
          rfl
      rw [hnothing]
      exact .keep (congrArg Pool.slots hsame) (congrArg Pool.nextId hsame)
        (congrArg Pool.closed hsame) (congrArg Dialer.made hdialer) (List.Perm.refl _)
    · have hshut : (f.reapMember i m).pool.closed = true := congrArg Pool.closed hclose
      rw [if_pos hshut]
      exact (Stock.Change.close (f.stock [] i m)).books (congrArg Pool.slots hclose)
        (congrArg Pool.nextId hclose) (congrArg Pool.closed hclose)
        (congrArg Dialer.made hdialer) (List.Perm.refl _)
  · obtain ⟨j, hj, n, rfl⟩ := hlog p hp
    exact hj

/-! ## New pools -/

/-- The connections of a new pool are numbered as they are opened. -/
theorem numbers_seed {config : PoolConfig} {n now later : Nat} {dialer dialer' : Dialer}
    {conns conns' : List Connection}
    (hseed : PoolSession.seed config n dialer now conns = (.ok conns', dialer', later))
    (hconns : conns.map Connection.number = List.range' 1 dialer.made) :
    conns'.map Connection.number = List.range' 1 dialer'.made := by
  obtain ⟨rfl, hmade⟩ := PoolSession.seed_eq_ok hseed
  have hnumbers : Connection.number ∘ Connection.untagged = id := rfl
  rw [List.map_append, hconns, List.map_map, hnumbers, List.map_id, hmade, Nat.add_comm _ 1,
    List.range'_append_1]

theorem closed_seeded (config : PoolConfig) (now : Nat) (conns : List Connection) :
    (PoolSession.seeded config now conns).closed = false :=
  PoolSession.seeded_keeps (fun _ _ _ => rfl) config now conns

/-- What has joined a fleet last is in custody. -/
theorem Sound.joined_connect (h : f.Sound [] []) (now : Nat) (config : PoolConfig)
    (script : List DialPlan) {m : Member}
    (hm : (f.connect now config script).members[f.members.length]? = some m) :
    ((f.connect now config script).stock [] f.members.length m).Custody
      (if m.pool.closed then List.range' 1 m.dialer.made else []) [] := by
  have hholdings : holdings f.members.length (f.handles.map Prod.snd ++ []) = [] := by
    rw [holdings, h.handles_of_length_le (Nat.le_refl _)]
    rfl
  obtain ⟨dialer, later, ⟨e, -, hconnect⟩ | ⟨conns, hseed, hconnect⟩⟩ :=
    f.connect_cases now config script
  · rw [hconnect] at hm ⊢
    obtain rfl : _ = m := by simpa using hm
    unfold stock
    rw [hholdings]
    exact .abandoned config.normalized dialer.made
  · rw [hconnect] at hm ⊢
    obtain rfl : _ = m := by simpa using hm
    unfold stock
    rw [hholdings]
    have hnumbers := numbers_seed hseed rfl
    have hmade : conns.length = dialer.made := by
      rw [← List.length_map Connection.number, hnumbers, List.length_range']
    have hall := (Stock.Custody.empty config.normalized).openAll rfl later (hmade ▸ hnumbers)
    rw [Nat.zero_add, hmade] at hall
    simp only [closed_seeded, Bool.false_eq_true, if_false]
    exact hall

/-- A new pool closes what it has opened if not all of its dials succeed. -/
theorem Sound.passes_connect (h : f.Sound [] []) (now : Nat) (config : PoolConfig)
    (script : List DialPlan) :
    Passes f [] (f.passages now (.connect config script)) (f.connect now config script) [] := by
  obtain ⟨new, hconnect⟩ := f.connect_eq now config script
  have hlen : (f.connect now config script).members.length = f.members.length + 1 := by
    rw [hconnect]
    exact List.length_append
  refine ⟨hlen ▸ Nat.le_succ _, fun i m m' hm hm' => ?_, fun i m' hi hm' => ?_, fun p hp => ?_⟩
  · have hlt : i < f.members.length := (List.getElem?_eq_some_iff.mp hm).1
    rw [hconnect] at hm'
    rw [List.getElem?_append_left hlt, hm, Option.some.injEq] at hm'
    subst hm'
    rw [passages, abandons, closedBy_closed, handedOutBy_closed, if_neg (Nat.ne_of_gt hlt),
      hconnect]
    exact .keep rfl rfl rfl rfl (List.Perm.refl _)
  · have hlt := (List.getElem?_eq_some_iff.mp hm').1
    obtain rfl : i = f.members.length := by omega
    rw [passages, abandons, closedBy_closed, handedOutBy_closed, if_pos rfl, hm']
    simpa using h.joined_connect now config script hm'
  · obtain ⟨n, -, rfl⟩ := List.mem_map.mp hp
    exact hlen ▸ Nat.lt_succ_self _

/-- **Of the connections that are there, a turn hands out and closes just those that it
reports.** -/
theorem Sound.passes_turn (h : f.Sound [] []) (ha : f.Apart) (now : Nat) (t : FleetTurn) :
    Passes f [] (f.passages now t) (f.turn now t) [] := by
  cases t with
  | connect config script => exact h.passes_connect now config script
  | beginCheckout i returns => exact h.passes_beginCheckout ha now i returns
  | beginSweep i background => exact h.passes_beginSweep now i background
  | endDial id outcome => exact h.passes_endDial ha now id outcome
  | cancel id => exact .cancel f id
  | openGate i => exact .of_perm rfl (List.Perm.refl _)
  | put i holder => exact h.passes_put now i holder
  | drop holder => exact h.passes_drop now holder
  | deliver id name => exact h.passes_deliver now id name
  | tag holder text => exact .tag f holder text []
  | close i => exact .close f i
  | detach i => exact .modifyMember i fun _ => ⟨rfl, rfl, rfl, rfl⟩
  | reap => exact h.passes_reap now
  | setHealth i number ok => exact .modifyMember i fun _ => ⟨rfl, rfl, rfl, rfl⟩
  | script i plans => exact .modifyMember i fun _ => ⟨rfl, rfl, rfl, rfl⟩
  | plan i ticker => exact .modifyMember i fun _ => ⟨rfl, rfl, rfl, rfl⟩

end Fleet

end BoundedResources
