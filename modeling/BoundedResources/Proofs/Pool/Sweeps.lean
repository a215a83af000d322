import BoundedResources.Proofs.Pool.Checkout
import BoundedResources.Proofs.Pool.Reservations

/-!
# What a sweep does to its pool

A sweep drops the idle connections that are not healthy, reserves as many dials as are wanting to
the minimum, and does them one after the other. While a dial is in flight anything can happen to the
pool: checkouts, other sweeps, even that it is closed. So a sweep is followed by the turns that are
its own. `Member.Prunes` says what it does when it begins; a `DialEnd` is the pool before and after
one of its dials ends, and `Sweeping` lists what these ends can be, with the reservations that the
sweep still holds.

**`Fleet.sweep_contract`** says that all sweeps that are not cancelled keep to this, whoever takes
turns in between: each reservation is turned into a connection or given back. A pool is not always
filled up to its minimum by that. The dials that others have in flight count as connections when the
sweep begins, and are still in flight when it is over (`Fleet.sweep_below_minimum`).
-/

set_option autoImplicit false

namespace BoundedResources

/-! ## Beginning -/

/-- What is wanting to the minimum when a pool has been pruned. Dials count as connections. -/
def Pool.lacks (p : Pool) (healthy : Connection → Bool) : Nat :=
  p.config.minSize - ((p.kept healthy).length + p.dialing)

/-- The pool that a sweep has pruned, with what it has reserved. -/
def Pool.stocking (p : Pool) (healthy : Connection → Bool) : Pool :=
  { p with slots := p.kept healthy, dialing := p.dialing + p.lacks healthy }

theorem Pool.beginSweep_eq {p : Pool} (hopen : p.closed = false) (healthy : Connection → Bool) :
    p.beginSweep healthy = (p.lacks healthy, p.stocking healthy) := by
  have hslots := p.slots_prune healthy
  unfold beginSweep stocking lacks
  rw [if_neg (by simp [hopen]), ← hslots]
  rfl

/-- What is occupied after pruning is filled up to the minimum, and no further. -/
theorem Pool.occupied_stocking (p : Pool) (healthy : Connection → Bool) :
    (p.stocking healthy).occupied =
      max ((p.kept healthy).length + p.dialing) p.config.minSize := by
  show (p.kept healthy).length + (p.dialing + p.lacks healthy) = _
  unfold lacks
  omega

/-- What a sweep does to a pool when it begins. -/
structure Member.Prunes (m m' : Member) : Prop where
  /-- Just the idle connections that are not healthy are dropped. -/
  slots : m'.pool.slots = m.pool.slots.filter fun s => s.inUse || s.conn.any m.healthy
  lent : m'.pool.slots.filter Slot.inUse = m.pool.slots.filter Slot.inUse
  dialing : m'.pool.dialing = m.pool.dialing + m.pool.lacks m.healthy
  occupied : m'.pool.occupied =
    max ((m.pool.kept m.healthy).length + m.pool.dialing) m.pool.config.minSize
  occupied_le : m'.pool.occupied ≤ max m.pool.occupied m.pool.config.minSize
  requests : m'.pool.requests = m.pool.requests
  errors : m'.pool.errors = m.pool.errors
  closed : m'.pool.closed = m.pool.closed
  /-- The first dial is begun, if there is one. -/
  begun : m'.dialer.begun = m.dialer.begun + min (m.pool.lacks m.healthy) 1

theorem Member.prunes (m : Member) {dialer : Dialer} {attached : Bool} {ticker : Option Ticker}
    (hbegun : dialer.begun = m.dialer.begun + min (m.pool.lacks m.healthy) 1) :
    m.Prunes ⟨m.pool.stocking m.healthy, dialer, attached, ticker⟩ where
  slots := rfl
  lent := by
    rw [← m.pool.inUse_prune m.healthy, m.pool.slots_prune]
    rfl
  dialing := rfl
  occupied := m.pool.occupied_stocking m.healthy
  occupied_le := by
    have hkept : (m.pool.kept m.healthy).length ≤ m.pool.slots.length := List.length_filter_le _ _
    rw [m.pool.occupied_stocking m.healthy, Pool.occupied]
    omega
  requests := rfl
  errors := rfl
  closed := rfl
  begun := hbegun

/-! ## The ends of dials -/

/-- A dial of a sweep has ended: what it came to, and the pool before and after that. -/
structure DialEnd where
  now : Nat
  outcome : DialOutcome
  before : Member
  after : Member

namespace DialEnd

/-- Whether the dial has opened a connection and the pool is open. -/
def Succeeds (e : DialEnd) : Prop :=
  (∃ sick, e.outcome = .opened sick) ∧ e.before.pool.closed = false

/-- How many connections got slots. -/
def registered (e : DialEnd) : Nat := e.after.pool.slots.length - e.before.pool.slots.length

/-- How many reservations were given back for nothing. -/
def returned (e : DialEnd) : Nat :=
  e.before.pool.dialing - e.after.pool.dialing - e.registered

/-- What a sweep does that held some reservations when its dial ended, and how many it holds after
that. -/
inductive Settles (e : DialEnd) : Nat → Nat → Prop where
  /-- The connection gets a slot for its reservation, and the next dial is begun if there is one. -/
  | registers {n : Nat} {conn : Connection} (hsucceeds : e.Succeeds)
    (hheld : n + 1 ≤ e.before.pool.dialing)
    (hpool : e.after.pool = (e.before.pool.unreserve 1).push e.now (some conn))
    (hbegun : e.after.dialer.begun = e.before.dialer.begun + min n 1) :
    Settles e (n + 1) n
  /-- All reservations are given back, and no dial is begun any more. -/
  | givesUp {n : Nat} (hfails : ¬ e.Succeeds) (hheld : n ≤ e.before.pool.dialing)
    (hpool : e.after.pool = e.before.pool.unreserve n)
    (hbegun : e.after.dialer.begun = e.before.dialer.begun) :
    Settles e n 0

namespace Settles

variable {e : DialEnd} {n n' : Nat}

/-- No reservation is lost. -/
theorem split (h : e.Settles n n') : e.registered + e.returned + n' = n := by
  unfold returned registered
  cases h with
  | registers hsucceeds hheld hpool =>
    have hslots : e.after.pool.slots.length = e.before.pool.slots.length + 1 := by
      simp [hpool, Pool.push, Pool.unreserve]
    have hdialing : e.after.pool.dialing = e.before.pool.dialing - 1 := by rw [hpool]; rfl
    omega
  | givesUp hfails hheld hpool =>
    have hslots : e.after.pool.slots = e.before.pool.slots := by rw [hpool]; rfl
    have hdialing : e.after.pool.dialing = e.before.pool.dialing - n := by rw [hpool]; rfl
    rw [hslots]
    omega

theorem requests (h : e.Settles n n') : e.after.pool.requests = e.before.pool.requests := by
  cases h with
  | registers _ _ hpool | givesUp _ _ hpool => rw [hpool]; rfl

theorem errors (h : e.Settles n n') : e.after.pool.errors = e.before.pool.errors := by
  cases h with
  | registers _ _ hpool | givesUp _ _ hpool => rw [hpool]; rfl

theorem last (h : e.Settles n n') (hfails : ¬ e.Succeeds) :
    n' = 0 ∧ e.after.dialer.begun = e.before.dialer.begun := by
  cases h with
  | registers hsucceeds => exact absurd hsucceeds hfails
  | givesUp _ _ _ hbegun => exact ⟨rfl, hbegun⟩

end Settles

end DialEnd

/-- The dials of a sweep that have ended, one after the other, and how many reservations it holds
by then of those that it has made. -/
inductive Sweeping (wanted : Nat) : List DialEnd → Nat → Prop where
  | begun : Sweeping wanted [] wanted
  | settled {log : List DialEnd} {e : DialEnd} {n n' : Nat} (h : Sweeping wanted log n)
    (hpos : 0 < n) (he : e.Settles n n') : Sweeping wanted (log ++ [e]) n'

namespace Sweeping

variable {wanted n : Nat} {log : List DialEnd}

theorem split (h : Sweeping wanted log n) :
    (log.map DialEnd.registered).sum + (log.map DialEnd.returned).sum + n = wanted := by
  induction h with
  | begun => exact Nat.zero_add wanted
  | settled h hpos he ih =>
    have hsplit := he.split
    simp only [List.map_append, List.sum_append, List.map_cons, List.map_nil, List.sum_singleton]
    omega

theorem length_le (h : Sweeping wanted log n) : log.length + n ≤ wanted := by
  induction h with
  | begun => exact Nat.le_of_eq (Nat.zero_add wanted)
  | settled h hpos he ih =>
    rw [List.length_append, List.length_singleton]
    cases he with
    | registers => omega
    | givesUp => omega

theorem settles_of_mem (h : Sweeping wanted log n) :
    ∀ e ∈ log, ∃ k k', e.Settles k k' := by
  induction h with
  | begun => exact fun _ he => (nomatch he)
  | settled h hpos he ih =>
    intro e' he'
    rcases List.mem_append.mp he' with he' | he'
    · exact ih e' he'
    · exact ⟨_, _, List.mem_singleton.mp he' ▸ he⟩

/-- After a dial that has failed or was refused there is no other one. -/
theorem last (h : Sweeping wanted log n) {front back : List DialEnd} {e : DialEnd}
    (hlog : log = front ++ e :: back) (hfails : ¬ e.Succeeds) :
    back = [] ∧ n = 0 ∧ e.after.dialer.begun = e.before.dialer.begun := by
  induction h generalizing back with
  | begun => simp at hlog
  | @settled log e' k n h hpos he ih =>
    rcases List.eq_nil_or_concat back with rfl | ⟨back', x, rfl⟩
    · obtain ⟨-, heq⟩ := List.append_inj' hlog rfl
      obtain rfl : e' = e := by simpa using heq
      exact ⟨rfl, he.last hfails⟩
    · rw [List.concat_eq_append, ← List.cons_append, ← List.append_assoc] at hlog
      obtain ⟨hfront, -⟩ := List.append_inj' hlog rfl
      -- The sweep would have held nothing when the later dial ended.
      exact absurd (ih hfront).2.1 (Nat.ne_of_gt hpos)

end Sweeping

/-- A dial for which a sweep gets a slot has succeeded. -/
theorem Member.succeeds_of_made {m : Member} {pool : Pool} {now : Nat} {outcome : DialOutcome}
    (hpool : m.pool.endSweepDial now (m.dialed outcome) = (true, pool)) (m' : Member) :
    DialEnd.Succeeds ⟨now, outcome, m, m'⟩ ∧
      ∃ conn, pool = (m.pool.unreserve 1).push now (some conn) := by
  unfold Pool.endSweepDial at hpool
  cases outcome with
  | failed cause | timedOut => simp [dialed, Dialer.conclude] at hpool
  | opened sick =>
    simp only [dialed, Dialer.conclude] at hpool
    split at hpool
    · simp at hpool
    · rename_i hopen
      obtain ⟨-, rfl⟩ := Prod.mk.inj hpool
      exact ⟨⟨⟨sick, rfl⟩, Bool.eq_false_iff.mpr hopen⟩, _, rfl⟩

theorem Member.fails_of_not_made {m : Member} {pool : Pool} {now : Nat} {outcome : DialOutcome}
    (hpool : m.pool.endSweepDial now (m.dialed outcome) = (false, pool)) (m' : Member) :
    ¬ DialEnd.Succeeds ⟨now, outcome, m, m'⟩ ∧ pool = m.pool.unreserve 1 := by
  unfold Pool.endSweepDial at hpool
  cases outcome with
  | failed cause | timedOut =>
    obtain ⟨-, rfl⟩ := Prod.mk.inj hpool
    exact ⟨fun hsucceeds => by simpa using hsucceeds.1, rfl⟩
  | opened sick =>
    simp only [dialed, Dialer.conclude] at hpool
    split at hpool
    · rename_i hclosed
      obtain ⟨-, rfl⟩ := Prod.mk.inj hpool
      exact ⟨fun hsucceeds => Bool.noConfusion (hclosed.symm.trans hsucceeds.2), rfl⟩
    · simp at hpool

theorem Pool.unreserve_unreserve (p : Pool) (n k : Nat) :
    (p.unreserve n).unreserve k = p.unreserve (k + n) := by
  unfold unreserve
  rw [Nat.sub_sub, Nat.add_comm]

theorem Member.begun_concluded (m : Member) (outcome : DialOutcome) :
    (m.concluded outcome).dialer.begun = m.dialer.begun := by
  cases outcome <;> rfl

namespace Fleet

variable {f f' : Fleet} {i id wanted : Nat} {m : Member} {c : Call} {log : List DialEnd}

/-- The ends of dials of a sweep in a turn. -/
def sweepDials (i id : Nat) (f : Fleet) (now : Nat) : FleetTurn → List DialEnd
  | .endDial id' outcome =>
    if id' = id ∧ (f.call? id).isSome then
      match f.members[i]?, (f.endDial now id outcome).2.members[i]? with
      | some m, some m' => [⟨now, outcome, m, m'⟩]
      | _, _ => []
    else []
  | _ => []

/-- The ends of dials of a sweep in the course of some turns at a fleet. -/
def sweepLog (f : Fleet) (i id : Nat) (turns : List (Nat × FleetTurn)) : List DialEnd :=
  runReports turn (sweepDials i id) f turns

/-- Whether the call with a number sweeps a pool, as long as it waits. -/
def IsSweep (f : Fleet) (i id : Nat) : Prop :=
  ∀ c, f.call? id = some c → c.pool = i ∧ ∃ n background, c.purpose = .sweep n background

theorem isSweep_of_none (h : f.call? id = none) : f.IsSweep i id :=
  fun c hc => absurd (h.symm.trans hc) (by simp)

theorem held_eq_asked (f : Fleet) (id : Nat) :
    f.held id = (((f.call? id).map Call.asked).map fun a => a.2.2.dials).getD 0 := by
  rw [Option.map_map]
  rfl

theorem GoesOn.held (h : GoesOn id f f') : f'.held id = f.held id := by
  rw [held_eq_asked, held_eq_asked, h.asked]

theorem GoesOn.isSweep (h : GoesOn id f f') (hsweep : f.IsSweep i id) : f'.IsSweep i id := by
  intro c' hc'
  have hasked := h.asked
  rw [hc', Option.map_some, eq_comm, Option.map_eq_some_iff] at hasked
  obtain ⟨c, hc, heq⟩ := hasked
  simp only [Call.asked, Prod.mk.injEq] at heq
  obtain ⟨-, hpool, hpurpose⟩ := heq
  rw [← hpool, ← hpurpose]
  exact hsweep c hc

/-- **The end of a sweep's dial settles its reservations.** -/
theorem Sound.settles_endDial (h : f.Sound [] []) (hc : f.call? id = some c)
    (hm : f.members[c.pool]? = some m) {n : Nat} {background : Bool}
    (hsweep : c.purpose = .sweep n background) (now : Nat) (outcome : DialOutcome) :
    ∃ m', (f.endDial now id outcome).2.members[c.pool]? = some m' ∧
      DialEnd.Settles ⟨now, outcome, m, m'⟩ n ((f.endDial now id outcome).2.held id) ∧
      (f.endDial now id outcome).2.IsSweep c.pool id := by
  have hmem := (Sound.mem_calls hc).1
  have hpos := (h.callers c hmem).2
  have hheld := h.dials_le hmem hm
  rw [hsweep] at hpos hheld
  obtain ⟨k, rfl⟩ : ∃ k, n = k + 1 := ⟨n - 1, (Nat.sub_add_cancel hpos).symm⟩
  have hset (m' : Member) : ((f.endCall id).setMember c.pool m').members[c.pool]? = some m' :=
    List.getElem?_set_self (List.getElem?_eq_some_iff.mp hm).1
  have hgone (m' : Member) : ((f.endCall id).setMember c.pool m').IsSweep c.pool id :=
    isSweep_of_none (call?_endCall f id)
  have hbegun := m.begun_concluded outcome
  have hends := endDial_cases hc hm now outcome
  generalize f.endDial now id outcome = ended at hends ⊢
  cases hends with
  | refused hpurpose | lent hpurpose => rw [hsweep] at hpurpose; simp at hpurpose
  | @givesUp pool wanted background' hpurpose hpool =>
    obtain ⟨rfl, rfl⟩ : k + 1 = wanted ∧ background = background' := by
      simpa [hsweep] using hpurpose
    refine ⟨_, hset _, ?_, hgone _⟩
    obtain ⟨hfails, rfl⟩ := Member.fails_of_not_made hpool
      ((m.concluded outcome).withPool (pool.unreserve k))
    rw [held_setMember]
    exact .givesUp hfails hheld (m.pool.unreserve_unreserve 1 k) hbegun
  | @swept pool wanted background' hpurpose hpool hlast =>
    obtain ⟨rfl, rfl⟩ : k + 1 = wanted ∧ background = background' := by
      simpa [hsweep] using hpurpose
    obtain rfl : k = 0 := Nat.le_zero.mp (Nat.le_of_succ_le_succ hlast)
    refine ⟨_, hset _, ?_, hgone _⟩
    obtain ⟨hsucceeds, conn, hmade⟩ :=
      Member.succeeds_of_made hpool ((m.concluded outcome).withPool pool)
    rw [held_setMember]
    exact .registers hsucceeds hheld hmade hbegun
  | @dials pool wanted background' hpurpose hpool hmore =>
    obtain ⟨rfl, rfl⟩ : k + 1 = wanted ∧ background = background' := by
      simpa [hsweep] using hpurpose
    have hcall := call?_beginDial (call?_endCall f id) now c.pool
      ((m.concluded outcome).withPool pool) (.sweep k background)
    refine ⟨_, hset _, ?_, fun c' hc' => ?_⟩
    · obtain ⟨hsucceeds, conn, hmade⟩ := Member.succeeds_of_made hpool
        { (m.concluded outcome).withPool pool with
          dialer := ((m.concluded outcome).withPool pool).dialer.begin.2 }
      rw [held_beginDial]
      refine .registers hsucceeds hheld hmade ?_
      rw [Nat.min_eq_right (by omega), ← hbegun]
      exact Dialer.begun_begin _
    · obtain rfl := Option.some.inj (hcall.symm.trans hc')
      exact ⟨rfl, k, background, rfl⟩

/-! ## Every run -/

/-- The sweep of a pool that has some number, by the dials of it that have ended. -/
structure Sweeps (f : Fleet) (i id wanted : Nat) (log : List DialEnd) : Prop where
  drawn : id < f.nextCall
  isSweep : f.IsSweep i id
  sweeping : Sweeping wanted log (f.held id)

theorem Sweeps.goesOn (h : f.Sweeps i id wanted log) (hgoes : GoesOn id f f') :
    f'.Sweeps i id wanted log :=
  ⟨Nat.lt_of_lt_of_le h.drawn hgoes.drawn, hgoes.isSweep h.isSweep, hgoes.held ▸ h.sweeping⟩

theorem Sweeps.endDial (h : f.Sweeps i id wanted log) (hf : f.Sound [] []) (now : Nat)
    (outcome : DialOutcome) : (f.endDial now id outcome).2.Sweeps i id wanted
      (log ++ sweepDials i id f now (.endDial id outcome)) := by
  cases hc : f.call? id with
  | none =>
    rw [endDial_of_none hc]
    simpa [sweepDials, hc] using h
  | some c =>
    obtain ⟨rfl, n, background, hpurpose⟩ := h.isSweep c hc
    obtain ⟨m, hm⟩ := hf.exists_pool hc
    obtain ⟨m', hm', hsettles, hsweep⟩ := hf.settles_endDial hc hm hpurpose now outcome
    have hlog : sweepDials c.pool id f now (.endDial id outcome) = [⟨now, outcome, m, m'⟩] := by
      simp [sweepDials, hc, hm, hm']
    have hheld : f.held id = n := by simp [held, hc, hpurpose, Purpose.dials]
    have hpos : 0 < n := by
      have hdials := (hf.callers c (Sound.mem_calls hc).1).2
      rwa [hpurpose] at hdials
    rw [hlog]
    refine ⟨?_, hsweep, ?_⟩
    · rw [hf.nextCall_endDial now id outcome]
      exact h.drawn
    · exact .settled (hheld ▸ h.sweeping) hpos hsettles

theorem Sweeps.turn (h : f.Sweeps i id wanted log) (hf : f.Sound [] []) (now : Nat)
    {t : FleetTurn} (ht : t ≠ .cancel id) :
    (f.turn now t).Sweeps i id wanted (log ++ sweepDials i id f now t) := by
  by_cases hend : ∃ outcome, t = .endDial id outcome
  · obtain ⟨outcome, rfl⟩ := hend
    exact h.endDial hf now outcome
  · have hother : ∀ outcome, t ≠ .endDial id outcome := fun outcome heq => hend ⟨outcome, heq⟩
    have hlog : sweepDials i id f now t = [] := by
      cases t with
      | endDial id' outcome =>
        have hne : id' ≠ id := by
          rintro rfl
          exact hother outcome rfl
        simp [sweepDials, hne]
      | _ => rfl
    rw [hlog, List.append_nil]
    exact h.goesOn (hf.goesOn_turn h.drawn now hother ht)

theorem Sweeps.run (h : f.Sweeps i id wanted []) (hf : f.Sound [] [])
    (turns : List (Nat × FleetTurn)) (hturns : ∀ t ∈ turns, t.2 ≠ .cancel id) :
    (f.run turns).Sweeps i id wanted (f.sweepLog i id turns) := by
  refine (runReports_induction_of (fun _ t => t ≠ .cancel id) (sweepDials i id)
    (P := fun f log => f.Sound [] [] ∧ f.Sweeps i id wanted log) ⟨hf, h⟩ ?_ turns hturns).2
  rintro f log now t ht ⟨hf, h⟩
  exact ⟨hf.turn now t, h.turn hf now ht⟩

theorem Sound.call?_nextCall (h : f.Sound [] []) : f.call? f.nextCall = none := by
  cases hc : f.call? f.nextCall with
  | none => rfl
  | some c => exact absurd (h.drawn_of_call? hc) (Nat.lt_irrefl _)

/-- A sweep begins with all that it has reserved. -/
theorem Sound.sweeps_begin (h : f.Sound [] []) (hm : f.members[i]? = some m)
    (hopen : m.pool.closed = false) (now : Nat) (background : Bool) :
    (∃ m', (f.beginSweep now i background).2.members[i]? = some m' ∧ m.Prunes m') ∧
      (f.beginSweep now i background).2.held f.nextCall = m.pool.lacks m.healthy ∧
      (f.beginSweep now i background).2.Sweeps i f.nextCall (m.pool.lacks m.healthy) [] := by
  have hnone : f.drawNext.call? f.nextCall = none := h.call?_nextCall
  have hset (m' : Member) : (f.drawNext.setMember i m').members[i]? = some m' :=
    List.getElem?_set_self (List.getElem?_eq_some_iff.mp hm).1
  have hpool := Pool.beginSweep_eq hopen m.healthy
  have hbegins := f.beginSweep_cases now i background
  generalize f.beginSweep now i background = begun at hbegins ⊢
  cases hbegins with
  | missing hm' => exact absurd (hm'.symm.trans hm) (by simp)
  | @swept m' pool hm' hpool' =>
    obtain rfl := Option.some.inj (hm'.symm.trans hm)
    obtain ⟨hzero, rfl⟩ := Prod.mk.inj (hpool.symm.trans hpool')
    have hheld : (f.drawNext.setMember i (m'.withPool (m'.pool.stocking m'.healthy))).held
        f.nextCall = m'.pool.lacks m'.healthy := hzero ▸ held_eq_zero hnone
    refine ⟨⟨_, hset _, m'.prunes ?_⟩, hheld, Nat.lt_succ_self _, isSweep_of_none hnone, ?_⟩
    · rw [hzero]
      rfl
    · rw [hheld]
      exact .begun
  | @dials m' pool wanted hm' hpool' hwanted =>
    obtain rfl := Option.some.inj (hm'.symm.trans hm)
    obtain ⟨rfl, rfl⟩ := Prod.mk.inj (hpool.symm.trans hpool')
    have hcall := call?_beginDial hnone now i (m'.withPool (m'.pool.stocking m'.healthy))
      (.sweep (m'.pool.lacks m'.healthy) background)
    have hheld : (f.drawNext.beginDial now f.nextCall i (m'.withPool (m'.pool.stocking m'.healthy))
        (.sweep (m'.pool.lacks m'.healthy) background)).held f.nextCall =
          m'.pool.lacks m'.healthy := by
      rw [held, hcall]
      rfl
    refine ⟨⟨_, hset _, m'.prunes ?_⟩, hheld, Nat.lt_succ_self _, fun c hc => ?_, ?_⟩
    · rw [Nat.min_eq_right (Nat.pos_of_ne_zero hwanted)]
      exact Dialer.begun_begin _
    · obtain rfl := Option.some.inj (hcall.symm.trans hc)
      exact ⟨rfl, _, background, rfl⟩
    · rw [hheld]
      exact .begun

/-- A sweep that holds nothing is over. -/
theorem Sound.held_eq_zero_iff (h : f.Sound [] []) (id : Nat) :
    f.held id = 0 ↔ f.call? id = none := by
  refine ⟨fun hzero => ?_, held_eq_zero⟩
  cases hc : f.call? id with
  | none => rfl
  | some c =>
    have hpos := (h.callers c (Sound.mem_calls hc).1).2
    simp [held, hc] at hzero
    omega

/-- A sweep whose dials all succeed at an open pool, one after the other, turns what it holds into
connections. -/
theorem Sound.stocked (h : f.Sound [] []) (hsweep : f.IsSweep i id)
    (hm : f.members[i]? = some m) (hopen : m.pool.closed = false) (ends : List (Nat × Bool))
    (hends : ends.length = f.held id) :
    ∃ m', (f.run (ends.map fun e => (e.1, .endDial id (.opened e.2)))).members[i]? = some m' ∧
      m'.pool.slots.length = m.pool.slots.length + ends.length ∧
      m'.pool.dialing + ends.length = m.pool.dialing ∧
      (f.run (ends.map fun e => (e.1, .endDial id (.opened e.2)))).call? id = none := by
  induction ends generalizing f m with
  | nil => exact ⟨m, hm, rfl, rfl, (h.held_eq_zero_iff id).mp hends.symm⟩
  | cons e ends ih =>
    rw [List.length_cons] at hends
    cases hc : f.call? id with
    | none => simp [held, hc] at hends
    | some c =>
      obtain ⟨rfl, n, background, hpurpose⟩ := hsweep c hc
      have hn : n = ends.length + 1 := by simpa [held, hc, hpurpose, Purpose.dials] using hends.symm
      obtain ⟨m', hm', hsettles, hsweep'⟩ :=
        h.settles_endDial hc hm hpurpose e.1 (.opened e.2)
      generalize hheld : (f.endDial e.1 id (.opened e.2)).2.held id = n' at hsettles
      cases hsettles with
      | givesUp hfails => exact absurd ⟨⟨e.2, rfl⟩, hopen⟩ hfails
      | registers hsucceeds hdialing hpool =>
        have hslots : m'.pool.slots.length = m.pool.slots.length + 1 := by
          rw [hpool]
          exact List.length_append
        have hless : m'.pool.dialing = m.pool.dialing - 1 := by rw [hpool]; rfl
        have hopen' : m'.pool.closed = false := by rw [hpool]; exact hopen
        obtain ⟨m'', hm'', hslots'', hdialing'', hover⟩ :=
          ih (h.endDial e.1 id (.opened e.2)) hsweep' hm' hopen' (by omega)
        have hrest : n' + 1 ≤ m.pool.dialing := hdialing
        refine ⟨m'', hm'', ?_, ?_, hover⟩
        · rw [List.length_cons]
          omega
        · rw [List.length_cons]
          omega

/-- What a sweep keeps to that has reserved some dials, of which it holds some still. -/
structure SweepKeeps (wanted : Nat) (log : List DialEnd) (held : Nat) : Prop where
  sweeping : Sweeping wanted log held
  /-- What it has reserved it has registered, or returned, or holds. -/
  split : (log.map DialEnd.registered).sum + (log.map DialEnd.returned).sum + held = wanted
  length_le : log.length + held ≤ wanted
  /-- After the first dial that has failed or was refused it begins no other one. -/
  last : ∀ front e back, log = front ++ e :: back → ¬ e.Succeeds →
    back = [] ∧ held = 0 ∧ e.after.dialer.begun = e.before.dialer.begun
  requests : ∀ e ∈ log, e.after.pool.requests = e.before.pool.requests
  errors : ∀ e ∈ log, e.after.pool.errors = e.before.pool.errors

theorem sweepKeeps {n : Nat} (h : Sweeping wanted log n) : SweepKeeps wanted log n := by
  refine ⟨h, h.split, h.length_le, fun front e back hlog hfails => h.last hlog hfails,
    fun e he => ?_, fun e he => ?_⟩
  · obtain ⟨k, k', hsettles⟩ := h.settles_of_mem e he
    exact hsettles.requests
  · obtain ⟨k, k', hsettles⟩ := h.settles_of_mem e he
    exact hsettles.errors

/-- **What a sweep does to its pool**, in every fleet that turns lead to and for every pool of it
that is open. It drops just the idle connections that are not healthy, and reserves what is wanting
to the minimum by then. Whoever takes turns in the course of it, it keeps to the ends of its dials
(`SweepKeeps`), and holds nothing exactly if it is over.

If all its dials succeed, and nothing else happens, the pool has the connections that were kept and
those that were reserved, and as many dials as before. That is the minimum of connections exactly if
as many were kept, or nobody else was dialing. -/
theorem sweep_contract (turns : List (Nat × FleetTurn)) (i : Nat) (m : Member)
    (hm : (empty.run turns).members[i]? = some m) (hopen : m.pool.closed = false) (now : Nat)
    (background : Bool) :
    let id := (empty.run turns).nextCall
    let begun := ((empty.run turns).beginSweep now i background).2
    let kept := (m.pool.kept m.healthy).length
    let wanted := m.pool.config.minSize - (kept + m.pool.dialing)
    (∃ m', begun.members[i]? = some m' ∧ m.Prunes m') ∧
      begun.held id = wanted ∧
      (∀ later : List (Nat × FleetTurn), (∀ t ∈ later, t.2 ≠ .cancel id) →
        SweepKeeps wanted (begun.sweepLog i id later) ((begun.run later).held id) ∧
        ((begun.run later).held id = 0 ↔ (begun.run later).call? id = none)) ∧
      ∀ ends : List (Nat × Bool), ends.length = wanted →
        ∃ m', (begun.run (ends.map fun e => (e.1, .endDial id (.opened e.2)))).members[i]? =
            some m' ∧
          m'.pool.slots.length = kept + wanted ∧
          m'.pool.dialing = m.pool.dialing ∧
          m.pool.config.minSize ≤ m'.pool.occupied ∧
          (m.pool.config.minSize ≤ m'.pool.slots.length ↔
            m.pool.config.minSize ≤ kept ∨ m.pool.dialing = 0) := by
  intro id begun kept wanted
  have hsound := sound_run turns
  obtain ⟨⟨m', hm', hprunes⟩, hheld, hsweeps⟩ := hsound.sweeps_begin hm hopen now background
  have hbegun : begun.Sound [] [] := hsound.beginSweep now i background
  refine ⟨⟨m', hm', hprunes⟩, hheld, fun later hlater => ?_, fun ends hends => ?_⟩
  · have hrun := hsweeps.run hbegun later hlater
    have hlater' : (begun.run later).Sound [] [] :=
      runTurns_induction (P := fun f : Fleet => f.Sound [] []) hbegun
        (fun _ now t h => h.turn now t) later
    exact ⟨sweepKeeps hrun.sweeping, hlater'.held_eq_zero_iff id⟩
  · obtain ⟨m'', hm'', hslots, hdialing, -⟩ := hbegun.stocked hsweeps.isSweep hm'
      (hprunes.closed.trans hopen) ends (hends.trans hheld.symm)
    have hkept : m'.pool.slots.length = kept := congrArg List.length hprunes.slots
    have hreserved : m'.pool.dialing = m.pool.dialing + wanted := hprunes.dialing
    refine ⟨m'', hm'', ?_, ?_, ?_, ?_⟩
    · omega
    · omega
    · unfold Pool.occupied
      omega
    · omega

/-- Both idle connections are sick, and a sweep reserves two dials. While the first is in flight
somebody else begins to dial, and before the second has ended the pool is closed. -/
theorem sweep_contract_closed_meanwhile :
    let config := { PoolConfig.standard "db:1" with maxSize := 4, minSize := 2 }
    let turns : List (Nat × FleetTurn) := [(0, .connect config []), (1, .setHealth 0 none false)]
    let later : List (Nat × FleetTurn) := [(2, .beginCheckout 0 false),
      (3, .endDial 0 (.opened false)), (4, .close 0), (5, .endDial 0 (.opened false))]
    let id := (empty.run turns).nextCall
    let begun := ((empty.run turns).beginSweep 1 0 false).2
    let log := begun.sweepLog 0 id later
    (∃ m, (empty.run turns).members[0]? = some m ∧ m.pool.closed = false ∧
        ∃ m', begun.members[0]? = some m' ∧ m.Prunes m') ∧
      log.map (fun e => (e.registered, e.returned)) = [(1, 0), (0, 1)] ∧
      SweepKeeps 2 log ((begun.run later).held id) ∧ (begun.run later).held id = 0 := by
  intro config turns later id begun log
  have hopen : ((empty.run turns).members[0]?.map fun m => m.pool.closed) = some false := by
    decide +kernel
  have htwo : begun.held id = 2 := by decide +kernel
  have hlater : ∀ t ∈ later, t.2 ≠ .cancel id := by simp [later]
  obtain ⟨m, hm, hclosed⟩ := Option.map_eq_some_iff.mp hopen
  obtain ⟨hprunes, hheld, hruns, -⟩ := sweep_contract turns 0 m hm hclosed 1 false
  have hkeeps := (hruns later hlater).1
  rw [← hheld, htwo] at hkeeps
  exact ⟨⟨m, hm, hclosed, hprunes⟩, by decide +kernel, hkeeps, by decide +kernel⟩

/-- Somebody is dialing when a sweep of an empty pool begins. Its dial succeeds and nothing else
happens, and yet the pool has fewer connections than its minimum when the sweep is over. -/
theorem sweep_below_minimum :
    let config := { PoolConfig.standard "db:1" with maxSize := 3, minSize := 2 }
    let turns : List (Nat × FleetTurn) := [(0, .connect config []), (1, .setHealth 0 none false),
      (1, .beginCheckout 0 false)]
    let begun := ((empty.run turns).beginSweep 2 0 false).2
    let after := begun.run [(3, .endDial 1 (.opened false))]
    ((empty.run turns).members.map fun m => (m.pool.closed, m.pool.slots.length, m.pool.dialing)) =
        [(false, 0, 1)] ∧
      (begun.held 1, after.held 1) = (1, 0) ∧
      (after.members.map fun m => (m.pool.closed, m.pool.slots.length, m.pool.dialing)) =
        [(false, 1, 1)] ∧
      ¬ ∀ m ∈ after.members, m.pool.config.minSize ≤ m.pool.slots.length := by
  intro config turns begun after
  have hcounts : (after.members.map fun m => (m.pool.config.minSize, m.pool.slots.length)) =
      [(2, 1)] := by decide +kernel
  refine ⟨by decide +kernel, by decide +kernel, by decide +kernel, fun hall => ?_⟩
  obtain ⟨m, hm, hpair⟩ := List.mem_map.mp (hcounts ▸ List.mem_singleton_self (2, 1))
  obtain ⟨hmin, hslots⟩ := Prod.mk.inj hpair
  have hle := hall m hm
  omega

end Fleet

end BoundedResources
