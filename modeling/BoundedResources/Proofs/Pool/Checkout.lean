import BoundedResources.Proofs.Pool.Holders

/-!
# What a checkout decides

A checkout that finds its pool open goes through four things in one turn: it drops the idle
connections that are not healthy, and then reuses an idle one, has one opened, or gives up. Dropping
comes first, so a connection that is reused has just been found healthy, and there is room for a new
one where a sick one was.

`Pool.Decides` says which of the three it is, by the slots that are kept, and what the books are
afterwards; `Fleet.Decides` says what becomes of the fleet. **`Fleet.checkout_decision`** says that
this is what checkouts do in every fleet that turns lead to. There a checkout gives up exactly if no
healthy connection is idle and what is kept takes up the whole maximum, with the dials in flight.
-/

set_option autoImplicit false

namespace BoundedResources

theorem Slot.survives_eq (healthy : Connection → Bool) (s : Slot) :
    s.survives healthy = (s.inUse || s.conn.any healthy) := by
  unfold survives inUse
  cases s.conn <;> rfl

namespace Pool

variable {p : Pool} {now : Nat} {healthy : Connection → Bool}

/-- The slots that a checkout keeps: those that are in use or hold a healthy connection. -/
def kept (p : Pool) (healthy : Connection → Bool) : List Slot :=
  p.slots.filter fun s => s.inUse || s.conn.any healthy

theorem slots_prune (p : Pool) (healthy : Connection → Bool) :
    (p.prune healthy).slots = p.kept healthy :=
  List.filter_congr fun s _ => s.survives_eq healthy

theorem takeIdle_eq_none {slots : List Slot} (h : takeIdle now slots = none) :
    ∀ s ∈ slots, s.inUse = true := by
  induction slots with
  | nil => exact fun _ hs => (nomatch hs)
  | cons s slots ih =>
    cases hconn : s.conn with
    | some conn => simp [takeIdle, hconn] at h
    | none =>
      simp only [takeIdle, hconn, Option.map_eq_none_iff] at h
      exact List.forall_mem_cons.mpr ⟨Option.isNone_iff_eq_none.mpr hconn, ih h⟩

/-- What a checkout from an open pool comes to, and what the books are after it. -/
inductive Decides (p : Pool) (now : Nat) (healthy : Connection → Bool) :
    Except PoolError Offer × Pool → Prop where
  /-- The first connection that is idle is reused. It has just been found healthy. -/
  | reuses {front back : List Slot} {s : Slot} {conn : Connection}
    (hkept : p.kept healthy = front ++ s :: back) (hfront : ∀ x ∈ front, x.inUse = true)
    (hconn : s.conn = some conn) (hhealthy : healthy conn = true) :
    Decides p now healthy
      (.ok (.idle s.id conn),
        { p with slots := front ++ s.lend now :: back, requests := p.requests + 1 })
  /-- A dial is reserved. -/
  | dials (hnone : ∀ s ∈ p.kept healthy, s.inUse = true)
    (hroom : (p.kept healthy).length + p.dialing < p.config.maxSize) :
    Decides p now healthy
      (.ok .room,
        { p with
          slots := p.kept healthy
          dialing := p.dialing + 1
          requests := p.requests + 1 })
  | givesUp (hnone : ∀ s ∈ p.kept healthy, s.inUse = true)
    (hfull : (p.kept healthy).length + p.dialing = p.config.maxSize) :
    Decides p now healthy
      (.error (.noAvailableConnections p.config.maxSize),
        { p with
          slots := p.kept healthy
          requests := p.requests + 1
          errors := p.errors + 1 })

theorem Accounts.decides {lent : List Nat} {owed : Nat} (h : p.Accounts lent owed)
    (hopen : p.closed = false) (now : Nat) (healthy : Connection → Bool) :
    p.Decides now healthy (p.checkout now healthy) := by
  have hslots := p.slots_prune healthy
  have hwithin := (h.prune healthy).within
  unfold occupied at hwithin
  rw [hslots] at hwithin
  unfold Pool.checkout
  simp only [hopen, Bool.false_eq_true, if_false, hslots]
  cases htake : Pool.takeIdle now (p.kept healthy) with
  | some taken =>
    obtain ⟨id, conn, slots⟩ := taken
    obtain ⟨front, s, back, hkept, hfront, rfl, hconn, rfl⟩ := takeIdle_eq_some htake
    have hmem : s ∈ p.kept healthy := by simp [hkept]
    have hhealthy : healthy conn = true := by
      simpa [Slot.inUse, hconn] using (List.mem_filter.mp hmem).2
    exact .reuses hkept hfront hconn hhealthy
  | none =>
    have hnone := takeIdle_eq_none htake
    dsimp only
    split
    · rename_i hroom
      exact .dials hnone hroom
    · rename_i hfull
      exact .givesUp hnone (Nat.le_antisymm hwithin (Nat.le_of_not_lt hfull))

namespace Decides

variable {result : Except PoolError Offer} {p' : Pool}

/-- A connection is reused exactly if a healthy one is idle. -/
theorem reuses_iff (h : p.Decides now healthy (result, p')) :
    (∃ id conn, result = .ok (.idle id conn)) ↔ ∃ s ∈ p.slots, s.conn.any healthy = true := by
  have hidle : (∃ s ∈ p.slots, s.conn.any healthy = true) ↔
      ∃ s ∈ p.kept healthy, s.inUse = false := by
    constructor
    · rintro ⟨s, hs, hany⟩
      refine ⟨s, List.mem_filter.mpr ⟨hs, by simp [hany]⟩, ?_⟩
      cases hconn : s.conn <;> simp_all [Slot.inUse]
    · rintro ⟨s, hs, huse⟩
      obtain ⟨hs, hkeeps⟩ := List.mem_filter.mp hs
      exact ⟨s, hs, by simpa [huse] using hkeeps⟩
  rw [hidle]
  cases h with
  | @reuses front back s conn hkept hfront hconn hhealthy =>
    refine iff_of_true ⟨s.id, conn, rfl⟩ ⟨s, by simp [hkept], ?_⟩
    rw [Slot.inUse, hconn, Option.isNone_some]
  | dials hnone | givesUp hnone =>
    refine iff_of_false (by simp) ?_
    rintro ⟨s, hs, huse⟩
    simp [hnone s hs] at huse

/-- A dial is reserved exactly if no healthy connection is idle and there is room. -/
theorem dials_iff (h : p.Decides now healthy (result, p')) :
    result = .ok .room ↔
      (¬ ∃ s ∈ p.slots, s.conn.any healthy = true) ∧
        (p.kept healthy).length + p.dialing < p.config.maxSize := by
  rw [← h.reuses_iff]
  cases h with
  | reuses => simp
  | dials hnone hroom => simp [hroom]
  | givesUp hnone hfull => simp [hfull]

/-- A checkout gives up exactly if no healthy connection is idle and the maximum is taken up. -/
theorem givesUp_iff (h : p.Decides now healthy (result, p')) :
    result = .error (.noAvailableConnections p.config.maxSize) ↔
      (¬ ∃ s ∈ p.slots, s.conn.any healthy = true) ∧
        (p.kept healthy).length + p.dialing = p.config.maxSize := by
  rw [← h.reuses_iff]
  cases h with
  | reuses => simp
  | dials hnone hroom => simp [Nat.ne_of_lt hroom]
  | givesUp hnone hfull => simp [hfull]

end Decides

end Pool

namespace Fleet

variable {f : Fleet} {i : Nat} {m : Member}

/-- What becomes of a fleet when a connection is checked out of one of its pools, which is open. -/
inductive Decides (f : Fleet) (now i : Nat) (m : Member) (returns : Bool) :
    CallStatus × Fleet → Prop where
  /-- The call has the connection, and no dial is begun. -/
  | reuses {id : Nat} {conn : Connection} {pool : Pool}
    (hpool : m.pool.Decides now m.healthy (.ok (.idle id conn), pool)) :
    Decides f now i m returns
      (.checkedOut (.ok ()),
        { f with
          members := f.members.set i { m with pool := pool }
          handles := f.handles ++ [(.call f.nextCall, ⟨i, id, conn, returns⟩)]
          nextCall := f.nextCall + 1 })
  /-- One dial is begun, and the call waits for it. -/
  | dials {plan : DialPlan} {dialer : Dialer} {pool : Pool}
    (hpool : m.pool.Decides now m.healthy (.ok .room, pool))
    (hdialer : m.dialer.begin = (plan, dialer)) (hbegun : dialer.begun = m.dialer.begun + 1) :
    Decides f now i m returns
      (.waiting,
        { f with
          members := f.members.set i { m with pool := pool, dialer := dialer }
          calls := f.calls ++ [⟨f.nextCall, i, .checkout returns, plan,
            ceilMillis (now + pool.config.connectTimeout.nanos), false⟩]
          nextCall := f.nextCall + 1 })
  | givesUp {e : PoolError} {pool : Pool}
    (hpool : m.pool.Decides now m.healthy (.error e, pool)) :
    Decides f now i m returns
      (.checkedOut (.error e),
        { f with
          members := f.members.set i { m with pool := pool }
          nextCall := f.nextCall + 1 })

theorem Sound.decides (h : f.Sound [] []) (hapart : f.Apart) (hm : f.members[i]? = some m)
    (hopen : m.pool.closed = false) (now : Nat) (returns : Bool) :
    f.Decides now i m returns (f.beginCheckout now i returns) := by
  have hpool := (h.accounts i m hm).decides hopen now m.healthy
  have hbegins := f.beginCheckout_cases now i returns
  generalize f.beginCheckout now i returns = begun at hbegins ⊢
  cases hbegins with
  | missing hm' => exact absurd (hm'.symm.trans hm) (by simp)
  | @refused m' pool e hm' hcheckout =>
    obtain rfl := Option.some.inj (hm'.symm.trans hm)
    exact .givesUp (hcheckout ▸ hpool)
  | @lent m' pool id conn hm' hcheckout =>
    obtain rfl := Option.some.inj (hm'.symm.trans hm)
    -- Nobody has a handle of the call so far, so that none is let go of for this one.
    have hnone : (f.drawNext.setMember i (m'.withPool pool)).handleOf? (.call f.nextCall) = none :=
      hapart.handleOf?_next
    unfold Fleet.hold
    rw [hnone, Sound.takeHandle_of_none hnone]
    exact .reuses (hcheckout ▸ hpool)
  | @dials m' pool hm' hcheckout =>
    obtain rfl := Option.some.inj (hm'.symm.trans hm)
    exact .dials (hcheckout ▸ hpool) rfl (Dialer.begun_begin _)

/-- **What a checkout decides**, in every fleet that turns lead to and for every pool of it that is
open. Whichever connections are healthy, the books are pruned and then one of three things is done,
by the slots that are kept; a healthy connection is reused if there is an idle one, and otherwise
the checkout gives up exactly if the maximum is taken up by then. What the pool decides for its own
dialer is done to the fleet. -/
theorem checkout_decision (turns : List (Nat × FleetTurn)) (i : Nat) (m : Member)
    (hm : (empty.run turns).members[i]? = some m) (hopen : m.pool.closed = false) (now : Nat) :
    (∀ healthy : Connection → Bool,
      m.pool.Decides now healthy (m.pool.checkout now healthy) ∧
      ((∃ id conn, (m.pool.checkout now healthy).1 = .ok (.idle id conn)) ↔
        ∃ s ∈ m.pool.slots, s.conn.any healthy = true) ∧
      ((m.pool.checkout now healthy).1 = .ok .room ↔
        (¬ ∃ s ∈ m.pool.slots, s.conn.any healthy = true) ∧
          (m.pool.kept healthy).length + m.pool.dialing < m.pool.config.maxSize) ∧
      ((m.pool.checkout now healthy).1 =
          .error (.noAvailableConnections m.pool.config.maxSize) ↔
        (¬ ∃ s ∈ m.pool.slots, s.conn.any healthy = true) ∧
          (m.pool.kept healthy).length + m.pool.dialing = m.pool.config.maxSize)) ∧
    ∀ returns, (empty.run turns).Decides now i m returns
      ((empty.run turns).beginCheckout now i returns) := by
  have hsound := sound_run turns
  constructor
  · intro healthy
    have hdecides := (hsound.accounts i m hm).decides hopen now healthy
    exact ⟨hdecides, hdecides.reuses_iff, hdecides.dials_iff, hdecides.givesUp_iff⟩
  · exact hsound.decides (apart_run turns) hm hopen now

/-- The first of two idle connections is sick: the second one is handed out, and one that takes the
place of the first is dialed. -/
theorem checkout_decision_first_is_sick :
    let config := { PoolConfig.standard "db:1" with maxSize := 2, minSize := 2 }
    let f := empty.run [(0, .connect config []), (1, .setHealth 0 (some 1) false)]
    let f' := (f.beginCheckout 2 0 false).2
    ∃ m, f.members[0]? = some m ∧ m.pool.closed = false ∧
      f.Decides 2 0 m false (f.beginCheckout 2 0 false) ∧
      f'.handles = [(.call 0, ⟨0, 2, ⟨2, ""⟩, false⟩)] ∧
      ((f'.beginCheckout 3 0 false).2.calls.map Call.id) = [1] ∧
      ((f'.beginCheckout 3 0 false).2.beginCheckout 4 0 false).2.members.map (·.pool.errors) =
        [1] := by
  intro config f f'
  have hopen : (f.members[0]?.map fun m => m.pool.closed) = some false := by decide +kernel
  obtain ⟨m, hm, hclosed⟩ := Option.map_eq_some_iff.mp hopen
  refine ⟨m, hm, hclosed, ?_, by decide +kernel, by decide +kernel, by decide +kernel⟩
  exact (checkout_decision _ 0 m hm hclosed 2).2 false

end Fleet

end BoundedResources
