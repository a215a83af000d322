import BoundedResources.Proofs.Pool.Obligations

/-!
# Setting a pool up

A pool that is set up is there with all of its minimum of connections, or not at all. Which of the
two it is follows from the ends of its dials alone. If one of the first `m` of them opens no
connection, `m` being the minimum of the normalized configuration, then whoever asked for the pool
is told of the first such dial, no further dial is begun, and nothing that was opened before it
stays open (`Member.GivenUp`). Otherwise the pool has `m` idle connections in the order of their
dials, and its books are those of a pool in which nothing has happened yet (`Member.Stocked`).

**`PoolSession.connect_all_or_nothing`** says so for every infinite sequence of ends; of the script
of a dialer only the first `m` plans matter. The induction is that of `PoolSession.seed_cases`.
-/

set_option autoImplicit false

namespace BoundedResources

/-! ## New slots -/

/-- The slot of a connection that was opened for a new pool, both of one number. -/
def Slot.initial (now number : Nat) : Slot := ⟨number, some (.untagged number), now, now, 0⟩

namespace PoolSession

/-- Connections with the numbers of the next slots are put into these slots. -/
theorem push_untagged (p : Pool) (now n : Nat) :
    ((List.range' p.nextId n).map Connection.untagged).foldl
        (fun p conn => p.push now (some conn)) p =
      { p with
        slots := p.slots ++ (List.range' p.nextId n).map (.initial now)
        nextId := p.nextId + n } := by
  induction n generalizing p with
  | zero => simp
  | succ n ih =>
    have hnext : (p.push now (some (.untagged p.nextId))).nextId = p.nextId + 1 := rfl
    have hslots : (p.push now (some (.untagged p.nextId))).slots =
        p.slots ++ [.initial now p.nextId] := rfl
    rw [List.range'_succ, List.map_cons, List.map_cons, List.foldl_cons, ← hnext, ih, hslots,
      hnext, List.append_assoc, List.singleton_append, Nat.add_assoc, Nat.add_comm 1]
    rfl

theorem seeded_untagged (config : PoolConfig) (now n : Nat) :
    seeded config now ((List.range' 1 n).map .untagged) =
      { Pool.empty config with slots := (List.range' 1 n).map (.initial now), nextId := 1 + n } :=
  push_untagged (.empty config) now n

end PoolSession

/-! ## What there is of a new pool -/

/-- A pool that has just been set up, with so many idle connections. -/
structure Member.Stocked (m : Member) (config : PoolConfig) (now size : Nat) : Prop where
  /-- The slots are numbered in the order of the dials, as the connections are, and no connection
  was checked out yet. -/
  slots : m.pool.slots = (List.range' 1 size).map (.initial now)
  /-- The rest of the books is as for a pool without connections. -/
  books : m.pool = { Pool.empty config with slots := m.pool.slots, nextId := 1 + size }
  begun : m.dialer.begun = size
  made : m.dialer.made = size
  attached : m.attached = true
  sweeps : m.ticker = some (.start now config.healthInterval)

/-- What is left of a pool that could not be set up, after it had opened so many connections. -/
structure Member.GivenUp (m : Member) (config : PoolConfig) (opened : Nat) : Prop where
  pool : m.pool = (Pool.empty config).close
  /-- The dial that has opened no connection was the last. -/
  begun : m.dialer.begun = opened + 1
  made : m.dialer.made = opened
  attached : m.attached = false
  sweeps : m.ticker = none

namespace PoolSession

/-- What setting a pool up can come to. -/
inductive ConnectEnds (config : PoolConfig) (fates : Nat → DialOutcome) (now : Nat) :
    Except PoolError Unit → Member → Prop where
  | stocked {m : Member} (hall : ∀ k < config.minSize, (fates k).opens = true)
    (hm : m.Stocked config now config.minSize) : ConnectEnds config fates now (.ok ()) m
  | givenUp {k : Nat} {e : PoolError} {m : Member} (hk : k < config.minSize)
    (hbefore : ∀ j < k, (fates j).opens = true) (herror : (fates k).error? config = some e)
    (hm : m.GivenUp config k) : ConnectEnds config fates now (.error e) m

/-- Only the ends of the dials that are wanted matter. -/
theorem ConnectEnds.congr {config : PoolConfig} {fates fates' : Nat → DialOutcome} {now : Nat}
    {result : Except PoolError Unit} {m : Member}
    (heq : ∀ k < config.minSize, fates k = fates' k)
    (h : ConnectEnds config fates now result m) : ConnectEnds config fates' now result m := by
  cases h with
  | stocked hall hm => exact .stocked (fun k hk => heq k hk ▸ hall k hk) hm
  | givenUp hk hbefore herror hm =>
    exact .givenUp hk (fun j hj => heq j (Nat.lt_trans hj hk) ▸ hbefore j hj) (heq _ hk ▸ herror) hm

theorem connect_ends (s : PoolSession) (config : PoolConfig) (script : List DialPlan) :
    ∃ m, (s.connect config script).2.fleet = { s.fleet with members := s.fleet.members ++ [m] } ∧
      ConnectEnds config.normalized
        (fun k => (script.getD k .plain).fate config.connectTimeout)
        (s.connect config script).2.now (s.connect config script).1 m := by
  obtain ⟨result, dialer, later, begun, made, hseed, hseeding, hbegun, hmade⟩ :=
    seed_cases config.normalized config.normalized.minSize (.fresh script) s.now []
  have hfresh : (Dialer.fresh script).begun = 0 ∧ (Dialer.fresh script).made = 0 := ⟨rfl, rfl⟩
  rw [hfresh.2, Nat.zero_add] at hseeding
  rw [hfresh.1, Nat.zero_add] at hbegun
  rw [hfresh.2, Nat.zero_add] at hmade
  unfold connect
  simp only [hseed]
  cases hseeding with
  | complete hall =>
    simp only [Except.map, List.nil_append, seeded_untagged]
    exact ⟨_, rfl, .stocked hall ⟨rfl, rfl, hbegun, hmade, rfl, rfl⟩⟩
  | broken hk hbefore herror =>
    exact ⟨_, rfl, .givenUp hk hbefore herror ⟨rfl, hbegun, hmade, rfl, rfl⟩⟩

end PoolSession

/-! ## The connections of a new pool -/

section NewPool

variable {f : Fleet} {m : Member} {config : PoolConfig}

/-- The connections that are open of a pool which has just joined are the idle ones. -/
theorem Fleet.Sound.openNumbers_join (h : f.Sound [] []) (m : Member) :
    ({ f with members := f.members ++ [m] } : Fleet).openNumbers f.members.length =
      m.pool.slots.filterMap fun s => s.conn.map (·.number) := by
  have hnobody : (f.handles.filter fun p => p.2.pool == f.members.length) = [] := by
    refine List.filter_eq_nil_iff.mpr fun p hp => ?_
    have hlt := h.issuers p.2 (List.mem_append_left _ (List.mem_map_of_mem hp))
    simpa using Nat.ne_of_lt hlt
  unfold Fleet.openNumbers
  simp only [List.getElem?_concat_length, hnobody, List.map_nil, List.append_nil]

theorem Member.Stocked.idle_numbers {now size : Nat} (h : m.Stocked config now size) :
    m.pool.slots.filterMap (fun s => s.conn.map (·.number)) = List.range' 1 size := by
  rw [h.slots, List.filterMap_map]
  exact List.filterMap_some

theorem Member.GivenUp.idle_numbers {opened : Nat} (h : m.GivenUp config opened) :
    m.pool.slots.filterMap (fun s => s.conn.map (·.number)) = [] := by
  rw [h.pool]
  rfl

end NewPool

/-- Whatever the ends of the first dials are to be, there is a script for them. -/
theorem DialOutcome.exists_script (fates : Nat → DialOutcome) (timeout : Duration) (n : Nat) :
    ∃ script : List DialPlan, ∀ k < n, (script.getD k .plain).fate timeout = fates k := by
  have hplan (outcome : DialOutcome) : ∃ plan : DialPlan, plan.fate timeout = outcome := by
    cases outcome with
    | opened sick => exact ⟨⟨false, none, none, sick⟩, rfl⟩
    | failed cause => exact ⟨⟨false, none, some cause, false⟩, rfl⟩
    | timedOut => exact ⟨⟨true, none, none, false⟩, rfl⟩
  choose plan hplan using hplan
  refine ⟨(List.range n).map fun k => plan (fates k), fun k hk => ?_⟩
  simp [List.getElem?_range hk, hplan]

namespace PoolSession

/-- **A pool is set up with all of its connections or not at all.** -/
theorem connect_all_or_nothing (s : PoolSession) (hs : Fleet.empty.Reaches s.fleet)
    (config : PoolConfig) (fates : Nat → DialOutcome) (script : List DialPlan)
    (hplays : ∀ k < min config.minSize (max config.maxSize 1),
      (script.getD k .plain).fate config.connectTimeout = fates k) :
    let wanted := min config.minSize (max config.maxSize 1)
    let s' := (s.connect config script).2
    ∃ m, s'.fleet = { s.fleet with members := s.fleet.members ++ [m] } ∧
      ((s.connect config script).1 = .ok () ↔ ∀ k < wanted, (fates k).opens = true) ∧
      ((s.connect config script).1 = .ok () →
        m.Stocked config.normalized s'.now wanted ∧
          s'.fleet.openNumbers s.fleet.members.length = List.range' 1 wanted) ∧
      ∀ e, (s.connect config script).1 = .error e →
        ∃ k < wanted, (∀ j < k, (fates j).opens = true) ∧ (fates k).error? config = some e ∧
          m.GivenUp config.normalized k ∧
          s'.fleet.openNumbers s.fleet.members.length = [] := by
  intro wanted s'
  obtain ⟨turns, hturns⟩ := hs
  have hsound : s.fleet.Sound [] [] := hturns ▸ Fleet.sound_run turns
  obtain ⟨m, hfleet, hends⟩ := s.connect_ends config script
  have hopen : s'.fleet.openNumbers s.fleet.members.length =
      m.pool.slots.filterMap fun slot => slot.conn.map (·.number) :=
    hfleet ▸ hsound.openNumbers_join m
  refine ⟨m, hfleet, ?_⟩
  rw [hopen]
  have hended := hends.congr hplays
  generalize (s.connect config script).1 = result at hended ⊢
  cases hended with
  | stocked hall hm =>
    exact ⟨iff_of_true rfl hall, fun _ => ⟨hm, hm.idle_numbers⟩, fun _ h => nomatch h⟩
  | @givenUp k e _ hk hbefore herror hm =>
    have hbroken : ¬∀ j < wanted, (fates j).opens = true := by
      intro hall
      have hfails := DialOutcome.error?_of_opens config (hall k hk)
      exact nomatch hfails.symm.trans herror
    refine ⟨iff_of_false nofun hbroken, nofun, fun e' he => ?_⟩
    obtain rfl := Except.error.inj he
    exact ⟨k, hk, hbefore, herror, hm, hm.idle_numbers⟩

/-- The third dial of four waits at its gate: two connections were open, and none stays. -/
theorem connect_all_or_nothing_third_times_out :
    let config := { PoolConfig.standard "db:1" with maxSize := 4, minSize := 9 }
    let script := [.plain, ⟨false, some (.ofSecs 1), none, true⟩, ⟨true, none, none, false⟩]
    let fates : Nat → DialOutcome := fun k => if k = 1 then .opened true else
      if k = 2 then .timedOut else .opened false
    (start.connect config script).1 = .error (.dialTimeout "db:1" (.ofSecs 5)) ∧
      ∃ k < 4, (fates k).error? config = some (.dialTimeout "db:1" (.ofSecs 5)) ∧
        (start.connect config script).2.fleet.openNumbers 0 = [] := by
  intro config script fates
  have hplays : ∀ k < 4, (script.getD k .plain).fate config.connectTimeout = fates k := by decide
  have hresult : (start.connect config script).1 = .error (.dialTimeout "db:1" (.ofSecs 5)) := rfl
  obtain ⟨m, -, -, -, hfails⟩ :=
    connect_all_or_nothing start (.refl _) config fates script hplays
  obtain ⟨k, hk, -, herror, -, hnone⟩ := hfails _ hresult
  exact ⟨hresult, k, hk, herror, hnone⟩

end PoolSession

end BoundedResources
