import BoundedResources.Pool.Session

/-!
# The dials of a new pool

A pool that is set up opens its minimum of connections one after the other and stops at the first
that cannot be opened. Nobody has a hold of it yet: nobody lets a dial through its gate, and so how
a dial ends follows from its plan alone (`DialPlan.fate`).

`Seeding` lists what the loop over the dials can come to, for any number of dials and any ends of
them, and `PoolSession.seed_cases` says that it comes to nothing else.
-/

set_option autoImplicit false

namespace BoundedResources

/-! ## Ends of dials -/

namespace DialOutcome

/-- Whether a dial has opened a connection. -/
def opens : DialOutcome → Bool
  | .opened _ => true
  | .failed _ | .timedOut => false

/-- What is told of a dial that has opened no connection. -/
def error? (config : PoolConfig) : DialOutcome → Option PoolError
  | .opened _ => none
  | .failed cause => some (.dial config.target cause)
  | .timedOut => some (.dialTimeout config.target config.connectTimeout)

theorem error?_of_opens (config : PoolConfig) {outcome : DialOutcome} (h : outcome.opens = true) :
    outcome.error? config = none := by
  cases outcome with
  | opened sick => rfl
  | failed cause => cases h
  | timedOut => cases h

theorem opens_or_error? (config : PoolConfig) (outcome : DialOutcome) :
    outcome.opens = true ∨ ∃ e, outcome.error? config = some e := by
  cases outcome with
  | opened sick => exact .inl rfl
  | failed cause => exact .inr ⟨_, rfl⟩
  | timedOut => exact .inr ⟨_, rfl⟩

end DialOutcome

/-- How a dial ends that nobody lets through its gate. -/
def DialPlan.fate (plan : DialPlan) (timeout : Duration) : DialOutcome :=
  if plan.gated || plan.delay.any fun d => timeout.nanos ≤ d.nanos then .timedOut
  else match plan.failure with
    | some cause => .failed cause
    | none => .opened plan.sick

/-- The moment at which a dial is begun decides only when it ends. -/
theorem DialPlan.exists_ending (plan : DialPlan) (timeout : Duration) (now deadline : Nat) :
    ∃ later, (if plan.gated then (DialOutcome.timedOut, deadline)
      else plan.outcome timeout now deadline) = (plan.fate timeout, later) := by
  unfold outcome fate
  cases plan.gated with
  | true => exact ⟨_, rfl⟩
  | false =>
    cases plan.delay with
    | none => exact ⟨_, rfl⟩
    | some d =>
      by_cases hlate : timeout.nanos ≤ d.nanos
      · exact ⟨max now deadline, by simp [hlate]⟩
      · refine ⟨now + d.nanos, ?_⟩
        cases plan.failure with
        | none => simp [hlate]
        | some cause => simp [hlate]

namespace Dialer

/-- The plan of the dial that follows the next `k` ones. -/
def upcoming (d : Dialer) (k : Nat) : DialPlan := d.script.getD k .plain

theorem begin_fst (d : Dialer) : d.begin.1 = d.upcoming 0 := by
  unfold begin upcoming
  cases d.script <;> rfl

theorem upcoming_begin (d : Dialer) (k : Nat) : d.begin.2.upcoming k = d.upcoming (k + 1) := by
  unfold begin upcoming
  cases d with
  | mk script _ _ _ => cases script <;> rfl

theorem conclude_of_error {d : Dialer} {config : PoolConfig} {outcome : DialOutcome} {e : PoolError}
    (h : outcome.error? config = some e) : d.conclude config outcome = (.error e, d) := by
  cases outcome with
  | opened sick => cases h
  | failed cause => cases h; rfl
  | timedOut => cases h; rfl

end Dialer

/-! ## The loop -/

/-- A connection on which nothing was noted. -/
def Connection.untagged (number : Nat) : Connection := ⟨number, ""⟩

/-- What `n` dials for a new pool can come to, how many of them are begun, and how many connections
are opened, of which the first has the number `first`. -/
inductive Seeding (config : PoolConfig) (fates : Nat → DialOutcome) (first n : Nat) :
    Except PoolError (List Connection) → Nat → Nat → Prop where
  /-- All dials have opened a connection. -/
  | complete (hall : ∀ k < n, (fates k).opens = true) :
    Seeding config fates first n (.ok ((List.range' first n).map .untagged)) n n
  /-- A dial has failed or taken too long, and none is begun after it. -/
  | broken {k : Nat} {e : PoolError} (hk : k < n) (hbefore : ∀ j < k, (fates j).opens = true)
    (herror : (fates k).error? config = some e) :
    Seeding config fates first n (.error e) (k + 1) k

namespace Seeding

variable {config : PoolConfig} {fates : Nat → DialOutcome} {first n begun made : Nat}
  {result : Except PoolError (List Connection)}

/-- A dial that opens a connection comes before the others. -/
theorem next (hopens : (fates 0).opens = true)
    (h : Seeding config (fun k => fates (k + 1)) (first + 1) n result begun made) :
    Seeding config fates first (n + 1) (result.map (.untagged first :: ·)) (begun + 1)
      (made + 1) := by
  have hfirst {m : Nat} (hrest : ∀ k < m, (fates (k + 1)).opens = true) :
      ∀ k < m + 1, (fates k).opens = true := by
    intro k hk
    cases k with
    | zero => exact hopens
    | succ k => exact hrest k (Nat.lt_of_succ_lt_succ hk)
  cases h with
  | complete hall => exact .complete (hfirst hall)
  | broken hk hbefore herror => exact .broken (Nat.succ_lt_succ hk) (hfirst hbefore) herror

end Seeding

namespace PoolSession

variable (config : PoolConfig) (n : Nat) (dialer : Dialer) (now : Nat) (conns : List Connection)

theorem seed_succ_of_error {e : PoolError}
    (herror : ((dialer.upcoming 0).fate config.connectTimeout).error? config = some e) :
    ∃ dialer' later, seed config (n + 1) dialer now conns = (.error e, dialer', later) ∧
      dialer'.begun = dialer.begun + 1 ∧ dialer'.made = dialer.made := by
  obtain ⟨later, hending⟩ := dialer.begin.1.exists_ending config.connectTimeout now
    (ceilMillis (now + config.connectTimeout.nanos))
  refine ⟨dialer.begin.2, later, ?_, dialer.begun_begin, dialer.made_begin⟩
  rw [← dialer.begin_fst] at herror
  rw [seed]
  simp only [hending, Dialer.conclude_of_error herror]

theorem seed_succ_of_opens
    (hopens : ((dialer.upcoming 0).fate config.connectTimeout).opens = true) :
    ∃ dialer' later, seed config (n + 1) dialer now conns =
        seed config n dialer' later (conns ++ [.untagged (dialer.made + 1)]) ∧
      dialer'.begun = dialer.begun + 1 ∧ dialer'.made = dialer.made + 1 ∧
      ∀ k, dialer'.upcoming k = dialer.upcoming (k + 1) := by
  obtain ⟨later, hending⟩ := dialer.begin.1.exists_ending config.connectTimeout now
    (ceilMillis (now + config.connectTimeout.nanos))
  rw [← dialer.begin_fst] at hopens
  cases hfate : dialer.begin.1.fate config.connectTimeout with
  | failed cause => rw [hfate] at hopens; cases hopens
  | timedOut => rw [hfate] at hopens; cases hopens
  | opened sick =>
    refine ⟨(dialer.begin.2.conclude config (.opened sick)).2, later, ?_, dialer.begun_begin, ?_,
      dialer.upcoming_begin⟩
    · rw [seed]
      simp only [hending, hfate, ← dialer.made_begin]
      rfl
    · exact congrArg (· + 1) dialer.made_begin

/-- **The loop over the dials of a new pool ends with all the connections or at the first dial that
opens none.** -/
theorem seed_cases :
    ∃ result dialer' later begun made,
      seed config n dialer now conns = (result.map (conns ++ ·), dialer', later) ∧
        Seeding config (fun k => (dialer.upcoming k).fate config.connectTimeout) (dialer.made + 1) n
          result begun made ∧
        dialer'.begun = dialer.begun + begun ∧ dialer'.made = dialer.made + made := by
  induction n generalizing dialer now conns with
  | zero =>
    refine ⟨.ok [], dialer, now, 0, 0, ?_, .complete fun k hk => absurd hk (Nat.not_lt_zero k),
      rfl, rfl⟩
    show (Except.ok conns, dialer, now) = (Except.ok (conns ++ []), dialer, now)
    rw [List.append_nil]
  | succ n ih =>
    rcases ((dialer.upcoming 0).fate config.connectTimeout).opens_or_error? config with
      hopens | ⟨e, herror⟩
    · obtain ⟨next, later, hseed, hbegun, hmade, hupcoming⟩ :=
        seed_succ_of_opens config n dialer now conns hopens
      obtain ⟨result, dialer', later', begun, made, hrest, hseeding, hbegun', hmade'⟩ :=
        ih next later (conns ++ [.untagged (dialer.made + 1)])
      simp only [hupcoming, hmade] at hseeding
      refine ⟨result.map (.untagged (dialer.made + 1) :: ·), dialer', later', begun + 1, made + 1,
        ?_, .next hopens hseeding, by omega, by omega⟩
      rw [hseed, hrest]
      cases result with
      | error e => rfl
      | ok new => simp [Except.map]
    · obtain ⟨dialer', later, hseed, hbegun, hmade⟩ :=
        seed_succ_of_error config n dialer now conns herror
      exact ⟨.error e, dialer', later, 1, 0, hseed,
        .broken (Nat.succ_pos n) (fun j hj => absurd hj (Nat.not_lt_zero j)) herror, hbegun, hmade⟩

variable {config n dialer now conns}

theorem seed_eq_ok {conns' : List Connection} {dialer' : Dialer} {later : Nat}
    (h : seed config n dialer now conns = (.ok conns', dialer', later)) :
    conns' = conns ++ (List.range' (dialer.made + 1) n).map .untagged ∧
      dialer'.made = dialer.made + n := by
  obtain ⟨result, dialer'', later', begun, made, hseed, hseeding, -, hmade⟩ :=
    seed_cases config n dialer now conns
  rw [h, Prod.mk.injEq, Prod.mk.injEq] at hseed
  obtain ⟨hresult, rfl, -⟩ := hseed
  cases hseeding with
  | complete hall => exact ⟨Except.ok.inj hresult, hmade⟩
  | broken hk hbefore herror => cases hresult

end PoolSession

end BoundedResources
