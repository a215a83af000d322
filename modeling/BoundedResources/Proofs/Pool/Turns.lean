import BoundedResources.Pool.Event
import BoundedResources.Proofs.Runs

/-!
# Turns at a fleet

The calls on the pools of a fleet, their dials, the holders of handles and the background sweeps
take turns at it. A turn is what happens while a pool is locked, and everything that takes longer
is several turns (`FleetTurn`): a checkout that has to dial is one turn that reserves the dial and
another one, at any later time, that ends it with any outcome; a sweep is one turn that reserves
its dials and one for the end of each of them. So calls interleave wherever they wait, and a call
that waits can be cancelled.

A `PoolSession` plans its dials and keeps the time, but all that it does to its fleet is take
turns (`PoolSession.Arises.reaches`). What holds after every run of turns therefore holds in every
session.
-/

set_option autoImplicit false

namespace BoundedResources

/-- What happens to a fleet in one turn; pools go by index. -/
inductive FleetTurn where
  /-- A pool joins the fleet, with the connections that were opened for it, or failed to be set
  up. -/
  | connect (config : PoolConfig) (script : List DialPlan)
  /-- A connection is checked out, or a dial is reserved and begun for it. -/
  | beginCheckout (pool : Nat) (returns : Bool)
  /-- A sweep prunes, and reserves dials and begins the first of them. -/
  | beginSweep (pool : Nat) (background : Bool)
  /-- The dial of a waiting call has ended. -/
  | endDial (call : Nat) (outcome : DialOutcome)
  | cancel (call : Nat)
  | openGate (pool : Nat)
  /-- A handle is put into a pool, its own or another one. -/
  | put (pool : Nat) (holder : Holder)
  | drop (holder : Holder)
  /-- The handle of a call that has ended goes to a holder of some name. -/
  | deliver (call : Nat) (name : String)
  | tag (holder : Holder) (text : String)
  | close (pool : Nat)
  | detach (pool : Nat)
  /-- Pools that nobody uses any more are closed. -/
  | reap
  | setHealth (pool : Nat) (number : Option Nat) (ok : Bool)
  | script (pool : Nat) (plans : List DialPlan)
  /-- The next background sweep of a pool is planned. -/
  | plan (pool : Nat) (ticker : Ticker)

namespace Fleet

/-- Changes the dialer of a pool. -/
def modifyDialer (f : Fleet) (i : Nat) (change : Dialer → Dialer) : Fleet :=
  { f with members := f.members.modify i fun m => { m with dialer := change m.dialer } }

/-- Plans the next background sweep of a pool. -/
def planSweep (f : Fleet) (i : Nat) (ticker : Ticker) : Fleet :=
  { f with members := f.members.modify i fun m => { m with ticker := some ticker } }

/-- A pool joins the fleet. -/
def connect (f : Fleet) (now : Nat) (config : PoolConfig) (script : List DialPlan) : Fleet :=
  ((⟨now, f, []⟩ : PoolSession).connect config script).2.fleet

/-- A pool that joins a fleet has failed to be set up, or has the connections that were opened for
it. -/
theorem connect_cases (f : Fleet) (now : Nat) (config : PoolConfig) (script : List DialPlan) :
    ∃ (dialer : Dialer) (later : Nat),
      (∃ e, PoolSession.seed config.normalized config.normalized.minSize (.fresh script) now [] =
          (.error e, dialer, later) ∧
        f.connect now config script =
          { f with members := f.members ++ [.failed config.normalized dialer] }) ∨
      ∃ conns, PoolSession.seed config.normalized config.normalized.minSize (.fresh script) now [] =
          (.ok conns, dialer, later) ∧
        f.connect now config script =
          { f with
            members := f.members ++ [⟨PoolSession.seeded config.normalized later conns, dialer,
              true, some (.start later config.normalized.healthInterval)⟩] } := by
  unfold connect PoolSession.connect
  cases hseed : PoolSession.seed config.normalized config.normalized.minSize (.fresh script) now []
    with
  | mk result rest =>
    obtain ⟨dialer, later⟩ := rest
    refine ⟨dialer, later, ?_⟩
    cases result with
    | error e => exact .inl ⟨e, rfl, by simp only [hseed]⟩
    | ok conns => exact .inr ⟨conns, rfl, by simp only [hseed]⟩

/-- A pool joins the others, and nothing happens to them. -/
theorem connect_eq (f : Fleet) (now : Nat) (config : PoolConfig) (script : List DialPlan) :
    ∃ m, f.connect now config script = { f with members := f.members ++ [m] } := by
  obtain ⟨_, _, ⟨_, -, h⟩ | ⟨_, -, h⟩⟩ := f.connect_cases now config script
  · exact ⟨_, h⟩
  · exact ⟨_, h⟩

/-- The fleet after a turn at a moment. -/
def turn (f : Fleet) (now : Nat) : FleetTurn → Fleet
  | .connect config script => f.connect now config script
  | .beginCheckout i returns => (f.beginCheckout now i returns).2
  | .beginSweep i background => (f.beginSweep now i background).2
  | .endDial id outcome => (f.endDial now id outcome).2
  | .cancel id => f.cancel id
  | .openGate i => f.openGate i
  | .put i holder => f.put now i holder
  | .drop holder => f.drop now holder
  | .deliver id name => f.deliver now id name
  | .tag holder text => f.tag holder text
  | .close i => f.close i
  | .detach i => f.detach i
  | .reap => f.reap
  | .setHealth i number ok => f.modifyDialer i fun d => d.setHealth number ok
  | .script i plans => f.modifyDialer i fun d => { d with script := plans }
  | .plan i ticker => f.planSweep i ticker

/-- The fleet after some turns, each with the moment at which it is taken. -/
def run (f : Fleet) (turns : List (Nat × FleetTurn)) : Fleet := runTurns turn f turns

/-- Some turns lead from one fleet to the other. -/
abbrev Reaches (f f' : Fleet) : Prop := Leads turn f f'

theorem reaches_turn (f : Fleet) (now : Nat) (t : FleetTurn) : f.Reaches (f.turn now t) :=
  Leads.single f now t

end Fleet

/-! ## Sessions take turns -/

namespace PoolSession

theorem fleet_note (s : PoolSession) (id : Nat) (status : CallStatus) :
    (s.note id status).fleet = s.fleet := by
  cases status <;> rfl

theorem reaches_endDial (s : PoolSession) (id : Nat) (ending : DialOutcome × Nat) :
    s.fleet.Reaches (s.endDial id ending).2.fleet := by
  obtain ⟨outcome, now⟩ := ending
  unfold endDial
  rw [fleet_note]
  exact s.fleet.reaches_turn now (.endDial id outcome)

theorem reaches_proceedFor (patient : Bool) (fuel : Nat) (status : CallStatus) (s : PoolSession)
    (id : Nat) : s.fleet.Reaches (proceedFor patient fuel status s id).2.fleet := by
  induction fuel generalizing status s with
  | zero => exact .refl _
  | succ fuel ih =>
    unfold proceedFor
    split
    · exact .refl _
    · rename_i ending _
      exact (s.reaches_endDial id ending).trans (ih _ _)

theorem reaches_proceed (patient : Bool) (status : CallStatus) (s : PoolSession) (id : Nat) :
    s.fleet.Reaches (proceed patient status s id).2.fleet := by
  unfold proceed
  split
  · exact .refl _
  · exact reaches_proceedFor patient _ status s id

theorem reaches_handle (s : PoolSession) (due : Due) :
    s.fleet.Reaches (s.handle due).fleet := by
  cases due with
  | deadline id => exact s.reaches_endDial id _
  | tick i ticker =>
    have hplan := s.fleet.reaches_turn s.now (.plan i (ticker.handle s.now))
    have hsweep := (s.fleet.planSweep i (ticker.handle s.now)).reaches_turn s.now
      (.beginSweep i true)
    exact (hplan.trans hsweep).trans (reaches_proceed false _ (s.withFleet _) _)

theorem reaches_settleFor (fuel : Nat) (s : PoolSession) :
    s.fleet.Reaches (settleFor fuel s).fleet := by
  induction fuel generalizing s with
  | zero => exact .refl _
  | succ fuel ih =>
    have hreap := s.fleet.reaches_turn s.now .reap
    unfold settleFor
    simp only
    split
    · exact hreap
    · rename_i due _
      exact hreap.trans ((reaches_handle (s.withFleet s.fleet.reap) due).trans (ih _))

theorem reaches_proceedReleased (s : PoolSession) :
    s.fleet.Reaches s.proceedReleased.fleet := by
  unfold proceedReleased
  generalize (s.fleet.calls.filter (·.released)).map (·.id) = ids
  induction ids generalizing s with
  | nil => exact .refl _
  | cons id rest ih => exact (reaches_proceed false .waiting s id).trans (ih _)

theorem reaches_settle (s : PoolSession) : s.fleet.Reaches s.settle.fleet :=
  s.reaches_proceedReleased.trans (reaches_settleFor _ _)

theorem reaches_connect (s : PoolSession) (config : PoolConfig) (script : List DialPlan) :
    s.fleet.Reaches (s.connect config script).2.fleet :=
  s.fleet.reaches_turn s.now (.connect config script)

theorem reaches_checkout (s : PoolSession) (i : Nat) (returns : Bool) (name : String) :
    s.fleet.Reaches (s.checkout i returns name).2.fleet := by
  have hbegin := s.fleet.reaches_turn s.now (.beginCheckout i returns)
  have hproceed := hbegin.trans (reaches_proceed true (s.fleet.beginCheckout s.now i returns).1
    (s.withFleet (s.fleet.beginCheckout s.now i returns).2) s.fleet.nextCall)
  unfold checkout
  simp only
  split
  · exact hproceed
  · split
    · exact hproceed.trans (Fleet.reaches_turn _ _ (.deliver _ name))
    · exact hproceed

theorem reaches_sweep (s : PoolSession) (i : Nat) : s.fleet.Reaches (s.sweep i).fleet :=
  (s.fleet.reaches_turn s.now (.beginSweep i false)).trans
    (reaches_proceed true _ (s.withFleet _) _)

theorem reaches_keepTask (s : PoolSession) (name : String) (task : PoolTask) :
    s.fleet.Reaches (s.keepTask name task).fleet := by
  unfold keepTask
  simp only
  split
  · exact s.fleet.reaches_turn s.now (.drop _)
  · exact .refl _

theorem reaches_beginCheckout (s : PoolSession) (i : Nat) (returns : Bool) (name : String) :
    s.fleet.Reaches (s.beginCheckout i returns name).fleet := by
  have hbegin := s.fleet.reaches_turn s.now (.beginCheckout i returns)
  refine hbegin.trans (Leads.trans ?_ (reaches_proceed false _ _ _))
  rw [fleet_note]
  exact reaches_keepTask (s.withFleet _) name _

theorem reaches_beginSweep (s : PoolSession) (i : Nat) (name : String) :
    s.fleet.Reaches (s.beginSweep i name).fleet :=
  (s.fleet.reaches_turn s.now (.beginSweep i false)).trans
    ((reaches_keepTask (s.withFleet _) name _).trans (reaches_proceed false _ _ _))

theorem reaches_beginClose (s : PoolSession) (i : Nat) (name : String) :
    s.fleet.Reaches (s.beginClose i name).fleet :=
  (s.fleet.reaches_turn s.now (.close i)).trans (reaches_keepTask (s.withFleet _) name _)

theorem reaches_finish (s : PoolSession) (name : String) :
    s.fleet.Reaches (s.finish name).2.fleet := by
  unfold finish
  cases s.tasks.get? name with
  | none => exact .refl _
  | some task =>
    cases task with
    | checkedOut call result =>
      cases result with
      | error e => exact .refl _
      | ok u =>
        simp only
        split
        · exact .refl _
        · exact s.fleet.reaches_turn s.now (.deliver call name)
    | sweep call =>
      simp only
      split <;> exact .refl _
    | closing pool =>
      simp only
      split <;> exact .refl _
    | checkout | cancelledCheckout | ended => exact .refl _

theorem reaches_cancel (s : PoolSession) (name : String) :
    s.fleet.Reaches (s.cancel name).fleet := by
  unfold cancel
  split
  · exact s.fleet.reaches_turn s.now (.cancel _)
  · exact s.fleet.reaches_turn s.now (.cancel _)
  · exact .refl _
  · exact .refl _

theorem reaches_callPool (s : PoolSession) (i : Nat) {call : Member → PoolReply × PoolSession}
    (h : ∀ m, s.fleet.Reaches (call m).2.fleet) :
    s.fleet.Reaches (s.callPool i call).2.fleet := by
  unfold callPool
  split
  · exact .refl _
  · exact h _

theorem reaches_takePlain (s : PoolSession) (name : String) {take : Fleet → Fleet}
    (h : s.fleet.Reaches (take s.fleet)) :
    s.fleet.Reaches (s.takePlain name take).2.fleet := by
  unfold takePlain
  split
  · exact .refl _
  · exact h

theorem reaches_perform (s : PoolSession) (e : PoolEvent) :
    s.fleet.Reaches (s.perform e).2.fleet := by
  have hturn := s.fleet.reaches_turn s.now
  cases e with
  | checkout i returns name =>
    exact s.reaches_callPool i fun _ => s.reaches_checkout i returns name
  | put i name =>
    exact s.reaches_callPool i fun _ => s.reaches_takePlain name (hturn (.put i (.name name)))
  | discard i name =>
    exact s.reaches_callPool i fun _ => s.reaches_takePlain name (hturn (.drop (.name name)))
  | letGo name => exact hturn (.drop (.name name))
  | tag name text => exact hturn (.tag (.name name) text)
  | look name => exact .refl _
  | stats i => exact s.reaches_callPool i fun _ => .refl _
  | sweep i => exact s.reaches_callPool i fun _ => s.reaches_sweep i
  | close i => exact s.reaches_callPool i fun _ => hturn (.close i)
  | detach i => exact s.reaches_callPool i fun _ => hturn (.detach i)
  | beginCheckout i returns name =>
    exact s.reaches_callPool i fun _ => s.reaches_beginCheckout i returns name
  | beginSweep i name => exact s.reaches_callPool i fun _ => s.reaches_beginSweep i name
  | beginClose i name => exact s.reaches_callPool i fun _ => s.reaches_beginClose i name
  | finish name => exact s.reaches_finish name
  | cancel name => exact s.reaches_cancel name
  | setHealth i number ok => exact hturn (.setHealth i number ok)
  | script i plans => exact hturn (.script i plans)
  | openGate i => exact hturn (.openGate i)
  | advance d => exact .refl _

/-- The sessions that there can be. -/
inductive Arises : PoolSession → Prop where
  | start : Arises .start
  | connect {s : PoolSession} (config : PoolConfig) (script : List DialPlan) :
    Arises s → Arises (s.stepConnect config script).2
  | step {s : PoolSession} (e : PoolEvent) : Arises s → Arises (s.step e).2

/-- **Whatever happens in a session, some turns at an empty fleet lead to the fleet that it has
then.** -/
theorem Arises.reaches {s : PoolSession} (h : s.Arises) : Fleet.empty.Reaches s.fleet := by
  induction h with
  | start => exact .refl _
  | @connect s config script _ ih =>
    exact ih.trans ((s.reaches_connect config script).trans (reaches_settle _))
  | @step s e _ ih => exact ih.trans ((s.reaches_perform e).trans (reaches_settle _))

end PoolSession

end BoundedResources
