/-!
# Runs of turns

A store, a fleet of pools and a meter are shared: whoever uses them takes turns at them, each turn
at a moment that it brings along. What a turn is and does is different for each of them. What a run
of turns is, what is reported in the course of it, and that a run keeps what each of its turns
keeps, is not, and is said here.
-/

set_option autoImplicit false

namespace BoundedResources

variable {S T : Type} {turn : S → Nat → T → S}

/-- The state after some turns, each with the moment at which it is taken. -/
def runTurns (turn : S → Nat → T → S) (s : S) : List (Nat × T) → S
  | [] => s
  | (now, t) :: rest => runTurns turn (turn s now t) rest

theorem runTurns_append (turn : S → Nat → T → S) (s : S) (ts ts' : List (Nat × T)) :
    runTurns turn s (ts ++ ts') = runTurns turn (runTurns turn s ts) ts' := by
  induction ts generalizing s with
  | nil => rfl
  | cons t rest ih => exact ih _

/-- A loop that takes a turn for each item of a list is a run of these turns. -/
theorem foldl_eq_runTurns {α : Type} (turn : S → Nat → T → S) (now : Nat) (f : α → T)
    (l : List α) (s : S) :
    l.foldl (fun s a => turn s now (f a)) s = runTurns turn s (l.map fun a => (now, f a)) := by
  induction l generalizing s with
  | nil => rfl
  | cons a rest ih => exact ih _

/-- A loop that takes the same turn so many times is a run of so many turns. -/
theorem foldl_range_eq_runTurns (turn : S → Nat → T → S) (now : Nat) (t : T) (n : Nat) (s : S) :
    (List.range n).foldl (fun s _ => turn s now t) s =
      runTurns turn s (List.replicate n (now, t)) := by
  refine (foldl_eq_runTurns turn now (fun _ => t) (List.range n) s).trans ?_
  rw [List.map_const', List.length_range]

/-- **What some turns keep holds after every run of them.** -/
theorem runTurns_induction_of (allowed : Nat → T → Prop) {P : S → Prop} {s : S} (hs : P s)
    (hturn : ∀ s now t, allowed now t → P s → P (turn s now t)) (turns : List (Nat × T))
    (hall : ∀ t ∈ turns, allowed t.1 t.2) : P (runTurns turn s turns) := by
  induction turns generalizing s with
  | nil => exact hs
  | cons t rest ih =>
    obtain ⟨ht, hrest⟩ := List.forall_mem_cons.mp hall
    exact ih (hturn s t.1 t.2 ht hs) hrest

/-- **What every turn keeps holds after every run.** -/
theorem runTurns_induction {P : S → Prop} {s : S} (hs : P s)
    (hturn : ∀ s now t, P s → P (turn s now t)) (turns : List (Nat × T)) :
    P (runTurns turn s turns) :=
  runTurns_induction_of (fun _ _ => True) hs (fun s now t _ h => hturn s now t h) turns
    fun _ _ => trivial

/-- **What some turns keep and time does not end holds after every run of them in the order of
time**, as of the last of their moments. -/
theorem runTurns_induction_ordered (allowed : Nat → T → Prop) {P : Nat → S → Prop}
    (hlater : ∀ past now s, past ≤ now → P past s → P now s)
    (hturn : ∀ now s t, allowed now t → P now s → P now (turn s now t)) {past : Nat} {s : S}
    (hs : P past s) {turns : List (Nat × T)} (hordered : turns.Pairwise fun x y => x.1 ≤ y.1)
    (hpast : ∀ t ∈ turns, past ≤ t.1) (hall : ∀ t ∈ turns, allowed t.1 t.2) :
    ∃ last, (∀ now, past ≤ now → (∀ t ∈ turns, t.1 ≤ now) → last ≤ now) ∧
      P last (runTurns turn s turns) := by
  induction turns generalizing past s with
  | nil => exact ⟨past, fun _ hle _ => hle, hs⟩
  | cons t rest ih =>
    obtain ⟨hafter, hrest⟩ := List.pairwise_cons.mp hordered
    obtain ⟨ht, hallowed⟩ := List.forall_mem_cons.mp hall
    have hnow : P t.1 s := hlater past t.1 s (hpast t List.mem_cons_self) hs
    obtain ⟨last, hlast, hend⟩ := ih (hturn t.1 s t.2 ht hnow) hrest hafter hallowed
    refine ⟨last, fun now _ hbound => ?_, hend⟩
    obtain ⟨hfirst, hbound⟩ := List.forall_mem_cons.mp hbound
    exact hlast now hfirst hbound

/-! ## Reports -/

variable {R : Type} {report : S → Nat → T → List R}

/-- What is reported in the course of some turns, where `report` tells what there is to report of
one of them, before it is taken. -/
def runReports (turn : S → Nat → T → S) (report : S → Nat → T → List R) (s : S) :
    List (Nat × T) → List R
  | [] => []
  | (now, t) :: rest => report s now t ++ runReports turn report (turn s now t) rest

/-- A turn of a state that carries its reports along. -/
def reporting (turn : S → Nat → T → S) (report : S → Nat → T → List R) (x : S × List R)
    (now : Nat) (t : T) : S × List R :=
  (turn x.1 now t, x.2 ++ report x.1 now t)

theorem runTurns_reporting (turn : S → Nat → T → S) (report : S → Nat → T → List R) (s : S)
    (past : List R) (turns : List (Nat × T)) :
    runTurns (reporting turn report) (s, past) turns =
      (runTurns turn s turns, past ++ runReports turn report s turns) := by
  induction turns generalizing s past with
  | nil => rw [runTurns, runTurns, runReports, List.append_nil]
  | cons t rest ih =>
    rw [runTurns, runTurns, runReports, ← List.append_assoc]
    exact ih _ _

/-- **What some turns keep of a state and the reports so far holds after every run of them.** -/
theorem runReports_induction_of (allowed : Nat → T → Prop) (report : S → Nat → T → List R)
    {P : S → List R → Prop} {s : S} (hs : P s [])
    (hturn : ∀ s past now t, allowed now t → P s past →
      P (turn s now t) (past ++ report s now t))
    (turns : List (Nat × T)) (hall : ∀ t ∈ turns, allowed t.1 t.2) :
    P (runTurns turn s turns) (runReports turn report s turns) := by
  have hrun : P (runTurns (reporting turn report) (s, []) turns).1
      (runTurns (reporting turn report) (s, []) turns).2 :=
    runTurns_induction_of allowed (P := fun x : S × List R => P x.1 x.2) hs
      (fun x now t ht h => hturn x.1 x.2 now t ht h) turns hall
  rwa [runTurns_reporting] at hrun

/-- **What every turn keeps of a state and the reports so far holds after every run.** -/
theorem runReports_induction (report : S → Nat → T → List R) {P : S → List R → Prop} {s : S}
    (hs : P s [])
    (hturn : ∀ s past now t, P s past → P (turn s now t) (past ++ report s now t))
    (turns : List (Nat × T)) : P (runTurns turn s turns) (runReports turn report s turns) :=
  runReports_induction_of (fun _ _ => True) report hs
    (fun s past now t _ h => hturn s past now t h) turns fun _ _ => trivial

/-- **What every turn keeps of a state and the reports so far, and time does not end, holds after
every run in the order of time**, as of some moment. -/
theorem runReports_induction_ordered (report : S → Nat → T → List R)
    {P : Nat → S → List R → Prop}
    (hlater : ∀ first now s past, first ≤ now → P first s past → P now s past)
    (hturn : ∀ now s past t, P now s past → P now (turn s now t) (past ++ report s now t))
    {first : Nat} {s : S} (hs : P first s []) {turns : List (Nat × T)}
    (hordered : turns.Pairwise fun x y => x.1 ≤ y.1) (hfirst : ∀ t ∈ turns, first ≤ t.1) :
    ∃ last, P last (runTurns turn s turns) (runReports turn report s turns) := by
  obtain ⟨last, -, hrun⟩ := runTurns_induction_ordered (fun _ _ => True)
    (P := fun now (x : S × List R) => P now x.1 x.2)
    (fun first now x hle h => hlater first now x.1 x.2 hle h)
    (show ∀ now x t, True → P now x.1 x.2 →
        P now (reporting turn report x now t).1 (reporting turn report x now t).2 from
      fun now x t _ h => hturn now x.1 x.2 t h)
    (show P first (s, []).1 (s, []).2 from hs) hordered hfirst fun _ _ => trivial
  rw [runTurns_reporting] at hrun
  exact ⟨last, hrun⟩

/-! ## Reachable states -/

/-- Some turns lead from one state to the other. -/
def Leads (turn : S → Nat → T → S) (s s' : S) : Prop := ∃ turns, runTurns turn s turns = s'

namespace Leads

theorem refl (s : S) : Leads turn s s := ⟨[], rfl⟩

theorem trans {s s' s'' : S} (h : Leads turn s s') (h' : Leads turn s' s'') :
    Leads turn s s'' := by
  obtain ⟨ts, rfl⟩ := h
  obtain ⟨ts', rfl⟩ := h'
  exact ⟨ts ++ ts', runTurns_append turn s ts ts'⟩

theorem single (s : S) (now : Nat) (t : T) : Leads turn s (turn s now t) := ⟨[(now, t)], rfl⟩

end Leads

end BoundedResources
