import BoundedResources.Proofs.Limiter.Isolation

/-!
# A client does not notice the others

All clients of a meter share a table of buckets, and one sweeper goes over all of them. Whether a
sweep is due, and which buckets it finds idle, is a matter of the clock; a call makes a bucket or
spends from it under its own key. So two meters whose sweepers are the same and which have the same
bucket under a key (`SweptBuckets.Alike`) stay that way, whether or not a turn that asks for another
key is taken at one of them.

**`SweptBuckets.key_alone`** compares the two histories as wholes: what the calls for a key are told
and which bucket the key has is as if nobody had ever asked for another key.
-/

set_option autoImplicit false

namespace BoundedResources

/-- What happens to swept buckets in one turn. -/
inductive SweptTurn where
  /-- Somebody asks for requests of a key. -/
  | spend (key : String) (allowance : Allowance) (period : Duration) (n : Nat)
  /-- Somebody sweeps by hand, as of a moment. -/
  | sweep (asOf : Nat)
  /-- The sweeper runs the sweeps that are due. -/
  | settle
  /-- The sweeper is stopped. -/
  | close

/-- Whether a turn stays when all calls for other keys are taken away. -/
def SweptTurn.staysFor (key : String) : SweptTurn → Bool
  | .spend k _ _ _ => k = key
  | .sweep _ | .settle | .close => true

theorem TokenBuckets.AgreeOn.sweeps {keys : String → Prop} {t t' : TokenBuckets}
    (h : t.AgreeOn keys t') (now : Nat) (due : List Nat) :
    (due.foldl (fun b _ => (b.sweep now).2) t).AgreeOn keys
      (due.foldl (fun b _ => (b.sweep now).2) t') := by
  induction due generalizing t t' with
  | nil => exact h
  | cons _ rest ih => exact ih (h.turn now (.sweep now))

namespace SweptBuckets

/-- The buckets after a turn at `now`. -/
def turn (s : SweptBuckets) (now : Nat) : SweptTurn → SweptBuckets
  | .spend key allowance period n => (s.spend now key allowance period n).2
  | .sweep asOf => (s.sweep asOf).2
  | .settle => s.settle now
  | .close => s.close

/-- The buckets after some turns, each with the moment at which it is taken. -/
def run (s : SweptBuckets) (turns : List (Nat × SweptTurn)) : SweptBuckets := runTurns turn s turns

/-- What a turn tells those who ask for a key. -/
def verdict (key : String) (s : SweptBuckets) (now : Nat) : SweptTurn → List Verdict
  | .spend k allowance period n =>
    if k = key then [(s.spend now k allowance period n).1] else []
  | .sweep _ | .settle | .close => []

/-- What those who ask for a key are told in the course of some turns. -/
def verdicts (s : SweptBuckets) (key : String) (turns : List (Nat × SweptTurn)) : List Verdict :=
  runReports turn (verdict key) s turns

variable {s s' : SweptBuckets} {key : String}

/-- Two meters are swept alike and have the same bucket under a key. -/
structure Alike (key : String) (s s' : SweptBuckets) : Prop where
  buckets : TokenBuckets.AgreeOn (· = key) s.buckets s'.buckets
  sweeper : s.sweeper = s'.sweeper

/-- The sweepers are due at the same moments, and find the same buckets of the key. -/
theorem Alike.settle (h : Alike key s s') (now : Nat) :
    Alike key (s.settle now) (s'.settle now) := by
  unfold SweptBuckets.settle
  rw [← h.sweeper]
  cases s.sweeper with
  | none => exact h
  | some ticker => exact ⟨h.buckets.sweeps now _, rfl⟩

/-- Meters that are alike take any turn alike. -/
theorem Alike.turn (h : Alike key s s') (now : Nat) (t : SweptTurn) :
    s.verdict key now t = s'.verdict key now t ∧ Alike key (s.turn now t) (s'.turn now t) := by
  cases t with
  | spend k q p n =>
    refine ⟨?_, h.buckets.turn now (.spend k q p n), h.sweeper⟩
    simp only [verdict]
    split
    · rename_i hk
      have hverdict := TokenBuckets.spend_congr (h.buckets.same k hk) now q p n
      exact congrArg (fun v => [v]) hverdict
    · rfl
  | sweep asOf => exact ⟨rfl, h.buckets.turn now (.sweep asOf), h.sweeper⟩
  | settle => exact ⟨rfl, h.settle now⟩
  | close => exact ⟨rfl, h.buckets, rfl⟩

/-- A call for another key is not told to the clients of this one, and changes nothing for them. -/
theorem Alike.turn_left (h : Alike key s s') {t : SweptTurn} (hgone : t.staysFor key = false)
    (now : Nat) : s.verdict key now t = [] ∧ Alike key (s.turn now t) s' := by
  cases t with
  | spend k q p n =>
    have hk : k ≠ key := by simpa [SweptTurn.staysFor] using hgone
    exact ⟨if_neg hk, h.buckets.spend_left hk now q p n, h.sweeper⟩
  | sweep | settle | close => cases hgone

/-- Meters that are alike stay so, and tell the clients of the key the same, when all calls for
other keys are taken away at one of them. -/
theorem Alike.run (h : Alike key s s') (turns : List (Nat × SweptTurn)) :
    s.verdicts key turns = s'.verdicts key (turns.filter fun t => t.2.staysFor key) ∧
      Alike key (s.run turns) (s'.run (turns.filter fun t => t.2.staysFor key)) := by
  induction turns generalizing s s' with
  | nil => exact ⟨rfl, h⟩
  | cons e rest ih =>
    obtain ⟨now, t⟩ := e
    cases hstays : t.staysFor key with
    | true =>
      obtain ⟨htold, hnext⟩ := h.turn now t
      obtain ⟨hverdicts, hrun⟩ := ih hnext
      rw [List.filter_cons_of_pos (by exact hstays)]
      exact ⟨congrArg₂ (· ++ ·) htold hverdicts, hrun⟩
    | false =>
      obtain ⟨hnothing, hnext⟩ := h.turn_left hstays now
      obtain ⟨hverdicts, hrun⟩ := ih hnext
      rw [List.filter_cons_of_neg (by simp [hstays])]
      exact ⟨(congrArg (· ++ _) hnothing).trans hverdicts, hrun⟩

/-- **A key does not notice the calls for other keys.**

Whatever turns are taken at a meter that starts without buckets, with a sweeper or without one: the
calls for a key are told the same, one by one, and the key has the same bucket in the end, or none,
as if the calls for all other keys had not been made and the clock and the sweeps had been the
same. -/
theorem key_alone (sweeper : Option Ticker) (key : String) (turns : List (Nat × SweptTurn)) :
    let s : SweptBuckets := ⟨.empty, sweeper⟩
    let alone := turns.filter fun t => t.2.staysFor key
    s.verdicts key turns = s.verdicts key alone ∧
      (s.run turns).buckets.buckets.get? key = (s.run alone).buckets.buckets.get? key := by
  intro s alone
  have hstart : Alike key s s := ⟨TokenBuckets.agreeOn_empty (· = key), rfl⟩
  obtain ⟨hverdicts, hrun⟩ := hstart.run turns
  exact ⟨hverdicts, hrun.buckets.same key rfl⟩

end SweptBuckets

end BoundedResources
