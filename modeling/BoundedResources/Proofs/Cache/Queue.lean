import BoundedResources.Cache.WriteOrder

/-!
# The order of writes is a queue with removals

An order keeps the writes that it still knows, and nothing of the others but the number that comes
next. The plain account of a run keeps everything: a log of all writes, the first one first, in
which a write that is forgotten is marked and stays (`WriteLog`). A number is a place in the log, and
what the next step is told is read off the marks.

**`WriteOrder.queue_with_removals`** says that an order cannot be told from the log of its run,
whatever is pushed, removed, popped and cleared, in whatever order and under whatever numbers. The
order is the log without the marked writes, each with its place (`WriteLog.knownFrom`), and every
step is followed through that reading.
-/

set_option autoImplicit false

namespace BoundedResources

/-- What can be done to an order of writes. -/
inductive OrderStep where
  | push (key : String)
  | remove (seq : Nat)
  | popOldest
  | clear

/-- What the caller is told. -/
inductive OrderAnswer where
  /-- The number that a write has drawn. -/
  | drawn (seq : Nat)
  /-- The key of the write that was forgotten, if there was one. -/
  | forgotten (key : Option String)
  | done
deriving DecidableEq

/-- The number in an answer to a push. -/
def OrderAnswer.number? : OrderAnswer → Option Nat
  | .drawn seq => some seq
  | .forgotten _ | .done => none

/-- A write of a run. -/
structure LoggedWrite where
  key : String
  /-- Whether it was neither removed nor popped nor cleared since. -/
  known : Bool

/-- The same write, forgotten. -/
def LoggedWrite.forget (w : LoggedWrite) : LoggedWrite := { w with known := false }

/-- All writes of a run, the first one first. The number of a write is its place. -/
abbrev WriteLog := List LoggedWrite

namespace WriteLog

/-- The key that was written under a number, if that write is still known. -/
def key? (l : WriteLog) (seq : Nat) : Option String :=
  (l[seq]?.filter fun w => w.known).map fun w => w.key

/-- The number of the earliest write that is still known. -/
def oldest? (l : WriteLog) : Option Nat := l.findIdx? fun w => w.known

/-- Marks the write with a number as forgotten. -/
def forget (l : WriteLog) (seq : Nat) : WriteLog := l.modify seq LoggedWrite.forget

/-- A step, and what the caller is told. -/
def step (l : WriteLog) : OrderStep → OrderAnswer × WriteLog
  | .push key => (.drawn l.length, l ++ [⟨key, true⟩])
  | .remove seq => (.forgotten (l.key? seq), l.forget seq)
  | .popOldest =>
    match l.oldest? with
    | none => (.forgotten none, l)
    | some seq => (.forgotten (l.key? seq), l.forget seq)
  | .clear => (.done, l.map LoggedWrite.forget)

/-- The log after some steps. -/
def run (l : WriteLog) : List OrderStep → WriteLog
  | [] => l
  | x :: rest => run (l.step x).2 rest

/-- What the callers are told in the course of some steps. -/
def answers (l : WriteLog) : List OrderStep → List OrderAnswer
  | [] => []
  | x :: rest => (l.step x).1 :: answers (l.step x).2 rest

theorem forget_zero (w : LoggedWrite) (rest : WriteLog) :
    forget (w :: rest) 0 = w.forget :: rest := List.modify_zero_cons _ _ _

theorem forget_succ (w : LoggedWrite) (rest : WriteLog) (i : Nat) :
    forget (w :: rest) (i + 1) = w :: forget rest i := List.modify_succ_cons _ _ _ _

theorem length_forget (l : WriteLog) (i : Nat) : (l.forget i).length = l.length :=
  List.length_modify _ _ _

/-! ## Numbers -/

/-- A step draws the number of the next place and fills it, or draws none and fills none. -/
theorem number?_step (l : WriteLog) (x : OrderStep) :
    ((l.step x).1.number? = some l.length ∧ (l.step x).2.length = l.length + 1) ∨
      ((l.step x).1.number? = none ∧ (l.step x).2.length = l.length) := by
  cases x with
  | push key => exact .inl ⟨rfl, List.length_append⟩
  | remove seq => exact .inr ⟨rfl, l.length_forget seq⟩
  | popOldest =>
    rw [step]
    cases l.oldest? with
    | none => exact .inr ⟨rfl, rfl⟩
    | some seq => exact .inr ⟨rfl, l.length_forget seq⟩
  | clear => exact .inr ⟨rfl, List.length_map _⟩

/-- **The numbers that are drawn in the course of a run follow each other without a gap.** -/
theorem numbers_eq_range' (l : WriteLog) (steps : List OrderStep) :
    ∃ n, (l.answers steps).filterMap OrderAnswer.number? = List.range' l.length n := by
  induction steps generalizing l with
  | nil => exact ⟨0, rfl⟩
  | cons x rest ih =>
    obtain ⟨n, hrest⟩ := ih (l.step x).2
    rw [answers]
    rcases l.number?_step x with ⟨hnumber, hlength⟩ | ⟨hnumber, hlength⟩
    · rw [List.filterMap_cons_some hnumber, hrest, hlength]
      exact ⟨n + 1, rfl⟩
    · rw [List.filterMap_cons_none hnumber, hrest, hlength]
      exact ⟨n, rfl⟩

/-! ## What is known -/

/-- The writes of a log that are still known, with their numbers, if the first number is `n`. -/
def knownFrom (n : Nat) : WriteLog → List (Nat × String)
  | [] => []
  | w :: rest => if w.known then (n, w.key) :: knownFrom (n + 1) rest else knownFrom (n + 1) rest

theorem le_of_mem_knownFrom {n : Nat} {l : WriteLog} {p : Nat × String}
    (h : p ∈ knownFrom n l) : n ≤ p.1 := by
  induction l generalizing n with
  | nil => cases h
  | cons w rest ih =>
    rw [knownFrom] at h
    split at h
    · rcases List.mem_cons.mp h with rfl | h
      · exact Nat.le_refl _
      · exact Nat.le_of_succ_le (ih h)
    · exact Nat.le_of_succ_le (ih h)

theorem knownFrom_append (n : Nat) (l l' : WriteLog) :
    knownFrom n (l ++ l') = knownFrom n l ++ knownFrom (n + l.length) l' := by
  induction l generalizing n with
  | nil => rfl
  | cons w rest ih =>
    rw [List.cons_append, knownFrom, knownFrom, ih, List.length_cons,
      show n + (rest.length + 1) = n + 1 + rest.length by omega]
    split
    · rfl
    · rfl

/-- Forgetting a write takes it out of what is known, and leaves all others. -/
theorem knownFrom_forget (n : Nat) (l : WriteLog) (i : Nat) :
    knownFrom n (l.forget i) = (knownFrom n l).filter fun p => p.1 ≠ n + i := by
  induction l generalizing n i with
  | nil =>
    rw [forget, List.modify_nil]
    rfl
  | cons w rest ih =>
    cases i with
    | zero =>
      -- all later writes have later numbers
      have hlater : (knownFrom (n + 1) rest).filter (fun p => p.1 ≠ n + 0) =
          knownFrom (n + 1) rest := by
        refine List.filter_eq_self.mpr fun p hp => ?_
        have := le_of_mem_knownFrom hp
        simp only [decide_eq_true_eq]
        omega
      rw [forget_zero, knownFrom, if_neg (by simp [LoggedWrite.forget]), knownFrom]
      split
      · rw [List.filter_cons_of_neg (by simp), hlater]
      · exact hlater.symm
    | succ i =>
      have hrest := ih (n + 1) i
      rw [show n + 1 + i = n + (i + 1) by omega] at hrest
      rw [forget_succ, knownFrom, knownFrom, hrest]
      split
      · rw [List.filter_cons_of_pos (by simp)]
      · rfl

theorem knownFrom_map_forget (n : Nat) (l : WriteLog) :
    knownFrom n (l.map LoggedWrite.forget) = [] := by
  induction l generalizing n with
  | nil => rfl
  | cons w rest ih => exact ih (n + 1)

theorem keyOf?_eq_none {writes : List (Nat × String)} {seq : Nat}
    (h : ∀ p ∈ writes, p.1 ≠ seq) : WriteOrder.keyOf? writes seq = none := by
  induction writes with
  | nil => rfl
  | cons p rest ih =>
    obtain ⟨hp, hrest⟩ := List.forall_mem_cons.mp h
    rw [WriteOrder.keyOf?, if_neg hp, ih hrest]

theorem keyOf?_knownFrom (n : Nat) (l : WriteLog) (i : Nat) :
    WriteOrder.keyOf? (knownFrom n l) (n + i) = l.key? i := by
  induction l generalizing n i with
  | nil => rfl
  | cons w rest ih =>
    rw [knownFrom]
    cases i with
    | zero =>
      rw [key?, List.getElem?_cons_zero, Option.filter_some]
      split
      · rw [WriteOrder.keyOf?, if_pos (Nat.add_zero n).symm]
        rfl
      · exact keyOf?_eq_none fun p hp => Nat.ne_of_gt (le_of_mem_knownFrom hp)
    | succ i =>
      have hrest : WriteOrder.keyOf? (knownFrom (n + 1) rest) (n + (i + 1)) = key? rest i := by
        rw [← ih (n + 1) i, Nat.add_assoc, Nat.add_comm 1 i]
      split
      · rw [WriteOrder.keyOf?, if_neg (by omega), hrest]
        rfl
      · exact hrest

/-- Without an earliest known write nothing is known. -/
theorem knownFrom_of_oldest?_eq_none {l : WriteLog} (h : l.oldest? = none) (n : Nat) :
    knownFrom n l = [] := by
  induction l generalizing n with
  | nil => rfl
  | cons w rest ih =>
    rw [oldest?, List.findIdx?_eq_none_iff] at h
    obtain ⟨hw, hrest⟩ := List.forall_mem_cons.mp h
    rw [knownFrom, if_neg (by simp [hw])]
    exact ih (List.findIdx?_eq_none_iff.mpr hrest) (n + 1)

/-- The earliest known write comes first, and the others are what is known without it. -/
theorem knownFrom_of_oldest?_eq_some {l : WriteLog} {seq : Nat} (h : l.oldest? = some seq)
    (n : Nat) :
    ∃ key, l.key? seq = some key ∧
      knownFrom n l = (n + seq, key) :: knownFrom n (l.forget seq) := by
  induction l generalizing n seq with
  | nil => cases h
  | cons w rest ih =>
    rw [oldest?, List.findIdx?_cons] at h
    cases hw : w.known with
    | true =>
      rw [hw, if_pos rfl, Option.some.injEq] at h
      subst h
      refine ⟨w.key, ?_, ?_⟩
      · rw [key?, List.getElem?_cons_zero, Option.filter_some, if_pos hw]
        rfl
      · rw [forget_zero, knownFrom, if_pos hw, knownFrom, if_neg (by simp [LoggedWrite.forget])]
        rfl
    | false =>
      rw [hw, if_neg Bool.false_ne_true, Option.map_eq_some_iff] at h
      obtain ⟨i, hi, rfl⟩ := h
      obtain ⟨key, hkey, hknown⟩ := ih hi (n + 1)
      refine ⟨key, hkey, ?_⟩
      rw [forget_succ, knownFrom, if_neg (by simp [hw]), hknown, knownFrom, if_neg (by simp [hw]),
        Nat.add_assoc, Nat.add_comm 1 i]

theorem length_knownFrom (n : Nat) (l : WriteLog) :
    (knownFrom n l).length = l.countP fun w => w.known := by
  induction l generalizing n with
  | nil => rfl
  | cons w rest ih =>
    rw [knownFrom]
    split
    · rename_i hw
      rw [List.length_cons, ih, List.countP_cons_of_pos hw]
    · rename_i hw
      rw [ih, List.countP_cons_of_neg hw]

end WriteLog

/-! ## The two side by side -/

namespace WriteOrder

/-- A step, and what the caller is told. -/
def step (o : WriteOrder) : OrderStep → OrderAnswer × WriteOrder
  | .push key => (.drawn (o.push key).1, (o.push key).2)
  | .remove seq => (.forgotten (o.remove seq).1, (o.remove seq).2)
  | .popOldest => (.forgotten o.popOldest.1, o.popOldest.2)
  | .clear => (.done, o.clear)

/-- The order after some steps. -/
def run (o : WriteOrder) : List OrderStep → WriteOrder
  | [] => o
  | x :: rest => (o.step x).2.run rest

/-- What the callers are told in the course of some steps. -/
def answers (o : WriteOrder) : List OrderStep → List OrderAnswer
  | [] => []
  | x :: rest => (o.step x).1 :: (o.step x).2.answers rest

/-- An order reads like a log: it has the writes that are known, and the next number. -/
structure Reads (o : WriteOrder) (l : WriteLog) : Prop where
  writes : o.writes = WriteLog.knownFrom 0 l
  next : o.next = l.length

namespace Reads

variable {o : WriteOrder} {l : WriteLog}

theorem key (h : o.Reads l) (seq : Nat) : keyOf? o.writes seq = l.key? seq := by
  rw [h.writes, ← WriteLog.keyOf?_knownFrom 0 l seq, Nat.zero_add]

theorem push (h : o.Reads l) (key : String) : (o.push key).2.Reads (l ++ [⟨key, true⟩]) := by
  refine ⟨?_, ?_⟩
  · show o.writes ++ [(o.next, key)] = _
    rw [WriteLog.knownFrom_append, h.writes, h.next, Nat.zero_add]
    rfl
  · rw [List.length_append]
    exact congrArg (· + 1) h.next

theorem remove (h : o.Reads l) (seq : Nat) : (o.remove seq).2.Reads (l.forget seq) := by
  refine ⟨?_, ?_⟩
  · rw [WriteLog.knownFrom_forget, Nat.zero_add, ← h.writes]
    rfl
  · exact h.next.trans (l.length_forget seq).symm

theorem popOldest (h : o.Reads l) :
    (o.step .popOldest).1 = (l.step .popOldest).1 ∧
      (o.step .popOldest).2.Reads (l.step .popOldest).2 := by
  rw [step, WriteLog.step, WriteOrder.popOldest, h.writes]
  cases ho : l.oldest? with
  | none =>
    rw [WriteLog.knownFrom_of_oldest?_eq_none ho 0]
    exact ⟨rfl, h⟩
  | some seq =>
    obtain ⟨key, hkey, hknown⟩ := WriteLog.knownFrom_of_oldest?_eq_some ho 0
    rw [hknown]
    exact ⟨congrArg _ hkey.symm, rfl, h.next.trans (l.length_forget seq).symm⟩

/-- **Every step is answered from the marks of the log**, and changes the order as it does the
log. -/
theorem step (h : o.Reads l) (x : OrderStep) :
    (o.step x).1 = (l.step x).1 ∧ (o.step x).2.Reads (l.step x).2 := by
  cases x with
  | push key => exact ⟨congrArg _ h.next, h.push key⟩
  | remove seq => exact ⟨congrArg _ (h.key seq), h.remove seq⟩
  | popOldest => exact h.popOldest
  | clear =>
    refine ⟨rfl, ?_, ?_⟩
    · exact (WriteLog.knownFrom_map_forget 0 l).symm
    · exact h.next.trans (List.length_map _).symm

theorem run (h : o.Reads l) (steps : List OrderStep) :
    o.answers steps = l.answers steps ∧ (o.run steps).Reads (l.run steps) := by
  induction steps generalizing o l with
  | nil => exact ⟨rfl, h⟩
  | cons x rest ih =>
    obtain ⟨htold, hnext⟩ := h.step x
    obtain ⟨hanswers, hrun⟩ := ih hnext
    refine ⟨?_, hrun⟩
    rw [answers, WriteLog.answers, htold, hanswers]

end Reads

/-- **An order of writes is a queue from which writes can also be removed by their numbers.**

Whatever is done to a new order, in whatever sequence: its caller is told what the log of all writes
says. A pop takes the earliest write that is known, a removal the write with its number, each of
them if there is one; both leave the others known, and what is known is counted write by write. The
numbers that are drawn increase over the whole run. -/
theorem queue_with_removals (steps : List OrderStep) :
    let o := empty.run steps
    let log := WriteLog.run [] steps
    empty.answers steps = WriteLog.answers [] steps ∧
      ((empty.answers steps).filterMap OrderAnswer.number?).Pairwise (· < ·) ∧
      (∀ seq, keyOf? o.writes seq = log.key? seq) ∧
      o.size = log.countP (fun w => w.known) ∧
      (o.isEmpty = true ↔ log.oldest? = none) := by
  intro o log
  have hempty : empty.Reads [] := ⟨rfl, rfl⟩
  obtain ⟨hanswers, hrun⟩ : empty.answers steps = WriteLog.answers [] steps ∧ o.Reads log :=
    hempty.run steps
  have hsize : o.size = log.countP fun w => w.known := by
    rw [size, hrun.writes, WriteLog.length_knownFrom]
  refine ⟨hanswers, ?_, hrun.key, hsize, ?_⟩
  · obtain ⟨n, hnumbers⟩ := WriteLog.numbers_eq_range' [] steps
    rw [hanswers, hnumbers]
    exact List.pairwise_lt_range'
  · rw [isEmpty, List.isEmpty_iff_length_eq_zero, ← size, hsize, List.countP_eq_zero,
      WriteLog.oldest?, List.findIdx?_eq_none_iff]
    simp

end WriteOrder

end BoundedResources
