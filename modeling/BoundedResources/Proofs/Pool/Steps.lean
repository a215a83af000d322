import BoundedResources.Pool.Fleet

/-!
# The turns of a call

A call takes a turn when it begins, and one each time its dial ends. Which of several things such a
turn does depends on the books of the pool and on what the call dials for. `BeginsCheckout`,
`BeginsSweep` and `EndsDial` list them, each with the fleet after it, and the theorems say that
nothing else happens. Whatever is kept by these turns is proved by cases of the lists.
-/

set_option autoImplicit false

namespace BoundedResources

/-- A pool with a dial that has ended. -/
def Member.concluded (m : Member) (outcome : DialOutcome) : Member :=
  { m with dialer := (m.dialer.conclude m.pool.config outcome).2 }

/-- What the dial has brought. -/
def Member.dialed (m : Member) (outcome : DialOutcome) : Except PoolError Connection :=
  (m.dialer.conclude m.pool.config outcome).1

namespace Fleet

/-- The fleet after a call has drawn its number. -/
def drawNext (f : Fleet) : Fleet := { f with nextCall := f.nextCall + 1 }

/-- What a turn can do in which a checkout begins. -/
inductive BeginsCheckout (f : Fleet) (now i : Nat) (returns : Bool) :
    CallStatus × Fleet → Prop where
  | missing (hm : f.members[i]? = none) :
    BeginsCheckout f now i returns (.checkedOut (.error .closed), f.drawNext)
  /-- The pool gives nothing. -/
  | refused {m : Member} {pool : Pool} {e : PoolError} (hm : f.members[i]? = some m)
    (hpool : m.pool.checkout now m.healthy = (.error e, pool)) :
    BeginsCheckout f now i returns
      (.checkedOut (.error e), f.drawNext.setMember i (m.withPool pool))
  /-- An idle connection is handed out. -/
  | lent {m : Member} {pool : Pool} {slot : Nat} {conn : Connection}
    (hm : f.members[i]? = some m)
    (hpool : m.pool.checkout now m.healthy = (.ok (.idle slot conn), pool)) :
    BeginsCheckout f now i returns
      (.checkedOut (.ok ()),
        (f.drawNext.setMember i (m.withPool pool)).hold now (.call f.nextCall)
          ⟨i, slot, conn, returns⟩)
  /-- A connection has to be opened. -/
  | dials {m : Member} {pool : Pool} (hm : f.members[i]? = some m)
    (hpool : m.pool.checkout now m.healthy = (.ok .room, pool)) :
    BeginsCheckout f now i returns
      (.waiting, f.drawNext.beginDial now f.nextCall i (m.withPool pool) (.checkout returns))

theorem beginCheckout_cases (f : Fleet) (now i : Nat) (returns : Bool) :
    f.BeginsCheckout now i returns (f.beginCheckout now i returns) := by
  unfold beginCheckout
  cases hm : f.members[i]? with
  | none =>
    simp only [hm]
    exact .missing hm
  | some m =>
    simp only [hm]
    cases hpool : m.pool.checkout now m.healthy with
    | mk result pool =>
      cases result with
      | error e => exact .refused hm hpool
      | ok offer =>
        cases offer with
        | idle slot conn => exact .lent hm hpool
        | room => exact .dials hm hpool

/-- What a turn can do in which a sweep begins. -/
inductive BeginsSweep (f : Fleet) (now i : Nat) (background : Bool) :
    CallStatus × Fleet → Prop where
  | missing (hm : f.members[i]? = none) : BeginsSweep f now i background (.swept, f.drawNext)
  /-- No connection is wanting. -/
  | swept {m : Member} {pool : Pool} (hm : f.members[i]? = some m)
    (hpool : m.pool.beginSweep m.healthy = (0, pool)) :
    BeginsSweep f now i background (.swept, f.drawNext.setMember i (m.withPool pool))
  /-- Connections have to be opened. -/
  | dials {m : Member} {pool : Pool} {wanted : Nat} (hm : f.members[i]? = some m)
    (hpool : m.pool.beginSweep m.healthy = (wanted, pool)) (hwanted : wanted ≠ 0) :
    BeginsSweep f now i background
      (.waiting,
        f.drawNext.beginDial now f.nextCall i (m.withPool pool) (.sweep wanted background))

theorem beginSweep_cases (f : Fleet) (now i : Nat) (background : Bool) :
    f.BeginsSweep now i background (f.beginSweep now i background) := by
  unfold beginSweep
  cases hm : f.members[i]? with
  | none =>
    simp only [hm]
    exact .missing hm
  | some m =>
    simp only [hm]
    cases hpool : m.pool.beginSweep m.healthy with
    | mk wanted pool =>
      simp only
      split
      · rename_i hzero
        exact .swept hm (hzero ▸ hpool)
      · rename_i hwanted
        exact .dials hm hpool hwanted

variable {f : Fleet} {id : Nat} {c : Call} {m : Member}

theorem endDial_of_none (hc : f.call? id = none) (now : Nat) (outcome : DialOutcome) :
    f.endDial now id outcome = (.swept, f) := by
  unfold endDial
  simp only [hc]

/-- What a turn can do in which the dial of a call to a pool ends. -/
inductive EndsDial (f : Fleet) (now id : Nat) (outcome : DialOutcome) (c : Call) (m : Member) :
    CallStatus × Fleet → Prop where
  /-- A checkout gets nothing. -/
  | refused {pool : Pool} {returns : Bool} {e : PoolError}
    (hpurpose : c.purpose = .checkout returns)
    (hpool : m.pool.endCheckout now (m.dialed outcome) = (.error e, pool)) :
    EndsDial f now id outcome c m
      (.checkedOut (.error e),
        (f.endCall id).setMember c.pool ((m.concluded outcome).withPool pool))
  /-- A checkout gets the connection. -/
  | lent {pool : Pool} {returns : Bool} {slot : Nat} {conn : Connection}
    (hpurpose : c.purpose = .checkout returns)
    (hpool : m.pool.endCheckout now (m.dialed outcome) = (.ok (slot, conn), pool)) :
    EndsDial f now id outcome c m
      (.checkedOut (.ok ()),
        ((f.endCall id).setMember c.pool ((m.concluded outcome).withPool pool)).hold now (.call id)
          ⟨c.pool, slot, conn, returns⟩)
  /-- A sweep gets nothing, and gives up the dials that it has reserved. -/
  | givesUp {pool : Pool} {wanted : Nat} {background : Bool}
    (hpurpose : c.purpose = .sweep wanted background)
    (hpool : m.pool.endSweepDial now (m.dialed outcome) = (false, pool)) :
    EndsDial f now id outcome c m
      (.swept,
        (f.endCall id).setMember c.pool
          ((m.concluded outcome).withPool (pool.unreserve (wanted - 1))))
  /-- A sweep has opened the last connection that was wanting. -/
  | swept {pool : Pool} {wanted : Nat} {background : Bool}
    (hpurpose : c.purpose = .sweep wanted background)
    (hpool : m.pool.endSweepDial now (m.dialed outcome) = (true, pool)) (hlast : wanted ≤ 1) :
    EndsDial f now id outcome c m
      (.swept, (f.endCall id).setMember c.pool ((m.concluded outcome).withPool pool))
  /-- A sweep begins its next dial. -/
  | dials {pool : Pool} {wanted : Nat} {background : Bool}
    (hpurpose : c.purpose = .sweep wanted background)
    (hpool : m.pool.endSweepDial now (m.dialed outcome) = (true, pool)) (hmore : ¬ wanted ≤ 1) :
    EndsDial f now id outcome c m
      (.waiting,
        (f.endCall id).beginDial now id c.pool ((m.concluded outcome).withPool pool)
          (.sweep (wanted - 1) background))

theorem endDial_cases (hc : f.call? id = some c) (hm : f.members[c.pool]? = some m) (now : Nat)
    (outcome : DialOutcome) : f.EndsDial now id outcome c m (f.endDial now id outcome) := by
  have hm' : (f.endCall id).members[c.pool]? = some m := hm
  unfold endDial
  simp only [hc, hm']
  cases hpurpose : c.purpose with
  | checkout returns =>
    simp only
    cases hpool : m.pool.endCheckout now (m.dialer.conclude m.pool.config outcome).1 with
    | mk result pool =>
      cases result with
      | error e => exact .refused hpurpose hpool
      | ok checked => exact .lent hpurpose hpool
  | sweep wanted background =>
    simp only
    cases hpool : m.pool.endSweepDial now (m.dialer.conclude m.pool.config outcome).1 with
    | mk made pool =>
      cases made with
      | false => exact .givesUp hpurpose hpool
      | true =>
        simp only
        split
        · rename_i hlast
          exact .swept hpurpose hpool hlast
        · rename_i hmore
          exact .dials hpurpose hpool hmore

end Fleet

end BoundedResources
