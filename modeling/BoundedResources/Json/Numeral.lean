import BoundedResources.Json.Value

/-!
# Numerals

The spelling of a JSON number is a sign, whole digits, and perhaps a fraction and an exponent.
Its value is an integer if it is spelled as one and fits a 64-bit word, signed for negative
numbers; `-0` and everything else is a double. The double is computed from at most one 64-bit
word of digits and one scaling by a power of ten: digits that no longer fit are dropped, and
only dropped whole digits still count for the magnitude. A magnitude beyond the largest double
is no number.
-/

set_option autoImplicit false

namespace BoundedResources.Json

/-- The spelling of a number, digits as numbers below ten. -/
structure Numeral where
  negative : Bool
  whole : List Nat
  fraction : Option (List Nat)
  /-- Whether the exponent is negative, and its digits. -/
  exponent : Option (Bool × List Nat)
deriving DecidableEq

namespace Numeral

/-- The largest 64-bit word. -/
def maxWord : Nat := 18_446_744_073_709_551_615

/-- Appends digits to a word while the result is still a word; the digits that are left over
come with it. -/
def accumulate (word : Nat) : List Nat → Nat × List Nat
  | [] => (word, [])
  | d :: rest =>
    if word * 10 + d ≤ maxWord then accumulate (word * 10 + d) rest else (word, d :: rest)

/-- The number that digits spell. -/
def ofDigits (digits : List Nat) : Nat := digits.foldl (fun n d => n * 10 + d) 0

/-- The power of ten `10 ^ n` as a double. -/
def powerOfTen (n : Nat) : Float := Float.ofScientific 1 false n

/-- `f · 10 ^ e`, in one step when the power is a double, else in steps of `10 ^ 308`;
nothing when it is too large. -/
def scale (f : Float) (e : Int) : Option Float :=
  if e.natAbs ≤ 308 then
    if 0 ≤ e then
      let scaled := f * powerOfTen e.natAbs
      if scaled.isInf then none else some scaled
    else some (f / powerOfTen e.natAbs)
  else if f == 0 then some f
  else if 0 ≤ e then none
  else scale (f / powerOfTen 308) (e + 308)
termination_by e.natAbs
decreasing_by omega

/-- The double `word · 10 ^ e`, with a sign. -/
def double (negative : Bool) (word : Nat) (e : Int) : Option Float :=
  (scale (Float.ofNat word) e).map fun f => if negative then -f else f

/-- The value of a numeral that is not spelled as a fitting integer. -/
def real? (n : Numeral) : Option Float :=
  let (word, droppedWhole) := accumulate 0 n.whole
  let fraction := n.fraction.getD []
  let (word, droppedFraction) := accumulate word fraction
  let place : Int := (droppedWhole.length : Int) - (fraction.length - droppedFraction.length : Nat)
  match n.exponent with
  | none => double n.negative word place
  | some (negativeExponent, digits) =>
    let e := ofDigits digits
    if 2_147_483_648 ≤ e then
      if word ≠ 0 ∧ ¬ negativeExponent then none
      else some (if n.negative then -0.0 else 0.0)
    else double n.negative word (if negativeExponent then place - e else place + e)

/-- The value of a numeral, if its magnitude is one of a double. -/
def value? (n : Numeral) : Option Number :=
  let word := ofDigits n.whole
  if n.fraction.isSome ∨ n.exponent.isSome ∨ maxWord < word then n.real?.map .real
  else if ¬ n.negative then some (.integer word)
  else if 0 < word ∧ word ≤ 9_223_372_036_854_775_808 then some (.integer (-(word : Int)))
  else some (.real (-(Float.ofNat word)))

end Numeral

end BoundedResources.Json
