/-!
# The shortest decimal that reads back as a given double

A finite positive double is `m · 2 ^ e`, and the reals that round to it form an interval
around it, ends included exactly when `m` is even. `Binary.shortest` walks the decimal grids of
1, 2, … 17 significant digits and stops at the first grid with a point in that interval; of two
such points it takes the nearer, and the even one of two equally near. All comparisons are
between natural numbers.
-/

set_option autoImplicit false

namespace BoundedResources.Decimal

/-- A positive binary number `mantissa · 2 ^ exponent`; `narrow` says that the next smaller
number of its format is only half as far away as the next larger one. -/
structure Binary where
  mantissa : Nat
  exponent : Int
  narrow : Bool
deriving DecidableEq

/-- A positive decimal number `digits · 10 ^ exponent`. -/
structure Scaled where
  digits : Nat
  exponent : Int
deriving DecidableEq

namespace Binary

/-- The parts of the absolute value of a finite double. -/
def ofFloat (x : Float) : Binary :=
  let bits : Nat := x.toBits.toNat
  let fraction : Nat := bits % 4_503_599_627_370_496
  let biased : Nat := bits / 4_503_599_627_370_496 % 2048
  if biased = 0 then ⟨fraction, -1074, false⟩
  else ⟨4_503_599_627_370_496 + fraction, (biased : Int) - 1075, fraction = 0 && 1 < biased⟩

/-- The ends and the value itself as multiples of one unit `unitNum / unitDen`. -/
structure Interval where
  low : Nat
  value : Nat
  high : Nat
  unitNum : Nat
  unitDen : Nat

/-- The interval of reals that round to `b`, in quarters of its last place. -/
def interval (b : Binary) : Interval where
  low := 4 * b.mantissa - (if b.narrow then 1 else 2)
  value := 4 * b.mantissa
  high := 4 * b.mantissa + 2
  unitNum := Nat.pow 2 (b.exponent - 2).toNat
  unitDen := Nat.pow 2 (2 - b.exponent).toNat

/-- The power of ten `p` with `10 ^ p ≤ num / den < 10 ^ (p + 1)`, for a positive quotient. -/
def decimalExponent (num den : Nat) : Int :=
  if den ≤ num then ((toString (num / den)).length : Int) - 1
  else
    match (List.range 400).find? (fun j => den ≤ num * Nat.pow 10 j) with
    | some j => -(j : Int)
    | none => -400

/-- Whether the decimal `d` rounds to `b`. -/
def admits (b : Binary) (d : Scaled) : Bool :=
  let i := b.interval
  -- the decimal and the interval over one denominator
  let scaled := d.digits * Nat.pow 10 d.exponent.toNat * i.unitDen
  let unit := i.unitNum * Nat.pow 10 (-d.exponent).toNat
  if b.mantissa % 2 = 0 then i.low * unit ≤ scaled && scaled ≤ i.high * unit
  else i.low * unit < scaled && scaled < i.high * unit

/-- The point of the grid of `10 ^ k` below `b` or at it, with twice its distance and the grid
width over one denominator. -/
def gridFloor (b : Binary) (k : Int) : Nat × Nat × Nat :=
  let i := b.interval
  let num := i.value * i.unitNum * Nat.pow 10 (-k).toNat
  let den := i.unitDen * Nat.pow 10 k.toNat
  (num / den, 2 * (num % den), den)

/-- The point of the grid of `10 ^ k` that reads back as `b`, if one of the two nearest does. -/
def onGrid? (b : Binary) (k : Int) : Option Scaled :=
  let (floor, twiceRest, width) := b.gridFloor k
  let below : Scaled := ⟨floor, k⟩
  let above : Scaled := ⟨floor + 1, k⟩
  match b.admits below, b.admits above with
  | true, true =>
    if twiceRest < width || (twiceRest == width && floor % 2 == 0) then some below else some above
  | true, false => some below
  | false, true => some above
  | false, false => none

/-- The first of the grids `10 ^ k`, `10 ^ (k - 1)`, … with a point that reads back as `b`. -/
def firstGrid (b : Binary) : Nat → Int → Scaled
  | 0, k => ⟨(b.gridFloor k).1, k⟩
  | n + 1, k => (b.onGrid? k).getD (b.firstGrid n (k - 1))

/-- The fewest significant digits that read back as the positive number `b`. -/
def shortest (b : Binary) : Scaled :=
  let i := b.interval
  b.firstGrid 17 (decimalExponent (i.value * i.unitNum) i.unitDen)

end Binary

/-- Moves trailing zeros of the digits into the exponent. -/
def Scaled.trim : Nat → Scaled → Scaled
  | 0, d => d
  | fuel + 1, d =>
    if d.digits ≠ 0 ∧ d.digits % 10 = 0 then trim fuel ⟨d.digits / 10, d.exponent + 1⟩
    else d

/-- How a decimal is written: `positional` are the exponents of the leading digit that are
written without an exponent, and `plus` is written in front of a positive exponent. -/
structure Style where
  firstPositional : Int
  lastPositional : Int
  plus : String

/-- A decimal in a given style, always with a point or an exponent. -/
def Scaled.text (style : Style) (d : Scaled) : String :=
  let digits := (toString d.digits).toList
  let leading : Int := d.exponent + digits.length - 1
  if style.firstPositional ≤ leading ∧ leading ≤ style.lastPositional then
    if 0 ≤ d.exponent then
      String.ofList (digits ++ List.replicate d.exponent.toNat '0') ++ ".0"
    else if 0 ≤ leading then
      String.ofList (digits.take (leading.toNat + 1)) ++ "." ++
        String.ofList (digits.drop (leading.toNat + 1))
    else
      "0." ++ String.ofList (List.replicate (-leading - 1).toNat '0' ++ digits)
  else
    let fraction := if digits.length = 1 then "" else "." ++ String.ofList (digits.drop 1)
    String.ofList (digits.take 1) ++ fraction ++ "e" ++
      (if 0 ≤ leading then style.plus ++ toString leading.toNat
       else "-" ++ toString leading.natAbs)

/-- A finite double in a given style, with the fewest digits that read back. -/
def floatText (style : Style) (x : Float) : String :=
  let b := Binary.ofFloat x
  let sign := if x.toBits.toNat / 9_223_372_036_854_775_808 = 1 then "-" else ""
  if b.mantissa = 0 then sign ++ "0.0" else sign ++ (b.shortest.trim 400).text style

end BoundedResources.Decimal
