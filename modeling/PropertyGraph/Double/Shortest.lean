/-
The shortest decimal that reads back as a given double.

`Double.shortest` looks at decimal grids from coarse to fine.  On each it tests
the two grid points around the value against the interval of reals that round
to the double; the first grid with a point inside wins, and of two points the
nearer.  Everything is exact arithmetic on natural numbers.
-/
import PropertyGraph.Double.Basic

namespace PropertyGraph

/-- Which way a value goes that lies halfway between two grid points. -/
inductive Tie where
  | up
  | toEven
deriving DecidableEq, Repr

/-- The number `coefficient · 10 ^ exponent`. -/
structure Decimal where
  coefficient : Nat
  exponent : Int
deriving DecidableEq, Repr

namespace Decimal

/-- The decimal digits of the coefficient. -/
def digits (d : Decimal) : List Char := Nat.toDigits 10 d.coefficient

/-- The power of ten that the first digit counts. -/
def leadingExponent (d : Decimal) : Int := d.exponent + d.digits.length - 1

/-- At most `fuel` trailing zeros of the coefficient moved into the exponent. -/
def trim : Nat → Decimal → Decimal
  | 0, d => d
  | fuel + 1, d =>
    if d.coefficient % 10 = 0 then trim fuel ⟨d.coefficient / 10, d.exponent + 1⟩ else d

/-- The decimal without trailing zeros in its coefficient. -/
def canonical (d : Decimal) : Decimal :=
  if d.coefficient = 0 then ⟨0, 0⟩ else trim d.digits.length d

end Decimal

namespace Double

/-- The reals that round to one double, counted in quarters of the smallest
unit: from `low` to `high`, with the ends if `closed`. -/
structure Interval where
  low : Nat
  value : Nat
  high : Nat
  closed : Bool

/-- The interval of a finite double that is not zero.  Below a power of two the
doubles lie twice as dense as above it. -/
def interval (x : Double) : Interval :=
  let step := Nat.pow 2 x.binade
  let below := if x.magnitude % Nat.pow 2 52 = 0 ∧ 0 < x.binade then step else 2 * step
  { low := 4 * x.units - below
    value := 4 * x.units
    high := 4 * x.units + 2 * step
    closed := x.significand % 2 = 0 }

/-- The best point of the grid of multiples of `10 ^ g` that lies in the
interval. -/
def Interval.gridPoint? (i : Interval) (tie : Tie) (g : Int) : Option Nat :=
  let scale := Nat.pow 10 (-g).toNat
  let step := 4 * unitsPerOne * Nat.pow 10 g.toNat
  let inside (c : Nat) : Bool :=
    if i.closed then i.low * scale ≤ c * step ∧ c * step ≤ i.high * scale
    else i.low * scale < c * step ∧ c * step < i.high * scale
  let c := i.value * scale / step
  let r := i.value * scale % step
  match inside c, inside (c + 1) with
  | false, false => none
  | true, false => some c
  | false, true => some (c + 1)
  | true, true =>
    if 2 * r < step then some c
    else if step < 2 * r then some (c + 1)
    else match tie with
      | .up => some (c + 1)
      | .toEven => some (c + c % 2)

/-- The first of `count` grids, each ten times finer than the one before, with
a point in the interval. -/
def Interval.firstGrid (i : Interval) (tie : Tie) : Nat → Int → Decimal
  | 0, g => ⟨i.value * Nat.pow 10 (-g).toNat / (4 * unitsPerOne * Nat.pow 10 g.toNat), g⟩
  | count + 1, g =>
    match i.gridPoint? tie g with
    | some c => ⟨c, g⟩
    | none => i.firstGrid tie count (g - 1)

/-- The power of ten that the first decimal digit of a finite double counts,
zero for zero: the digits in front of the point once the point has moved far
enough to the right for all doubles. -/
def leadingExponent (x : Double) : Int :=
  if x.isZero then 0
  else (Nat.toDigits 10 (x.units * Nat.pow 10 330 / unitsPerOne)).length - 331

/-- The magnitude of a finite double in the fewest digits that read back. -/
def shortest (tie : Tie) (x : Double) : Decimal :=
  if x.isZero then ⟨0, 0⟩ else (x.interval.firstGrid tie 17 x.leadingExponent).canonical

end Double

end PropertyGraph
