/-
The double nearest to a ratio of natural numbers, and arithmetic through it.

`Double.ofRatio` rounds to nearest with ties to the even significand; an
operation on doubles is the exact operation on their units, rounded once.
-/
import PropertyGraph.Double.Basic

namespace PropertyGraph

/-- The quotient rounded to the nearest natural number, a half going to the
even neighbour. -/
def roundDiv (n d : Nat) : Nat :=
  let q := n / d
  let r := n % d
  if 2 * r < d then q else if d < 2 * r then q + 1 else q + q % 2

namespace Double

/-- The double nearest to `num / den`, ties to the even significand; beyond the
largest finite double, infinity.

The quotient counted in smallest units has some number of bits.  All above the
lowest fifty-three name the binade, and the word is the binade's number above
the rounded significand: a carry out of the significand moves on to the next
binade by itself. -/
def ofRatio (negative : Bool) (num den : Nat) : Double :=
  let scaled := num * unitsPerOne
  let binade := (scaled / den).log2 - 52
  let word := binade * Nat.pow 2 52 + roundDiv scaled (den * Nat.pow 2 binade)
  ofWord negative (min word infinityWord)

/-- The double nearest to a natural number. -/
def ofNat (n : Nat) : Double := ofRatio false n 1

/-- The double nearest to an integer. -/
def ofInt (n : Int) : Double := ofRatio (n < 0) n.natAbs 1

/-- The rounded product of two finite doubles. -/
def mul (x y : Double) : Double :=
  ofRatio (x.isNegative != y.isNegative) (x.units * y.units) (unitsPerOne * unitsPerOne)

/-- The rounded quotient of two finite doubles, the divisor not zero. -/
def div (x y : Double) : Double :=
  ofRatio (x.isNegative != y.isNegative) x.units y.units

/-- The integer nearest to a finite double, halves away from zero. -/
def round (x : Double) : Int :=
  let n : Nat := (2 * x.units + unitsPerOne) / (2 * unitsPerOne)
  if x.isNegative then -n else n

end Double

end PropertyGraph
