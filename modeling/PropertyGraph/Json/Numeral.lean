/-
The numbers of JSON: their grammar and their values.

A numeral without fraction and exponent is an integer while it fits into
sixty-four bits.  Any other numeral is a double, found by the fast rule: the
leading digits that fit into sixty-four bits, as a double, times or divided by a
power of ten, as a double.  The rule rounds more than once, so its result may be
a neighbour of the nearest double; a numeral that it takes beyond the largest
double has no value.
-/
import PropertyGraph.Double.Rounding
import PropertyGraph.Json.Basic
import PropertyGraph.Text.Numeral

namespace PropertyGraph

namespace Double

/-- A power of ten, as a double. -/
def powerOfTen (n : Nat) : Double := ofNat (Nat.pow 10 n)

/-- The largest exponent of ten that has a finite power. -/
def maxPower : Nat := 308

/-- Division by `10 ^ n`, the first `steps` times by the largest finite power of
ten. -/
def divPowerOfTen : Nat → Nat → Double → Double
  | 0, n, x => x.div (powerOfTen n)
  | steps + 1, n, x =>
    if x.isZero then x
    else divPowerOfTen steps (n - maxPower) (x.div (powerOfTen maxPower))

/-- A finite double times a power of ten, if that is finite. -/
def scale (x : Double) (e : Int) : Option Double :=
  if e < 0 then some (divPowerOfTen ((e.natAbs - 1) / maxPower) e.natAbs x)
  else if e ≤ maxPower then
    let y := x.mul (powerOfTen e.toNat)
    if y.isFinite then some y else none
  else if x.isZero then some x
  else none

end Double

namespace Json

/-- The parts of a numeral. -/
structure Numeral where
  negative : Bool
  whole : List Char
  fraction : List Char
  /-- The exponent and whether one is written. -/
  exponent : Option Int
deriving DecidableEq, Repr

namespace Numeral

/-- The exponent part: nothing, or a letter, a sign that may be missing, and
digits. -/
def exponent? : List Char → Option (Option Int)
  | [] => some none
  | c :: cs => if c = 'e' ∨ c = 'E' then (Text.intOfDigits? cs).map some else none

/-- The parts of a text that follows the grammar of numerals: no plus sign, no
needless zero in front, a digit on both sides of a point. -/
def ofText? (s : List Char) : Option Numeral :=
  let unsigned := if s.head? = some '-' then s.tail else s
  let whole := unsigned.takeWhile Char.isDigit
  let rest := unsigned.dropWhile Char.isDigit
  let fraction := if rest.head? = some '.' then rest.tail.takeWhile Char.isDigit else []
  let tail := if rest.head? = some '.' then rest.tail.dropWhile Char.isDigit else rest
  if whole = [] ∨ (whole.head? = some '0' ∧ 1 < whole.length) ∨
      (rest.head? = some '.' ∧ fraction = []) then none
  else (exponent? tail).map fun e => ⟨s.head? = some '-', whole, fraction, e⟩

/-- The digits read on into a significand while it fits into sixty-four bits,
and those left over. -/
def takeDigits (significand : Nat) : List Char → Nat × List Char
  | [] => (significand, [])
  | c :: cs =>
    let next := significand * 10 + (c.toNat - '0'.toNat)
    if next < Nat.pow 2 64 then takeDigits next cs else (significand, c :: cs)

/-- The value as a double, by the fast rule. -/
def double? (n : Numeral) : Option Double :=
  let (front, dropped) := takeDigits 0 n.whole
  let (significand, unread) := takeDigits front n.fraction
  let shift := (dropped.length : Int) - (n.fraction.length - unread.length : Nat)
  let magnitude := (Double.ofNat significand).scale (n.exponent.getD 0 + shift)
  magnitude.map fun x => if n.negative then -x else x

/-- The value of a numeral.  Minus zero is a double: no integer has its sign. -/
def value? (n : Numeral) : Option Json :=
  let magnitude := Text.digitsValue 0 n.whole
  if n.fraction = [] ∧ n.exponent = none ∧
      (if n.negative then 0 < magnitude ∧ magnitude ≤ Nat.pow 2 63
        else magnitude < Nat.pow 2 64) then
    some (.int (if n.negative then -magnitude else magnitude))
  else n.double?.map .float

end Numeral

end Json

end PropertyGraph
