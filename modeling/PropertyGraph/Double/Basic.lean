/-
Double precision numbers as 64-bit words, with their exact values.

A finite word stands for `±significand · 2 ^ binade` smallest units, one unit
being `2 ^ -1074`, so the magnitude of every finite double is a natural number
of units (`Double.units`) and all arithmetic below is exact.  Two doubles are
compared as numbers (`Double.same`): the two zeros agree, and a NaN agrees with
nothing, itself included.
-/
namespace PropertyGraph

/-- A double precision number, given by its 64-bit word: sign, eleven bits of
exponent, fifty-two bits of fraction. -/
structure Double where
  bits : UInt64
deriving DecidableEq, Inhabited

namespace Double

/-- Whether the sign bit is set. -/
def isNegative (x : Double) : Bool := Nat.pow 2 63 ≤ x.bits.toNat

/-- The word without its sign bit. -/
def magnitude (x : Double) : Nat := x.bits.toNat % Nat.pow 2 63

/-- The magnitude word of the infinities. -/
def infinityWord : Nat := 2047 * Nat.pow 2 52

/-- Whether the word stands for a real number. -/
def isFinite (x : Double) : Bool := x.magnitude < infinityWord

/-- Whether the word stands for no number at all. -/
def isNaN (x : Double) : Bool := infinityWord < x.magnitude

/-- Whether the number is one of the two zeros. -/
def isZero (x : Double) : Bool := x.magnitude = 0

/-- The exponent field of the word. -/
def exponentField (x : Double) : Nat := x.magnitude / Nat.pow 2 52

/-- The significant bits: the fraction, with its leading one where the exponent
field is not zero. -/
def significand (x : Double) : Nat :=
  if x.exponentField = 0 then x.magnitude else Nat.pow 2 52 + x.magnitude % Nat.pow 2 52

/-- The power of two that the significand is counted in, from the smallest unit
up. -/
def binade (x : Double) : Nat := x.exponentField - 1

/-- The magnitude of a finite double, counted in units of `2 ^ -1074`. -/
def units (x : Double) : Nat := x.significand * Nat.pow 2 x.binade

/-- The number of smallest units in one. -/
def unitsPerOne : Nat := Nat.pow 2 1074

/-- The double with the given sign and magnitude word. -/
def ofWord (negative : Bool) (word : Nat) : Double :=
  ⟨UInt64.ofNat (word + if negative then Nat.pow 2 63 else 0)⟩

/-- Equality of numbers: the zeros agree, a NaN agrees with nothing. -/
def same (x y : Double) : Bool :=
  !x.isNaN && !y.isNaN && (x = y || x.isZero && y.isZero)

/-- Positive zero. -/
def zero : Double := ⟨0⟩

/-- Positive infinity. -/
def infinity : Double := ofWord false infinityWord

/-- A number that is none. -/
def nan : Double := ofWord false (infinityWord + Nat.pow 2 51)

/-- The same magnitude with the other sign. -/
def neg (x : Double) : Double := ofWord (!x.isNegative) x.magnitude

instance : Neg Double := ⟨neg⟩

theorem same_comm (x y : Double) : x.same y = y.same x := by
  simp only [same]
  rw [Bool.and_comm (!x.isNaN), Bool.and_comm x.isZero]
  simp only [eq_comm (a := x)]

theorem same_self_iff {x : Double} : x.same x = true ↔ x.isNaN = false := by
  simp [same]

theorem same_trans {x y z : Double} (hxy : x.same y = true) (hyz : y.same z = true) :
    x.same z = true := by
  simp only [same, Bool.and_eq_true, Bool.or_eq_true, decide_eq_true_eq] at *
  grind

end Double

end PropertyGraph
