/-
Doubles read from decimal text, each rounded once.

A numeral may have a sign, needs a digit on one side of its point, and may have
an exponent; the names of the infinities and of what is no number are read in
any case.
-/
import PropertyGraph.Double.Rounding
import PropertyGraph.Text.Numeral

namespace PropertyGraph

namespace Double

/-- The double nearest to `coefficient · 10 ^ exponent`.  A decimal that is
plainly beyond all doubles, or below half of the smallest, is not worked out. -/
def ofDecimal (negative : Bool) (coefficient : Nat) (exponent : Int) : Double :=
  let leading := exponent + (Nat.toDigits 10 coefficient).length
  if coefficient = 0 ∨ leading < -330 then ofWord negative 0
  else if 310 < leading then ofWord negative infinityWord
  else if 0 ≤ exponent then ofRatio negative (coefficient * Nat.pow 10 exponent.toNat) 1
  else ofRatio negative coefficient (Nat.pow 10 exponent.natAbs)

/-- The number that an unsigned text names. -/
def ofName? (negative : Bool) (s : String) : Option Double :=
  if s = "inf" ∨ s = "infinity" then some (ofWord negative infinityWord)
  else if s = "nan" then some (if negative then -nan else nan)
  else none

/-- The number that an unsigned numeral writes. -/
def ofNumeral? (negative : Bool) (s : List Char) : Option Double := do
  let whole := s.takeWhile Char.isDigit
  let rest := s.dropWhile Char.isDigit
  let pointed := rest.head? = some '.'
  let fraction := if pointed then rest.tail.takeWhile Char.isDigit else []
  let rest := if pointed then rest.tail.dropWhile Char.isDigit else rest
  let shift ← match rest with
    | [] => some 0
    | c :: cs => if c = 'e' ∨ c = 'E' then Text.intOfDigits? cs else none
  let coefficient ← Text.natOfDigits? (whole ++ fraction)
  return ofDecimal negative coefficient (shift - fraction.length)

/-- The number that a text writes. -/
def ofText? (s : List Char) : Option Double :=
  let negative := s.head? = some '-'
  let unsigned := if negative ∨ s.head? = some '+' then s.tail else s
  (ofName? negative (String.ofList (unsigned.map Char.toLower))).orElse fun _ =>
    ofNumeral? negative unsigned

end Double

end PropertyGraph
