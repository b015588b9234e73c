/-
Decimal numerals: runs of ASCII digits, with or without a sign.
-/
namespace PropertyGraph.Text

/-- The number that a list of digits writes, after the number read so far. -/
def digitsValue (acc : Nat) : List Char → Nat
  | [] => acc
  | c :: cs => digitsValue (acc * 10 + (c.toNat - '0'.toNat)) cs

/-- The number that a text of digits writes; none if it is empty or holds
anything else. -/
def natOfDigits? (s : List Char) : Option Nat :=
  if s ≠ [] ∧ s.all Char.isDigit then some (digitsValue 0 s) else none

/-- The integer that a text of digits writes, a sign before it allowed. -/
def intOfDigits? : List Char → Option Int
  | '-' :: s => (natOfDigits? s).map fun n => -(n : Int)
  | '+' :: s => (natOfDigits? s).map fun n => (n : Int)
  | s => (natOfDigits? s).map fun n => (n : Int)

/-- The natural number that a text of digits writes, a plus sign before it
allowed. -/
def natOfSigned? : List Char → Option Nat
  | '+' :: s => natOfDigits? s
  | s => natOfDigits? s

/-- The integer if it fits into `bits` bits of two's complement. -/
def within (bits : Nat) (n : Int) : Option Int :=
  if -(Nat.pow 2 (bits - 1)) ≤ n ∧ n < Nat.pow 2 (bits - 1) then some n else none

/-- The 64-bit integer that a text of digits writes, a sign before it
allowed. -/
def int64OfDigits? (s : List Char) : Option Int64 :=
  ((intOfDigits? s).bind (within 64)).map Int64.ofInt

end PropertyGraph.Text
