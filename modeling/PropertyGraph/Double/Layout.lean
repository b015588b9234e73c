/-
How doubles are written: digits by `Double.shortest`, the rest by a `Layout`.

Three layouts are in use.  `Layout.json` is the text of a number in JSON,
`Layout.plain` the text of a table cell, and `Layout.literal` the literal of the
query language.
-/
import PropertyGraph.Double.Shortest

namespace PropertyGraph

namespace Double

/-- The decisions of a number format: which numbers are written without an
exponent, whether they keep a fraction, what an exponent looks like, which way
ties go, and the texts of what is no finite number. -/
structure Layout where
  /-- The least leading exponent written without an exponent part; none: any. -/
  plainFrom : Option Int
  /-- The least leading exponent too large for that; none: no bound. -/
  plainBelow : Option Int
  /-- Whether an integral number written without an exponent ends in `.0`. -/
  keepsFraction : Bool
  /-- Whether a positive exponent has a sign. -/
  signsExponent : Bool
  tie : Tie
  nanText : String
  infinityText : String
  negativeInfinityText : String
deriving DecidableEq

/-- The number format of JSON: what is no finite number becomes null. -/
def Layout.json : Layout where
  plainFrom := some (-5)
  plainBelow := some 16
  keepsFraction := true
  signsExponent := true
  tie := .toEven
  nanText := "null"
  infinityText := "null"
  negativeInfinityText := "null"

/-- The number format of table cells: never an exponent, never a bare `.0`. -/
def Layout.plain : Layout where
  plainFrom := none
  plainBelow := none
  keepsFraction := false
  signsExponent := false
  tie := .up
  nanText := "NaN"
  infinityText := "inf"
  negativeInfinityText := "-inf"

/-- The number format of query literals. -/
def Layout.literal : Layout where
  plainFrom := some (-4)
  plainBelow := some 16
  keepsFraction := true
  signsExponent := false
  tie := .up
  nanText := "NaN"
  infinityText := "inf"
  negativeInfinityText := "-inf"

/-- The decimal written out with all its zeros. -/
def plainText (keepsFraction : Bool) (d : Decimal) : List Char :=
  let ds := d.digits
  if 0 ≤ d.exponent then
    ds ++ List.replicate d.exponent.toNat '0' ++ if keepsFraction then ['.', '0'] else []
  else
    let places := (-d.exponent).toNat
    if places < ds.length then
      ds.take (ds.length - places) ++ '.' :: ds.drop (ds.length - places)
    else
      '0' :: '.' :: List.replicate (places - ds.length) '0' ++ ds

/-- The decimal with one digit before the point and an exponent after it. -/
def exponentText (signsExponent : Bool) (d : Decimal) : List Char :=
  let e := d.leadingExponent
  let mantissa := match d.digits with
    | c :: c' :: ds => c :: '.' :: c' :: ds
    | ds => ds
  let sign := if e < 0 then ['-'] else if signsExponent then ['+'] else []
  mantissa ++ 'e' :: sign ++ Nat.toDigits 10 e.natAbs

/-- Whether a decimal is written without an exponent. -/
def Layout.isPlain (l : Layout) (d : Decimal) : Bool :=
  let e := d.leadingExponent
  d.coefficient = 0 || l.plainFrom.all (· ≤ e) && l.plainBelow.all (e < ·)

/-- The text of a double. -/
def Layout.text (l : Layout) (x : Double) : String :=
  if x.isNaN then l.nanText
  else if x.isFinite then
    let d := x.shortest l.tie
    let body := if l.isPlain d then plainText l.keepsFraction d
      else exponentText l.signsExponent d
    String.ofList (if x.isNegative then '-' :: body else body)
  else if x.isNegative then l.negativeInfinityText
  else l.infinityText

end Double

end PropertyGraph
