/-
The result ceiling of a query text.

The guard looks at the token after the first `LIMIT`.  Where it is an integer
literal above the ceiling, every `LIMIT` followed by the same literal gets
the ceiling; where it is none, a `LIMIT` is appended.  A literal can be too long
to be searched for, and then a `LIMIT` is appended as well.
-/
import PropertyGraph.Guard.Token
import PropertyGraph.Text.Numeral
import PropertyGraph.Text.Word

namespace PropertyGraph.Guard

/-- The word before a result count. -/
def limitWord : List Char := "LIMIT".toList

/-- The value of an integer literal: a number of 128 bits, a sign allowed.  A
longer row of digits counts as the largest of them. -/
def literalValue? (literal : List Char) : Option Int :=
  match (Text.intOfDigits? literal).bind (Text.within 128) with
  | some n => some n
  | none => if literal.all Char.isDigit then some (Nat.pow 2 127 - 1) else none

/-- The token after the first `LIMIT`, with its value, if it is an integer
literal. -/
def requested? (tokens : List (List Char)) : Option (List Char × Int) :=
  match tokens.dropWhile (· ≠ limitWord) with
  | _ :: literal :: _ => (literalValue? literal).map fun n => (literal, n)
  | _ => none

/-- Whether a word may begin or end beside a character, or at the edge of the
text. -/
def isBoundary (c : Option Char) : Bool := c.all fun c => !Text.isWordChar c

/-- What a text begins with, if that is `LIMIT` in any case, separators, and a
literal that ends a word: the stretch before the literal. -/
def limitStretch? (literal s : List Char) : Option (List Char) :=
  let word := s.take limitWord.length
  let rest := s.drop limitWord.length
  let gap := rest.takeWhile isSeparator
  let tail := rest.dropWhile isSeparator
  if word.map Char.toUpper = limitWord ∧ gap ≠ [] ∧ literal.isPrefixOf tail ∧
      isBoundary (tail.drop literal.length).head? then
    some (word ++ gap)
  else none

/-- A text with another literal behind every `LIMIT` that the old one follows.
The first argument counts the characters that have been dealt with already, the
second is the character before the text. -/
def replaceFrom (literal ceiling : List Char) : Nat → Option Char → List Char → List Char
  | _, _, [] => []
  | skip + 1, _, c :: cs => replaceFrom literal ceiling skip (some c) cs
  | 0, before, c :: cs =>
    match if isBoundary before then limitStretch? literal (c :: cs) else none with
    | some stretch =>
      stretch ++ ceiling ++
        replaceFrom literal ceiling (stretch.length + literal.length - 1) (some c) cs
    | none => c :: replaceFrom literal ceiling 0 (some c) cs

/-- A text with a literal behind every `LIMIT` that another one follows. -/
def replaceLimit (literal ceiling s : List Char) : List Char :=
  replaceFrom literal ceiling 0 none s

/-- A text with a `LIMIT` at its end, in place of blanks and one semicolon. -/
def appendLimit (ceiling s : List Char) : List Char :=
  let body := Text.trimRight s
  let unclosed := if body.getLast? = some ';' then Text.trimRight body.dropLast else body
  unclosed ++ ' ' :: limitWord ++ ' ' :: ceiling

/-- A text with the ceiling in place of a literal above it, if the literal can be
searched for; else the text with a `LIMIT` behind it. -/
def resetLimit (searchable : List Char → Bool) (literal ceiling s : List Char) : List Char :=
  if searchable literal then replaceLimit literal ceiling s
  else s ++ ' ' :: limitWord ++ ' ' :: ceiling

end PropertyGraph.Guard
