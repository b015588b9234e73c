/-
The tokens of a query text, as the guard sees them: the runs of characters
between separators, in upper case.
-/
import PropertyGraph.Text.Blank
import PropertyGraph.Text.Upper

namespace PropertyGraph.Guard

/-- Whether a character separates tokens. -/
def isSeparator (c : Char) : Bool := ['.', ',', ';', '*', ')', '('].contains c || Text.isBlank c

/-- The runs of characters between separators. -/
def words (s : List Char) : List (List Char) := (s.splitOnP isSeparator).filter (!·.isEmpty)

/-- The tokens of a text. -/
def tokens (s : List Char) : List (List Char) := (words s).map Text.upper

end PropertyGraph.Guard
