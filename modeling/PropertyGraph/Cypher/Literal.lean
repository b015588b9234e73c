/-
Names and literals of the query language.

A name that is no plain identifier stands in backquotes, its own backquotes
doubled.  A text stands in quotes; backslashes and quotes in it follow a
backslash.
-/
import PropertyGraph.Property.Basic

namespace PropertyGraph.Cypher

/-- Whether a name can stand without quotes: a letter or underscore, then
letters, digits and underscores, all of ASCII. -/
def isPlainName : List Char → Bool
  | [] => false
  | c :: cs => (c.isAlpha || c = '_') && cs.all fun c => c.isAlphanum || c = '_'

/-- A name as it stands in a query. -/
def nameText (name : List Char) : List Char :=
  if isPlainName name then name
  else '\x60' :: name.flatMap (fun c => if c = '\x60' then ['\x60', '\x60'] else [c]) ++ ['\x60']

/-- A text as it stands in a query. -/
def quotedText (s : List Char) : List Char :=
  '"' :: s.flatMap (fun c => if c = '\\' ∨ c = '"' then ['\\', c] else [c]) ++ ['"']

/-- The name in a query. -/
def quoteName (name : String) : String := String.ofList (nameText name.toList)

/-- The literal of a scalar. -/
def valueText : Value → String
  | .boolean b => if b then "true" else "false"
  | .integer n => toString n.toInt
  | .float x => Double.Layout.literal.text x
  | .text s => String.ofList (quotedText s.toList)

/-- The literal of a property: several values make a list. -/
def propertyText : Property → String
  | .single v => valueText v
  | .several vs => "[" ++ ", ".intercalate (vs.map valueText) ++ "]"

end PropertyGraph.Cypher
