/-
The tokens of JSON text.

`Json.tokens?` runs a scanner with three modes over the characters: between
tokens, inside a quoted text, inside a word (a numeral or one of the three
names).  A word ends where a character follows that cannot belong to it, so the
scanner never looks back.
-/
import PropertyGraph.Json.Numeral

namespace PropertyGraph.Json

/-- A token.  A numeral too large for a double and a text with an unpaired half
of a surrogate pair are well written, but have no value. -/
inductive Token where
  | openBrace
  | closeBrace
  | openBracket
  | closeBracket
  | colon
  | comma
  | null
  | bool (b : Bool)
  | number (value : Option Json)
  | text (value : Option String)

/-! ### Quoted text -/

/-- A piece of a quoted text: a character, or one half of a surrogate pair. -/
inductive Piece where
  | char (c : Char)
  | half (code : Nat)
deriving DecidableEq, Repr

/-- The value of a hexadecimal digit. -/
def hexDigit? (c : Char) : Option Nat :=
  if c.isDigit then some (c.toNat - '0'.toNat)
  else if 'a' ≤ c ∧ c ≤ 'f' then some (c.toNat - 'a'.toNat + 10)
  else if 'A' ≤ c ∧ c ≤ 'F' then some (c.toNat - 'A'.toNat + 10)
  else none

/-- The value of four hexadecimal digits. -/
def hexCode? (a b c d : Char) : Option Nat := do
  let a ← hexDigit? a
  let b ← hexDigit? b
  let c ← hexDigit? c
  let d ← hexDigit? d
  return ((a * 16 + b) * 16 + c) * 16 + d

/-- The character that a backslash and a letter stand for. -/
def escaped? : Char → Option Char
  | '"' => some '"'
  | '\\' => some '\\'
  | '/' => some '/'
  | 'b' => some '\x08'
  | 'f' => some '\x0c'
  | 'n' => some '\n'
  | 'r' => some '\r'
  | 't' => some '\t'
  | _ => none

/-- The piece with that sixteen-bit code. -/
def Piece.ofCode (n : Nat) : Piece :=
  if 0xd800 ≤ n ∧ n < 0xe000 then .half n else .char (Char.ofNat n)

/-- The pieces between two quotes; none if an escape is malformed. -/
def pieces? : List Char → Option (List Piece)
  | [] => some []
  | '\\' :: 'u' :: a :: b :: c :: d :: cs => do
    let code ← hexCode? a b c d
    return .ofCode code :: (← pieces? cs)
  | '\\' :: c :: cs => do
    let e ← escaped? c
    return .char e :: (← pieces? cs)
  | c :: cs => do
    if c = '\\' then none
    return .char c :: (← pieces? cs)

/-- The characters of the pieces; none if a half stands alone. -/
def joinPieces : List Piece → Option (List Char)
  | [] => some []
  | .char c :: ps => do return c :: (← joinPieces ps)
  | .half high :: .half low :: ps => do
    if high < 0xdc00 ∧ 0xdc00 ≤ low then
      return Char.ofNat (0x10000 + (high - 0xd800) * 0x400 + (low - 0xdc00)) :: (← joinPieces ps)
    else none
  | .half _ :: _ => none

/-- The token of what stands between two quotes. -/
def textToken? (s : List Char) : Option Token := do
  let pieces ← pieces? s
  return .text ((joinPieces pieces).map String.ofList)

/-! ### Words -/

/-- Whether a character can belong to a numeral or a name. -/
def isWordPart (c : Char) : Bool := c.isAlphanum || c = '+' || c = '-' || c = '.'

/-- The token of a word. -/
def wordToken? (s : List Char) : Option Token :=
  if s = "null".toList then some .null
  else if s = "true".toList then some (.bool true)
  else if s = "false".toList then some (.bool false)
  else (Numeral.ofText? s).map fun n => .number n.value?

/-! ### The scanner -/

/-- What the scanner is inside of, with the characters read of it, last first. -/
inductive Mode where
  | between
  | text (escape : Bool) (read : List Char)
  | word (read : List Char)

/-- The blanks that may stand between tokens. -/
def isSpace (c : Char) : Bool := c = ' ' || c = '\t' || c = '\n' || c = '\r'

/-- The token that one character makes. -/
def mark? : Char → Option Token
  | '{' => some .openBrace
  | '}' => some .closeBrace
  | '[' => some .openBracket
  | ']' => some .closeBracket
  | ':' => some .colon
  | ',' => some .comma
  | _ => none

/-- The scanner: its mode and the tokens found, last first. -/
structure Scanner where
  mode : Mode := .between
  found : List Token := []

/-- Reads a character between tokens. -/
def Scanner.enter (found : List Token) (c : Char) : Option Scanner :=
  if isSpace c then some ⟨.between, found⟩
  else if c = '"' then some ⟨.text false [], found⟩
  else if isWordPart c then some ⟨.word [c], found⟩
  else (mark? c).map fun t => ⟨.between, t :: found⟩

/-- Reads a character. -/
def Scanner.step (s : Scanner) (c : Char) : Option Scanner :=
  match s.mode with
  | .between => enter s.found c
  | .word read =>
    if isWordPart c then some { s with mode := .word (c :: read) }
    else do
      let t ← wordToken? read.reverse
      enter (t :: s.found) c
  | .text true read => some { s with mode := .text false (c :: read) }
  | .text false read =>
    if c = '"' then do
      let t ← textToken? read.reverse
      some ⟨.between, t :: s.found⟩
    else if c < ' ' then none
    else some { s with mode := .text (c = '\\') (c :: read) }

/-- Reads the end of the text. -/
def Scanner.finish (s : Scanner) : Option (List Token) :=
  match s.mode with
  | .between => some s.found.reverse
  | .word read => do
    let t ← wordToken? read.reverse
    some (t :: s.found).reverse
  | .text .. => none

/-- The tokens of a text; none if it does not divide into tokens. -/
def tokens? (s : List Char) : Option (List Token) := do
  let scanner ← s.foldlM Scanner.step {}
  scanner.finish

end PropertyGraph.Json
