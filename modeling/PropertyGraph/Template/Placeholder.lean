/-
Texts with placeholders.

A placeholder is a pair of braces around the number of an argument, or around
nothing for the next argument in turn; two braces of one kind stand for the
brace itself.  `pieces` divides a text into pieces, and `fill` puts arguments in,
which are not looked at again.
-/
import PropertyGraph.Text.Numeral

namespace PropertyGraph.Template

/-- A piece of a text with placeholders. -/
inductive Piece where
  /-- A character that stands for itself. -/
  | literal (c : Char)
  /-- The place of the next argument in turn. -/
  | next
  /-- The place of a numbered argument. -/
  | argument (index : Nat)
  /-- An opening brace that is never closed or holds no number, or a closing
  brace that closes nothing; the text ends here. -/
  | malformed
deriving DecidableEq, Repr

/-- The piece of what stands between two braces. -/
def Piece.ofField (field : List Char) : Piece :=
  if field = [] then .next
  else
    match Text.natOfSigned? field with
    | some n => if n < Nat.pow 2 64 then .argument n else .malformed
    | none => .malformed

/-- The pieces of a text, each with the byte offset at which it starts.  The
first argument is the open brace, if there is one, with what has been read of
its field, last character first; the second is the offset of the text. -/
def pieces : Option (Nat × List Char) → Nat → List Char → List (Nat × Piece)
  | none, _, [] => []
  | some (start, _), _, [] => [(start, .malformed)]
  | some (start, field), offset, c :: cs =>
    if c = '\x7d' then
      match Piece.ofField field.reverse with
      | .malformed => [(start, .malformed)]
      | piece => (start, piece) :: pieces none (offset + 1) cs
    else pieces (some (start, c :: field)) (offset + c.utf8Size) cs
  | none, offset, '\x7b' :: '\x7b' :: cs => (offset, .literal '\x7b') :: pieces none (offset + 2) cs
  | none, offset, '\x7d' :: '\x7d' :: cs => (offset, .literal '\x7d') :: pieces none (offset + 2) cs
  | none, offset, c :: cs =>
    if c = '\x7b' then pieces (some (offset, [])) (offset + 1) cs
    else if c = '\x7d' then [(offset, .malformed)]
    else (offset, .literal c) :: pieces none (offset + c.utf8Size) cs

/-- Why placeholders cannot be filled. -/
inductive Fault where
  /-- A placeholder names an argument that is not given. -/
  | missingArgument (index : Nat)
  /-- A brace at a byte offset makes no placeholder. -/
  | malformed (offset : Nat)
deriving DecidableEq, Repr

/-- The text of pieces with arguments put in; the number counts the arguments
that have been taken in turn. -/
def fill (arguments : List (List Char)) : Nat → List (Nat × Piece) → Except Fault (List Char)
  | _, [] => .ok []
  | taken, (_, .literal c) :: ps => do return c :: (← fill arguments taken ps)
  | _, (offset, .malformed) :: _ => .error (.malformed offset)
  | taken, (_, .next) :: ps =>
    match arguments[taken]? with
    | some a => do return a ++ (← fill arguments (taken + 1) ps)
    | none => .error (.missingArgument taken)
  | taken, (_, .argument index) :: ps =>
    match arguments[index]? with
    | some a => do return a ++ (← fill arguments taken ps)
    | none => .error (.missingArgument index)

/-- A text with its placeholders filled. -/
def substitute (arguments : List (List Char)) (text : List Char) : Except Fault (List Char) :=
  fill arguments 0 (pieces none 0 text)

end PropertyGraph.Template
