/-
Reading names and texts of the query language back.

The readers here know the language and not the printer: a name is a row of
letters, digits and underscores or stands in backquotes, a text stands in quotes
and a backslash takes the next character as it is.  Each reads from the front and
leaves what follows.

* **`readText?_quotedText`** — a text in quotes reads back, whatever follows it;
* **`readName?_nameText`** — a name reads back, if nothing follows that could
  belong to it;
* **`lexemes_readBack`** — so neither can end before its own quotes do, whatever
  characters it is made of.
-/
import PropertyGraph.Cypher.Literal
import PropertyGraph.Proofs.Text.Run

namespace PropertyGraph.Cypher

/-! ### Texts -/

/-- Reads up to the first quote that no backslash stands before. -/
def unescape? : List Char → Option (List Char × List Char)
  | [] => none
  | '"' :: rest => some ([], rest)
  | '\\' :: c :: rest => (unescape? rest).map fun r => (c :: r.1, r.2)
  | c :: rest => (unescape? rest).map fun r => (c :: r.1, r.2)

/-- Reads a text in quotes. -/
def readText? : List Char → Option (List Char × List Char)
  | '"' :: rest => unescape? rest
  | _ => none

theorem unescape?_of_plain {c : Char} (hquote : c ≠ '"') (hbackslash : c ≠ '\\')
    (rest : List Char) :
    unescape? (c :: rest) = (unescape? rest).map fun r => (c :: r.1, r.2) := by
  rw [unescape?.eq_def]
  split <;> simp_all

theorem unescape?_escaped (s rest : List Char) :
    unescape? ((s.flatMap fun c => if c = '\\' ∨ c = '"' then ['\\', c] else [c]) ++
      '"' :: rest) = some (s, rest) := by
  induction s with
  | nil => rfl
  | cons c s ih =>
    rw [List.flatMap_cons, List.append_assoc]
    by_cases hc : c = '\\' ∨ c = '"'
    · rw [if_pos hc, List.cons_append, List.cons_append, List.nil_append, unescape?, ih]
      rfl
    · obtain ⟨hbackslash, hquote⟩ := not_or.1 hc
      rw [if_neg hc, List.cons_append, List.nil_append, unescape?_of_plain hquote hbackslash, ih]
      rfl

theorem readText?_quotedText (s rest : List Char) :
    readText? (quotedText s ++ rest) = some (s, rest) := by
  rw [quotedText, List.append_assoc, List.cons_append, readText?]
  exact unescape?_escaped s rest

/-! ### Names -/

/-- Whether a character can stand in a name without quotes. -/
def isNameChar (c : Char) : Bool := c.isAlphanum || c = '_'

/-- Reads up to the first backquote that is not doubled. -/
def undouble? : List Char → Option (List Char × List Char)
  | [] => none
  | '\x60' :: '\x60' :: rest => (undouble? rest).map fun r => ('\x60' :: r.1, r.2)
  | '\x60' :: rest => some ([], rest)
  | c :: rest => (undouble? rest).map fun r => (c :: r.1, r.2)

/-- Reads a name, in backquotes or as long a row of its characters as there
is. -/
def readName? : List Char → Option (List Char × List Char)
  | [] => none
  | '\x60' :: rest => undouble? rest
  | c :: rest =>
    if c.isAlpha || c = '_' then
      some (c :: rest.takeWhile isNameChar, rest.dropWhile isNameChar)
    else none

/-- What follows a name neither belongs to it nor doubles its last backquote. -/
def EndsName (rest : List Char) : Prop :=
  ∀ c ∈ rest.head?, c ≠ '\x60' ∧ isNameChar c = false

theorem undouble?_close {rest : List Char} (h : EndsName rest) :
    undouble? ('\x60' :: rest) = some ([], rest) := by
  cases rest with
  | nil => rfl
  | cons c rest =>
    have hc : c ≠ '\x60' := (h c rfl).1
    rw [undouble?]
    simpa using hc

theorem undouble?_of_plain {c : Char} (hc : c ≠ '\x60') (rest : List Char) :
    undouble? (c :: rest) = (undouble? rest).map fun r => (c :: r.1, r.2) := by
  rw [undouble?.eq_def]
  split <;> simp_all

theorem undouble?_doubled (name : List Char) {rest : List Char} (h : EndsName rest) :
    undouble? ((name.flatMap fun c => if c = '\x60' then ['\x60', '\x60'] else [c]) ++
      '\x60' :: rest) = some (name, rest) := by
  induction name with
  | nil => exact undouble?_close h
  | cons c name ih =>
    rw [List.flatMap_cons, List.append_assoc]
    by_cases hc : c = '\x60'
    · rw [if_pos hc, hc, List.cons_append, List.cons_append, List.nil_append, undouble?, ih]
      rfl
    · rw [if_neg hc, List.cons_append, List.nil_append, undouble?_of_plain hc, ih]
      rfl

/-- A backquote does not begin a plain name. -/
theorem readName?_of_plain {c : Char} (hc : (c.isAlpha || c = '_') = true) (rest : List Char) :
    readName? (c :: rest) = some (c :: rest.takeWhile isNameChar, rest.dropWhile isNameChar) := by
  have hquote : c ≠ '\x60' := by
    rintro rfl
    exact absurd hc (by decide)
  rw [readName?, if_pos hc]
  exact hquote

theorem readName?_nameText (name : List Char) {rest : List Char} (h : EndsName rest) :
    readName? (nameText name ++ rest) = some (name, rest) := by
  rw [nameText]
  split
  · next hplain =>
    rw [isPlainName.eq_def] at hplain
    split at hplain
    · exact absurd hplain Bool.false_ne_true
    · next c cs =>
      obtain ⟨hc, hcs⟩ := Bool.and_eq_true_iff.1 hplain
      obtain ⟨htake, hdrop⟩ := Text.takeWhile_append_of_head? (p := isNameChar) hcs
        fun c hc => (h c hc).2
      rw [List.cons_append, readName?_of_plain hc, htake, hdrop]
  · rw [List.append_assoc, List.cons_append, readName?]
    exact undouble?_doubled name h

/-! ### Lexemes of a query -/

theorem readText?_valueText (s : String) (rest : List Char) :
    readText? ((valueText (.text s)).toList ++ rest) = some (s.toList, rest) := by
  rw [valueText, String.toList_ofList]
  exact readText?_quotedText s.toList rest

theorem toList_quoteName (name : String) : (quoteName name).toList = nameText name.toList :=
  String.toList_ofList

theorem readName?_quoteName (name : String) {rest : List Char} (h : EndsName rest) :
    readName? ((quoteName name).toList ++ rest) = some (name.toList, rest) := by
  rw [toList_quoteName]
  exact readName?_nameText name.toList h

/-- **Names and texts cannot escape their quotes.**  In front of any text, the
literal of a text is read as exactly that text, and nothing behind it is touched.
So is a name, in front of any text that could not go on with it. -/
theorem lexemes_readBack :
    (∀ s rest : String,
      readText? (valueText (.text s) ++ rest).toList = some (s.toList, rest.toList)) ∧
    ∀ name rest : String, EndsName rest.toList →
      readName? (quoteName name ++ rest).toList = some (name.toList, rest.toList) := by
  constructor
  · intro s rest
    rw [String.toList_append]
    exact readText?_valueText s rest.toList
  · intro name rest hrest
    rw [String.toList_append]
    exact readName?_quoteName name hrest

/-- A text that ends in a backslash, and a name that is itself in backquotes. -/
theorem lexemes_readBack_escaping :
    (valueText (.text "\"\\") ++ "\") RETURN").toList = "\"\\\"\\\\\"\") RETURN".toList ∧
      readText? (valueText (.text "\"\\") ++ "\") RETURN").toList =
        some ("\"\\".toList, "\") RETURN".toList) ∧
      EndsName ":`A`".toList ∧
      readName? (quoteName "`b`" ++ ":`A`").toList = some ("`b`".toList, ":`A`".toList) := by
  have hends : EndsName ":`A`".toList := by
    intro c hc
    cases hc
    decide
  exact ⟨by decide, lexemes_readBack.1 _ _, hends, lexemes_readBack.2 _ _ hends⟩

end PropertyGraph.Cypher
