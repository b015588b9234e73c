/-
The grammar of texts with placeholders.

A text is a row of items: characters other than braces, doubled braces, an empty
pair of braces, and a pair of braces around a numeral.  No item is the beginning
of another, so a text has at most one such row, and where it has none there is a
first place at which no item begins.

* **`Item`**, **`Items`** — the items and the rows of them, with the segments that
  they write;
* **`Offends`** — what no item begins;
* **`pieces_item`** — an item at the front of a text is its first piece;
* **`pieces_of_offends`** — a text that no item begins has one malformed piece.
-/
import PropertyGraph.Proofs.Text.Numeral
import PropertyGraph.Template.Placeholder

namespace PropertyGraph.Template

/-! ### Segments -/

/-- What a text with placeholders consists of: texts that stand for themselves,
the places of numbered arguments, and the places of arguments taken in turn.  A
number is a word of sixty-four bits. -/
inductive Segment where
  | literal (s : List Char)
  | numbered (index : UInt64)
  | automatic
deriving DecidableEq

/-- The text that writes a segment; braces of a literal are doubled. -/
def Segment.text : Segment → List Char
  | literal s => s.flatMap fun c => if c = '\x7b' ∨ c = '\x7d' then [c, c] else [c]
  | numbered index => '\x7b' :: (Nat.toDigits 10 index.toNat ++ ['\x7d'])
  | automatic => ['\x7b', '\x7d']

/-- The number of the argument that a segment is the place of, if `turn` arguments
have been taken in turn before. -/
def Segment.number? (turn : Nat) : Segment → Option Nat
  | literal _ => none
  | numbered index => some index.toNat
  | automatic => some turn

/-- What a segment shows in its turn; nothing, if its argument is not given. -/
def Segment.shown (arguments : List (List Char)) (turn : Nat) : Segment → List Char
  | literal s => s
  | numbered index => (arguments[index.toNat]?).getD []
  | automatic => (arguments[turn]?).getD []

/-- How many arguments segments take in turn, whichever numbers stand between. -/
def turns (segments : List Segment) : Nat := segments.count .automatic

/-- Segments, each with how many arguments have been taken in turn before it. -/
def inTurn (segments : List Segment) : List (Segment × Nat) :=
  segments.zipIdx.map fun e => (e.1, turns (segments.take e.2))

/-- Every segment has its argument among the given ones. -/
def InRange (available : Nat) (segments : List Segment) : Prop :=
  ∀ e ∈ inTurn segments, ∀ i ∈ e.1.number? e.2, i < available

instance (available : Nat) (segments : List Segment) : Decidable (InRange available segments) :=
  inferInstanceAs (Decidable (∀ e ∈ inTurn segments, ∀ i ∈ e.1.number? e.2, i < available))

/-- The segments with arguments in their places. -/
def filled (arguments : List (List Char)) (segments : List Segment) : List Char :=
  (inTurn segments).flatMap fun e => e.1.shown arguments e.2

/-! ### Items -/

/-- Digits that write a number, needless zeros and a plus sign before them
allowed. -/
inductive Numeral : List Char → Nat → Prop
  | plain {digits : List Char} (hne : digits ≠ []) (h : digits.all Char.isDigit = true) :
      Numeral digits (Nat.ofDigitChars 10 digits 0)
  | signed {digits : List Char} (hne : digits ≠ []) (h : digits.all Char.isDigit = true) :
      Numeral ('+' :: digits) (Nat.ofDigitChars 10 digits 0)

/-- An item of a text with placeholders, and the segment that it writes. -/
inductive Item : List Char → Segment → Prop
  | plain {c : Char} (hopening : c ≠ '\x7b') (hclosing : c ≠ '\x7d') : Item [c] (.literal [c])
  | opening : Item ['\x7b', '\x7b'] (.literal ['\x7b'])
  | closing : Item ['\x7d', '\x7d'] (.literal ['\x7d'])
  | automatic : Item ['\x7b', '\x7d'] .automatic
  | numbered {field : List Char} {index : UInt64} (h : Numeral field index.toNat) :
      Item ('\x7b' :: (field ++ ['\x7d'])) (.numbered index)

/-- A row of items, and the segments that they write. -/
inductive Items : List Char → List Segment → Prop
  | nil : Items [] []
  | snoc {text item : List Char} {segments : List Segment} {s : Segment}
      (front : Items text segments) (last : Item item s) : Items (text ++ item) (segments ++ [s])

/-- A text begins with a brace that begins no item. -/
def Offends (text : List Char) : Prop :=
  (∃ rest, text = '\x7b' :: rest ∨ text = '\x7d' :: rest) ∧
    ∀ item s, Item item s → ¬item <+: text

/-! ### Numerals -/

/-- A plus sign is no digit, so a numeral is read in one way only. -/
theorem natOfSigned?_eq_some_iff {s : List Char} {n : Nat} :
    Text.natOfSigned? s = some n ↔ Numeral s n := by
  rw [Text.natOfSigned?.eq_def]
  split
  · next digits =>
    rw [Text.natOfDigits?_eq_some_iff]
    constructor
    · rintro ⟨hne, h, rfl⟩
      exact .signed hne h
    · intro hnumeral
      cases hnumeral with
      | plain _ h => exact absurd (List.all_eq_true.1 h '+' List.mem_cons_self) (by decide)
      | signed hne h => exact ⟨hne, h, rfl⟩
  · next s hunsigned =>
    rw [Text.natOfDigits?_eq_some_iff]
    constructor
    · rintro ⟨hne, h, rfl⟩
      exact .plain hne h
    · intro hnumeral
      cases hnumeral with
      | plain hne h => exact ⟨hne, h, rfl⟩
      | signed hne h => exact absurd rfl (hunsigned _)

theorem Numeral.ne_nil {s : List Char} {n : Nat} (h : Numeral s n) : s ≠ [] := by
  cases h with
  | plain hne _ => exact hne
  | signed _ _ => exact List.cons_ne_nil _ _

/-- No brace stands in a numeral. -/
theorem Numeral.brace_notMem {s : List Char} {n : Nat} (h : Numeral s n) {c : Char}
    (hc : c = '\x7b' ∨ c = '\x7d') : c ∉ s := by
  have hdigit : ∀ digits : List Char, digits.all Char.isDigit = true → c ∉ digits := by
    intro digits h hmem
    have hc' := List.all_eq_true.1 h c hmem
    obtain rfl | rfl := hc <;> exact absurd hc' (by decide)
  cases h with
  | plain _ h => exact hdigit s h
  | signed _ h =>
    rw [List.mem_cons, not_or]
    refine ⟨?_, hdigit _ h⟩
    obtain rfl | rfl := hc <;> decide

theorem numeral_toDigits (n : Nat) : Numeral (Nat.toDigits 10 n) n := by
  have h := Numeral.plain (Nat.toDigits_ne_nil (n := n) (b := 10)) (Text.all_isDigit_toDigits n)
  rwa [Nat.ofDigitChars_ten_toDigits] at h

/-! ### Fields -/

theorem ofField_numeral {field : List Char} {index : UInt64} (h : Numeral field index.toNat) :
    Piece.ofField field = .argument index.toNat := by
  rw [Piece.ofField, if_neg h.ne_nil, natOfSigned?_eq_some_iff.2 h]
  exact if_pos index.toNat_lt

/-- Between braces, nothing makes an automatic placeholder, a numeral of a word a
numbered one, and all else none. -/
theorem ofField_eq_malformed {field : List Char} (hne : field ≠ [])
    (h : ∀ index : UInt64, ¬Numeral field index.toNat) : Piece.ofField field = .malformed := by
  rw [Piece.ofField, if_neg hne]
  cases hn : Text.natOfSigned? field with
  | none => rfl
  | some n =>
    refine if_neg fun hlt => h (UInt64.ofNat n) ?_
    rw [UInt64.toNat_ofNat_of_lt' hlt]
    exact natOfSigned?_eq_some_iff.1 hn

/-- A field that is not closed is malformed. -/
theorem pieces_unclosed {field : List Char} (h : '\x7d' ∉ field) (start : Nat)
    (read : List Char) (offset : Nat) :
    pieces (some (start, read)) offset field = [(start, .malformed)] := by
  induction field generalizing read offset with
  | nil => rfl
  | cons c field ih =>
    rw [List.mem_cons, not_or] at h
    rw [pieces, if_neg (Ne.symm h.1)]
    exact ih h.2 _ _

/-- The bytes of a text. -/
def bytes (s : List Char) : Nat := (String.ofList s).utf8ByteSize

theorem bytes_cons (c : Char) (s : List Char) : bytes (c :: s) = c.utf8Size + bytes s := by
  rw [bytes, String.ofList_cons, String.utf8ByteSize_append, String.utf8ByteSize_singleton]
  rfl

theorem bytes_append (s t : List Char) : bytes (s ++ t) = bytes s + bytes t := by
  rw [bytes, String.ofList_append, String.utf8ByteSize_append]
  rfl

/-- A field up to its closing brace is one piece, or ends the text. -/
theorem pieces_closed {field : List Char} (h : '\x7d' ∉ field) (start : Nat) (read : List Char)
    (offset : Nat) (rest : List Char) :
    pieces (some (start, read)) offset (field ++ '\x7d' :: rest) =
      match Piece.ofField (read.reverse ++ field) with
      | .malformed => [(start, .malformed)]
      | piece => (start, piece) :: pieces none (offset + bytes field + 1) rest := by
  induction field generalizing read offset with
  | nil =>
    rw [List.nil_append, List.append_nil, pieces, if_pos rfl]
    rfl
  | cons c field ih =>
    rw [List.mem_cons, not_or] at h
    rw [List.cons_append, pieces, if_neg (Ne.symm h.1), ih h.2, List.reverse_cons,
      List.append_assoc, List.singleton_append, bytes_cons, Nat.add_assoc offset]

/-! ### Pieces -/

theorem pieces_plain {c : Char} (hopening : c ≠ '\x7b') (hclosing : c ≠ '\x7d') (offset : Nat)
    (rest : List Char) :
    pieces none offset (c :: rest) =
      (offset, .literal c) :: pieces none (offset + c.utf8Size) rest := by
  rw [pieces, if_neg hopening, if_neg hclosing]
  · rintro cs rfl
    exact absurd rfl hopening
  · rintro cs rfl
    exact absurd rfl hclosing

theorem pieces_stray {rest : List Char} (h : rest.head? ≠ some '\x7d') (offset : Nat) :
    pieces none offset ('\x7d' :: rest) = [(offset, .malformed)] := by
  rw [pieces, if_neg (by decide), if_pos rfl]
  · rintro cs hbrace
    exact absurd hbrace (by decide)
  · rintro cs - rfl
    exact absurd rfl h

/-- A brace that is not doubled opens a field. -/
theorem pieces_field {rest : List Char} (h : rest.head? ≠ some '\x7b') (offset : Nat) :
    pieces none offset ('\x7b' :: rest) = pieces (some (offset, [])) (offset + 1) rest := by
  rw [pieces, if_pos rfl]
  · rintro cs - rfl
    exact absurd rfl h
  · rintro cs hbrace
    exact absurd hbrace (by decide)

/-- The piece that stands for a segment. -/
inductive Segment.Is : Segment → Piece → Prop
  | literal (c : Char) : Is (.literal [c]) (.literal c)
  | numbered (index : UInt64) : Is (.numbered index) (.argument index.toNat)
  | automatic : Is .automatic .next

/-- **An item is one piece**, whatever follows it. -/
theorem pieces_item {item : List Char} {s : Segment} (h : Item item s) :
    ∃ p, s.Is p ∧ ∀ offset rest, pieces none offset (item ++ rest) =
      (offset, p) :: pieces none (offset + bytes item) rest := by
  cases h with
  | @plain c hopening hclosing =>
    refine ⟨.literal c, .literal c, fun offset rest => ?_⟩
    rw [List.singleton_append, pieces_plain hopening hclosing, bytes_cons]
    rfl
  | opening => exact ⟨.literal '\x7b', .literal '\x7b', fun offset rest => rfl⟩
  | closing => exact ⟨.literal '\x7d', .literal '\x7d', fun offset rest => rfl⟩
  | automatic =>
    refine ⟨.next, .automatic, fun offset rest => ?_⟩
    have hempty : '\x7d' ∉ ([] : List Char) := List.not_mem_nil
    rw [List.cons_append, List.singleton_append, pieces_field (by simp)]
    exact pieces_closed hempty offset [] (offset + 1) rest
  | @numbered field index hnumeral =>
    refine ⟨.argument index.toNat, .numbered index, fun offset rest => ?_⟩
    -- A numeral holds no brace, so the field neither doubles its opening brace nor
    -- ends before its closing one.
    have hclosing : '\x7d' ∉ field := hnumeral.brace_notMem (.inr rfl)
    have hhead : (field ++ '\x7d' :: rest).head? ≠ some '\x7b' := by
      obtain ⟨c, cs, rfl⟩ := List.exists_cons_of_ne_nil hnumeral.ne_nil
      intro hc
      rw [List.cons_append, List.head?_cons, Option.some.injEq] at hc
      exact hnumeral.brace_notMem (.inl hc) List.mem_cons_self
    rw [List.cons_append, List.append_assoc, List.singleton_append, pieces_field hhead,
      pieces_closed hclosing, List.reverse_nil, List.nil_append, ofField_numeral hnumeral,
      bytes_cons, bytes_append]
    dsimp only
    congr 2
    have hopen : Char.utf8Size '\x7b' = 1 := rfl
    have hclose : bytes ['\x7d'] = 1 := rfl
    omega

/-- **Where no item begins, the text ends** in a malformed piece. -/
theorem pieces_of_offends {text : List Char} (h : Offends text) (offset : Nat) :
    pieces none offset text = [(offset, .malformed)] := by
  obtain ⟨⟨rest, rfl | rfl⟩, hnone⟩ := h
  · -- An opening brace that is not doubled: a field is read, up to its closing brace
    -- or the end of the text.
    have hhead : rest.head? ≠ some '\x7b' := by
      intro hc
      obtain ⟨cs, rfl⟩ := List.head?_eq_some_iff.1 hc
      exact hnone _ _ .opening ⟨cs, rfl⟩
    rw [pieces_field hhead]
    by_cases hclosed : '\x7d' ∈ rest
    · -- The field holds something, and that is no numeral of a word.
      obtain ⟨field, after, rfl, hfield⟩ := List.eq_append_cons_of_mem hclosed
      have hne : field ≠ [] := by
        rintro rfl
        exact hnone _ _ .automatic ⟨after, rfl⟩
      have hnumeral : ∀ index : UInt64, ¬Numeral field index.toNat := by
        intro index hindex
        refine hnone _ _ (.numbered hindex) ⟨after, ?_⟩
        rw [List.cons_append, List.append_assoc, List.singleton_append]
      rw [pieces_closed hfield, List.reverse_nil, List.nil_append,
        ofField_eq_malformed hne hnumeral]
    · exact pieces_unclosed hclosed offset [] (offset + 1)
  · -- A closing brace that is not doubled closes nothing.
    refine pieces_stray (fun hc => ?_) offset
    obtain ⟨cs, rfl⟩ := List.head?_eq_some_iff.1 hc
    exact hnone _ _ .closing ⟨cs, rfl⟩

end PropertyGraph.Template
