/-
What filling the placeholders of a text comes to.

Filling goes through the items of a text from the left.  It succeeds if items make
up the whole text and every argument is given.  Otherwise it stops at the first
item whose argument is not given, or where no item begins, whichever comes first.

* **`Outcome`** — what becomes of a text, told by its items alone;
* **`substitute_items`** — items with their arguments given are filled, one step
  after the other;
* **`outcome_iff`** — filling a text has this outcome and no other;
* **`items_text`** — what segments are written as is a row of items;
* **`fillText_outcome`** — so a template is filled with segments as they are meant,
  and its errors name the template and the first fault.
-/
import Mathlib.Data.List.Induction
import PropertyGraph.Proofs.Template.Grammar
import PropertyGraph.Template.Basic

namespace PropertyGraph.Template

variable {arguments : List (List Char)} {text : List Char} {segments : List Segment}
  {s : Segment}

/-! ### Turns -/

theorem turns_append (front back : List Segment) :
    turns (front ++ back) = turns front + turns back := List.count_append

/-- A segment at the end comes in the turn behind all others. -/
theorem inTurn_concat (segments : List Segment) (s : Segment) :
    inTurn (segments ++ [s]) = inTurn segments ++ [(s, turns segments)] := by
  have hfront : ∀ e ∈ segments.zipIdx, (segments ++ [s]).take e.2 = segments.take e.2 := by
    intro e he
    have hlt : e.2 < 0 + segments.length := (List.mem_zipIdx he).2.1
    exact List.take_append_of_le_length (by omega)
  rw [inTurn, inTurn, List.zipIdx_append, List.map_append]
  congr 1
  · refine List.map_congr_left fun e he => ?_
    rw [hfront e he]
  · rw [List.zipIdx_singleton, List.map_singleton, Nat.zero_add, List.take_left]

theorem inRange_concat {available : Nat} :
    InRange available (segments ++ [s]) ↔
      InRange available segments ∧ ∀ i ∈ s.number? (turns segments), i < available := by
  rw [InRange, inTurn_concat, List.forall_mem_append, List.forall_mem_singleton]
  rfl

theorem filled_concat (arguments : List (List Char)) (segments : List Segment) (s : Segment) :
    filled arguments (segments ++ [s]) =
      filled arguments segments ++ s.shown arguments (turns segments) := by
  rw [filled, inTurn_concat, List.flatMap_append, List.flatMap_singleton]
  rfl

/-! ### One item -/

/-- A segment with its argument given is shown in front of what comes of the
rest. -/
theorem fill_cons {turn : Nat} {p : Piece} (h : s.Is p)
    (hin : ∀ i ∈ s.number? turn, i < arguments.length) (offset : Nat)
    (ps : List (Nat × Piece)) :
    fill arguments turn ((offset, p) :: ps) =
      (fill arguments (turn + turns [s]) ps).map (s.shown arguments turn ++ ·) := by
  cases h with
  | literal c =>
    have hturn : turn + turns [Segment.literal [c]] = turn := rfl
    rw [fill, hturn]
    cases fill arguments turn ps <;> rfl
  | numbered index =>
    have hturn : turn + turns [Segment.numbered index] = turn := rfl
    have hgiven := List.getElem?_eq_getElem (hin index.toNat rfl)
    rw [fill, hturn, Segment.shown, hgiven]
    cases fill arguments turn ps <;> rfl
  | automatic =>
    have hturn : turn + turns [Segment.automatic] = turn + 1 := rfl
    have hgiven := List.getElem?_eq_getElem (hin turn rfl)
    rw [fill, hturn, Segment.shown, hgiven]
    cases fill arguments (turn + 1) ps <;> rfl

theorem fill_cons_missing {turn i : Nat} {p : Piece} (h : s.Is p)
    (hi : i ∈ s.number? turn) (hout : arguments.length ≤ i) (offset : Nat)
    (ps : List (Nat × Piece)) :
    fill arguments turn ((offset, p) :: ps) = .error (.missingArgument i) := by
  have hnone : arguments[i]? = none := List.getElem?_eq_none hout
  cases h with
  | literal c => cases hi
  | numbered index =>
    cases hi
    rw [fill, hnone]
  | automatic =>
    cases hi
    rw [fill, hnone]

/-! ### Rows of items -/

/-- **Items with their arguments given are filled**, and filling goes on behind
them, in the turn and at the offset that they leave.  The induction takes the last
item off the row. -/
theorem substitute_items (h : Items text segments) (hin : InRange arguments.length segments)
    (rest : List Char) :
    substitute arguments (text ++ rest) =
      (fill arguments (turns segments) (pieces none (bytes text) rest)).map
        (filled arguments segments ++ ·) := by
  induction h generalizing rest with
  | nil =>
    show fill arguments 0 (pieces none 0 rest) = (fill arguments 0 (pieces none 0 rest)).map _
    cases fill arguments 0 (pieces none 0 rest) <;> rfl
  | @snoc text item segments s _ last ih =>
    obtain ⟨hfront, hlast⟩ := inRange_concat.1 hin
    obtain ⟨p, his, hpieces⟩ := pieces_item last
    -- The last item belongs to what is behind the others.
    rw [List.append_assoc, ih hfront, hpieces, fill_cons his hlast, ← bytes_append,
      ← turns_append, filled_concat]
    cases fill arguments (turns (segments ++ [s])) (pieces none (bytes (text ++ item)) rest) with
    | error fault => rfl
    | ok filled => exact congrArg Except.ok (List.append_assoc _ _ _).symm

/-- What becomes of a text: all of it is filled, or behind items that are filled
comes a brace that begins no item, or an item whose argument is not given. -/
inductive Outcome (arguments : List (List Char)) :
    List Char → Except Fault (List Char) → Prop
  | filled {text : List Char} {segments : List Segment} (items : Items text segments)
      (given : InRange arguments.length segments) :
      Outcome arguments text (.ok (filled arguments segments))
  | malformed {text rest : List Char} {segments : List Segment} (items : Items text segments)
      (given : InRange arguments.length segments) (offends : Offends rest) :
      Outcome arguments (text ++ rest) (.error (.malformed (bytes text)))
  | missing {text item rest : List Char} {segments : List Segment} {s : Segment} {i : Nat}
      (items : Items text segments) (given : InRange arguments.length segments)
      (next : Item item s) (number : s.number? (turns segments) = some i)
      (lacking : arguments.length ≤ i) :
      Outcome arguments (text ++ (item ++ rest)) (.error (.missingArgument i))

theorem substitute_of_outcome {r : Except Fault (List Char)} (h : Outcome arguments text r) :
    substitute arguments text = r := by
  cases h with
  | filled items given =>
    have hfill := substitute_items items given []
    rw [List.append_nil] at hfill
    rw [hfill]
    exact congrArg Except.ok (List.append_nil _)
  | malformed items given offends =>
    rw [substitute_items items given, pieces_of_offends offends]
    rfl
  | missing items given next number lacking =>
    obtain ⟨p, his, hpieces⟩ := pieces_item next
    rw [substitute_items items given, hpieces, fill_cons_missing his number lacking]
    rfl

/-- A character is an item, unless it is a brace. -/
theorem offends_of_no_item (hne : text ≠ [])
    (hnone : ∀ item s, Item item s → ¬item <+: text) : Offends text := by
  obtain ⟨c, rest, rfl⟩ := List.exists_cons_of_ne_nil hne
  refine ⟨⟨rest, ?_⟩, hnone⟩
  by_contra hbrace
  rw [not_or] at hbrace
  refine hnone [c] (.literal [c]) (.plain ?_ ?_) ⟨rest, rfl⟩
  · rintro rfl
    exact hbrace.1 rfl
  · rintro rfl
    exact hbrace.2 rfl

theorem Item.ne_nil {item : List Char} (h : Item item s) : item ≠ [] := by
  cases h <;> exact List.cons_ne_nil _ _

/-- Every text has an outcome.  The row of items grows by what begins the rest, as
long as an item does and its argument is given. -/
theorem exists_outcome_append (h : Items text segments)
    (hin : InRange arguments.length segments) (rest : List Char) :
    ∃ r, Outcome arguments (text ++ rest) r := by
  induction hn : rest.length using Nat.strongRecOn generalizing text segments rest with
  | ind n ih =>
    by_cases hnil : rest = []
    · rw [hnil, List.append_nil]
      exact ⟨_, .filled h hin⟩
    by_cases hnone : ∀ item s, Item item s → ¬item <+: rest
    · exact ⟨_, .malformed h hin (offends_of_no_item hnil hnone)⟩
    obtain ⟨item, s, hitem, after, rfl⟩ : ∃ item s, Item item s ∧ item <+: rest := by
      simpa using hnone
    by_cases hgiven : ∀ i ∈ s.number? (turns segments), i < arguments.length
    · -- The item joins the row, and less is left.
      have hpos := List.length_pos_iff.2 hitem.ne_nil
      rw [List.length_append] at hn
      rw [← List.append_assoc]
      exact ih after.length (by omega) (.snoc h hitem) (inRange_concat.2 ⟨hin, hgiven⟩) after rfl
    · obtain ⟨i, hi, hlacking⟩ : ∃ i ∈ s.number? (turns segments), arguments.length ≤ i := by
        simpa using hgiven
      exact ⟨_, .missing h hin hitem hi hlacking⟩

/-- **Filling a text has one outcome**, the one that its items tell. -/
theorem outcome_iff {r : Except Fault (List Char)} :
    Outcome arguments text r ↔ substitute arguments text = r := by
  constructor
  · exact substitute_of_outcome
  · rintro rfl
    have hempty : InRange arguments.length [] := List.forall_mem_nil _
    obtain ⟨r, hr⟩ := exists_outcome_append .nil hempty text
    rw [List.nil_append] at hr
    rwa [substitute_of_outcome hr]

/-! ### Written segments -/

theorem Items.append {text' : List Char} {segments' : List Segment} (h : Items text segments)
    (h' : Items text' segments') : Items (text ++ text') (segments ++ segments') := by
  induction h' with
  | nil =>
    rw [List.append_nil, List.append_nil]
    exact h
  | snoc _ last ih =>
    rw [← List.append_assoc, ← List.append_assoc]
    exact .snoc ih last

/-- A segment with a literal taken apart into its characters, as items are. -/
def Segment.split : Segment → List Segment
  | literal s => s.map fun c => .literal [c]
  | numbered index => [.numbered index]
  | automatic => [.automatic]

theorem item_of_char (c : Char) :
    Item (if c = '\x7b' ∨ c = '\x7d' then [c, c] else [c]) (.literal [c]) := by
  split
  · next hbrace =>
    obtain rfl | rfl := hbrace
    · exact .opening
    · exact .closing
  · next hplain =>
    obtain ⟨hopening, hclosing⟩ := not_or.1 hplain
    exact .plain hopening hclosing

theorem items_segment (s : Segment) : Items s.text s.split := by
  have hone : ∀ {item : List Char} {s : Segment}, Item item s → Items item [s] :=
    fun h => .snoc .nil h
  cases s with
  | literal s =>
    induction s with
    | nil => exact .nil
    | cons c s ih => exact (hone (item_of_char c)).append ih
  | numbered index => exact hone (.numbered (numeral_toDigits index.toNat))
  | automatic => exact hone .automatic

/-- **What segments are written as is a row of items.** -/
theorem items_text (segments : List Segment) :
    Items (segments.flatMap Segment.text) (segments.flatMap Segment.split) := by
  induction segments with
  | nil => exact .nil
  | cons s segments ih => exact (items_segment s).append ih

theorem turns_concat_literal (segments : List Segment) (s : List Char) :
    turns (segments ++ [.literal s]) = turns segments := by
  rw [turns_append]
  rfl

theorem inRange_concat_literal {available : Nat} {s : List Char} :
    InRange available (segments ++ [.literal s]) ↔ InRange available segments := by
  rw [inRange_concat, and_iff_left]
  intro i hi
  cases hi

theorem filled_concat_literal (arguments : List (List Char)) (segments : List Segment)
    (s : List Char) :
    filled arguments (segments ++ [.literal s]) = filled arguments segments ++ s :=
  filled_concat arguments segments (.literal s)

/-- Segments that take and show the same, though their literals may be divided in
other ways. -/
structure Alike (l l' : List Segment) : Prop where
  turns_eq : turns l = turns l'
  inRange_iff : ∀ available, InRange available l ↔ InRange available l'
  filled_eq : ∀ arguments, filled arguments l = filled arguments l'

theorem Alike.trans {l l' l'' : List Segment} (h : Alike l l') (h' : Alike l' l'') :
    Alike l l'' where
  turns_eq := h.turns_eq.trans h'.turns_eq
  inRange_iff available := (h.inRange_iff available).trans (h'.inRange_iff available)
  filled_eq arguments := (h.filled_eq arguments).trans (h'.filled_eq arguments)

theorem Alike.concat {l l' : List Segment} (h : Alike l l') (s : Segment) :
    Alike (l ++ [s]) (l' ++ [s]) where
  turns_eq := by rw [turns_append, turns_append, h.turns_eq]
  inRange_iff available := by
    rw [inRange_concat, inRange_concat, h.inRange_iff, h.turns_eq]
  filled_eq arguments := by
    rw [filled_concat, filled_concat, h.filled_eq, h.turns_eq]

/-- A literal is as good as its characters. -/
theorem alike_split_literal (front : List Segment) (s : List Char) :
    Alike (front ++ Segment.split (.literal s)) (front ++ [.literal s]) := by
  induction s using List.reverseRecOn with
  | nil =>
    rw [Segment.split, List.map_nil, List.append_nil]
    exact ⟨(turns_concat_literal front []).symm, fun _ => inRange_concat_literal.symm,
      fun arguments => ((filled_concat_literal arguments front []).trans
        (List.append_nil _)).symm⟩
  | append_singleton s c ih =>
    have hall : front ++ Segment.split (.literal (s ++ [c])) =
        front ++ Segment.split (.literal s) ++ [.literal [c]] := by
      rw [Segment.split, Segment.split, List.map_append, List.append_assoc]
      rfl
    rw [hall]
    refine (ih.concat (.literal [c])).trans ⟨?_, fun available => ?_, fun arguments => ?_⟩
    · rw [turns_concat_literal, turns_concat_literal, turns_concat_literal]
    · rw [inRange_concat_literal, inRange_concat_literal, inRange_concat_literal]
    · rw [filled_concat_literal, filled_concat_literal, filled_concat_literal,
        List.append_assoc]

theorem alike_flatMap_split (segments : List Segment) :
    Alike (segments.flatMap Segment.split) segments := by
  induction segments using List.reverseRecOn with
  | nil => exact ⟨rfl, fun _ => Iff.rfl, fun _ => rfl⟩
  | append_singleton segments s ih =>
    rw [List.flatMap_append, List.flatMap_singleton]
    cases s with
    | literal s => exact (alike_split_literal _ s).trans (ih.concat _)
    | numbered index => exact ih.concat _
    | automatic => exact ih.concat _

theorem substitute_text (h : InRange arguments.length segments) :
    substitute arguments (segments.flatMap Segment.text) = .ok (filled arguments segments) := by
  have halike := alike_flatMap_split segments
  have hfill := substitute_of_outcome (.filled (items_text segments) ((halike.inRange_iff _).2 h))
  rwa [halike.filled_eq] at hfill

/-! ### Templates -/

/-- **Texts of templates are filled as their grammar tells.**  Segments that are
written out, braces doubled, are filled with their literals and their arguments,
those in turn counted apart, if all of these are given.  Any other text has the
outcome of its items: it is filled exactly if items with their arguments given make
it up, and the first fault from the left is the one that is reported. -/
theorem fillText_outcome (t : Template) (markers : List String) :
    let arguments := markers.map String.toList
    (∀ segments : List Segment, InRange markers.length segments →
      t.fillText markers (String.ofList (segments.flatMap Segment.text)) =
        .ok (String.ofList (filled arguments segments))) ∧
    ∀ text : String,
      (∀ out, t.fillText markers text = .ok out ↔
        Outcome arguments text.toList (.ok out.toList)) ∧
      ∀ e, t.fillText markers text = .error e ↔
        e.gid = t.gid ∧ e.available = markers.length ∧
          Outcome arguments text.toList (.error e.fault) := by
  intro arguments
  have hlength : arguments.length = markers.length := List.length_map _
  refine ⟨fun segments hrange => ?_, fun text => ⟨fun out => ?_, fun e => ?_⟩⟩
  · rw [fillText, String.toList_ofList, substitute_text (hlength ▸ hrange)]
  · rw [outcome_iff, fillText]
    cases substitute arguments text.toList with
    | error fault => simp
    | ok cs =>
      simp only [Except.ok.injEq]
      constructor
      · rintro rfl
        exact String.toList_ofList.symm
      · rintro rfl
        exact String.ofList_toList
  · rw [outcome_iff, fillText]
    cases substitute arguments text.toList with
    | error fault =>
      simp only [Except.error.injEq]
      constructor
      · rintro rfl
        exact ⟨rfl, rfl, rfl⟩
      · rintro ⟨hgid, havailable, rfl⟩
        rw [← hgid, ← havailable]
    | ok cs => simp

/-- Braces in a literal and in an argument, and a number between two places taken in
turn. -/
theorem fillText_outcome_mixed :
    let t : Template := { gid := "1", cypher := "" }
    let segments : List Segment :=
      [.literal "\x7ba\x7d".toList, .automatic, .numbered 2, .literal "é".toList, .automatic]
    let markers := ["\x7b0\x7d", "b", "c"]
    InRange markers.length segments ∧
      segments.flatMap Segment.text =
        "\x7b\x7ba\x7d\x7d\x7b\x7d\x7b2\x7dé\x7b\x7d".toList ∧
      t.fillText markers (String.ofList (segments.flatMap Segment.text)) =
        .ok "\x7ba\x7d\x7b0\x7dcéb" ∧
      Outcome (markers.map String.toList) "é\x7b+02\x7d\x7b\x7b\x7d\x7b3\x7d".toList
        (.error (.malformed 9)) := by
  intro t segments markers
  obtain ⟨hfill, hall⟩ := fillText_outcome t markers
  have hrange : InRange markers.length segments := by decide
  refine ⟨hrange, by decide, (hfill segments hrange).trans (by decide), ?_⟩
  exact (((hall _).2 ⟨"1", .malformed 9, 3⟩).1 (by decide)).2.2

end PropertyGraph.Template
