/-
Printed JSON reads back.

A value is readable if what limits the reader does not concern it: integers fit
into sixty-four bits, containers are not nested too deep, no object repeats a
name, and every double reads back by itself.  (Not every double does: the fast
rule for numerals rounds more than once.)  All else is proved: the text of a
readable value divides into its tokens, and folding them rebuilds the value.

* **`Readable.scans`** — the text of a value is its tokens;
* **`Readable.foldlM_tokens`** — the tokens of a value are read to its tree;
* **`read?_compact`** — a printed value reads back;
* **`not_control_compact`** — printed text has no control character, whatever is
  printed, so it is one line.
-/
import PropertyGraph.Proofs.Json.Words
import PropertyGraph.Proofs.Mapped

namespace PropertyGraph.Json

/-- Nothing that limits the reader concerns the value: at most `depth`
containers stand inside each other, integers fit into sixty-four bits, doubles
read back by themselves, and no object repeats a name. -/
inductive Readable : Nat → Json → Prop
  | null {depth : Nat} : Readable depth .null
  | bool {depth : Nat} (b : Bool) : Readable depth (.bool b)
  | int {depth : Nat} {n : Int} (hlow : -(Nat.pow 2 63 : Nat) ≤ n)
      (hhigh : n < (Nat.pow 2 64 : Nat)) : Readable depth (.int n)
  | float {depth : Nat} {x : Double} (hfinite : x.isFinite = true)
      (hread : parse? (compact (.float x)) = some (.float x)) : Readable depth (.float x)
  | text {depth : Nat} (s : String) : Readable depth (.text s)
  | array {depth : Nat} {items : List Json} (hitems : ∀ v ∈ items, Readable depth v) :
      Readable (depth + 1) (.array items)
  | object {depth : Nat} {members : List (String × Json)}
      (hnodup : (members.map Prod.fst).Nodup) (hmembers : ∀ m ∈ members, Readable depth m.2) :
      Readable (depth + 1) (.object members)

/-! ### Tokens -/

mutual

/-- The tokens of a value. -/
def tokens : Json → List Token
  | null => [.null]
  | bool b => [.bool b]
  | int n => [.number (some (.int n))]
  | float x => [.number (some (.float x))]
  | text s => [.text (some s)]
  | array items => .openBracket :: (itemTokens items ++ [.closeBracket])
  | object members => .openBrace :: (memberTokens members ++ [.closeBrace])

/-- The tokens of items, with commas between them. -/
def itemTokens : List Json → List Token
  | [] => []
  | [v] => tokens v
  | v :: vs => tokens v ++ .comma :: itemTokens vs

/-- The tokens of members, with commas between them. -/
def memberTokens : List (String × Json) → List Token
  | [] => []
  | [(k, v)] => .text (some k) :: .colon :: tokens v
  | (k, v) :: ms => .text (some k) :: .colon :: (tokens v ++ .comma :: memberTokens ms)

end

theorem scans_items {items : List Json} (h : ∀ v ∈ items, Scans (compact v).toList (tokens v)) :
    Scans (compactItems items).toList (itemTokens items) := by
  induction items with
  | nil => exact scans_nil
  | cons v vs ih =>
    obtain ⟨hv, hrest⟩ := List.forall_mem_cons.1 h
    cases vs with
    | nil => exact hv
    | cons w vs =>
      have hcomma : Scans (',' :: (compactItems (w :: vs)).toList)
          (.comma :: itemTokens (w :: vs)) := (ih hrest).cons_mark rfl
      rw [compactItems, String.toList_append, String.toList_append, List.append_assoc]
      · exact hv.append hcomma (breaks_cons (by decide) _)
      · exact List.cons_ne_nil _ _

theorem scans_member (k : String) {v : Json} (h : Scans (compact v).toList (tokens v)) :
    Scans (quoted k ++ ":" ++ compact v).toList (.text (some k) :: .colon :: tokens v) := by
  have hcolon : Scans (':' :: (compact v).toList) (.colon :: tokens v) := h.cons_mark rfl
  rw [String.toList_append, String.toList_append, List.append_assoc]
  exact (scans_quoted k).append hcolon (breaks_cons (by decide) _)

theorem scans_members {members : List (String × Json)}
    (h : ∀ m ∈ members, Scans (compact m.2).toList (tokens m.2)) :
    Scans (compactMembers members).toList (memberTokens members) := by
  induction members with
  | nil => exact scans_nil
  | cons m ms ih =>
    obtain ⟨k, v⟩ := m
    obtain ⟨hv, hrest⟩ := List.forall_mem_cons.1 h
    cases ms with
    | nil => exact scans_member k hv
    | cons m ms =>
      have hcomma : Scans (',' :: (compactMembers (m :: ms)).toList)
          (.comma :: memberTokens (m :: ms)) := (ih hrest).cons_mark rfl
      rw [compactMembers, String.toList_append, String.toList_append, List.append_assoc]
      · exact (scans_member k hv).append hcomma (breaks_cons (by decide) _)
      · exact List.cons_ne_nil _ _

/-- The text of a readable value is its tokens. -/
theorem Readable.scans {depth : Nat} {v : Json} (h : Readable depth v) :
    Scans (compact v).toList (tokens v) := by
  induction h with
  | null => exact scans_word (List.all_iff_forall_prop.1 (by decide)) rfl
  | bool b => cases b <;> exact scans_word (List.all_iff_forall_prop.1 (by decide)) rfl
  | int hlow hhigh => exact scans_int hlow hhigh
  | float hfinite hread => exact scans_float hfinite hread
  | text s => exact scans_quoted s
  | array hitems ih =>
    rw [compact, String.toList_append, String.toList_append]
    exact Scans.cons_mark rfl ((scans_items ih).append (scans_mark rfl) (breaks_cons (by decide) _))
  | object hnodup hmembers ih =>
    rw [compact, String.toList_append, String.toList_append]
    exact Scans.cons_mark rfl
      ((scans_members ih).append (scans_mark rfl) (breaks_cons (by decide) _))

/-! ### Trees -/

open PropertyGraph.Json.Tree

/-- Wherever a value may follow inside few enough containers, the tokens of this
one are read to its tree. -/
def Reads (depth : Nat) (v : Json) : Prop :=
  ∀ frames, frames.length + depth ≤ maxDepth →
    (tokens v).foldlM State.step (.value frames) = some (.after (ofJson v) frames)

/-- The first item of an array is read like any other value. -/
theorem foldlM_tokens_firstItem (v : Json) (frames : List Frame) :
    (tokens v).foldlM State.step (.firstItem frames) =
      (tokens v).foldlM State.step (.value (.array [] :: frames)) := by
  cases v <;> simp only [tokens, List.foldlM_cons] <;> rfl

theorem foldlM_itemTokens_firstItem (v : Json) (vs : List Json) (ts : List Token)
    (frames : List Frame) :
    (itemTokens (v :: vs) ++ ts).foldlM State.step (.firstItem frames) =
      (itemTokens (v :: vs) ++ ts).foldlM State.step (.value (.array [] :: frames)) := by
  cases vs <;> simp only [itemTokens, List.foldlM_append, foldlM_tokens_firstItem]

theorem close_of_lt {frames : List Frame} (h : frames.length < maxDepth) (t : Tree) :
    close t frames = .after t frames := by
  rw [close, if_pos h]

/-- The rest of an array that stands open with some items read. -/
theorem foldlM_items {depth : Nat} {items : List Json} (hitems : ∀ v ∈ items, Reads depth v)
    (hne : items ≠ []) {frames : List Frame} (hroom : frames.length + (depth + 1) ≤ maxDepth)
    (read : List Tree) :
    (itemTokens items ++ [Token.closeBracket]).foldlM State.step (.value (.array read :: frames)) =
      some (.after (.array (read.reverse ++ ofJsons items)) frames) := by
  induction items generalizing read with
  | nil => exact absurd rfl hne
  | cons v vs ih =>
    obtain ⟨hv, hrest⟩ := List.forall_mem_cons.1 hitems
    have hread := hv (.array read :: frames) (by rw [List.length_cons]; omega)
    cases vs with
    | nil =>
      have hroom' : frames.length < maxDepth := by omega
      rw [itemTokens, List.foldlM_append, hread, ofJsons, ofJsons]
      simp [State.step, closeArray, close_of_lt hroom']
    | cons w vs =>
      rw [itemTokens, List.append_assoc, List.foldlM_append, hread, Option.bind_eq_bind,
        Option.bind_some, List.cons_append, List.foldlM_cons, ofJsons]
      · have hnext := ih hrest (List.cons_ne_nil w vs) (ofJson v :: read)
        rw [List.reverse_cons, List.append_assoc] at hnext
        exact hnext
      · exact List.cons_ne_nil _ _

theorem reads_array {depth : Nat} {items : List Json} (hitems : ∀ v ∈ items, Reads depth v) :
    Reads (depth + 1) (.array items) := by
  intro frames hroom
  have hopen : State.step (.value frames) .openBracket = some (.firstItem frames) := rfl
  rw [tokens, List.foldlM_cons, hopen, Option.bind_eq_bind, Option.bind_some, ofJson]
  cases items with
  | nil =>
    have hclose : State.step (.firstItem frames) .closeBracket =
        some (.after (.array []) frames) := by
      have hroom' : frames.length < maxDepth := by omega
      simp [State.step, closeArray, close_of_lt hroom']
    rw [itemTokens, List.nil_append, List.foldlM_cons, hclose, ofJsons]
    rfl
  | cons v vs =>
    rw [foldlM_itemTokens_firstItem]
    exact foldlM_items hitems (List.cons_ne_nil v vs) hroom []

/-- A member with its name, as the reader keeps it. -/
def named (m : String × Tree) : Option String × Tree := (some m.1, m.2)

theorem closeObject_named (members : List (String × Tree)) (frames : List Frame) :
    closeObject (members.map named).reverse frames = close (.object members) frames := by
  have hread : (members.map named).mapM (fun m => m.1.map fun k => (k, m.2)) = some members :=
    mapM_map_eq_some fun _ _ => rfl
  rw [closeObject, List.reverse_reverse, hread]

/-- The rest of an object that stands open with some members read. -/
theorem foldlM_members {depth : Nat} {members : List (String × Json)}
    (hmembers : ∀ m ∈ members, Reads depth m.2) (hne : members ≠ []) {frames : List Frame}
    (hroom : frames.length + (depth + 1) ≤ maxDepth) (read : List (String × Tree)) :
    (memberTokens members ++ [Token.closeBrace]).foldlM State.step
        (.key (read.map named).reverse frames) =
      some (.after (.object (read ++ ofMembers members)) frames) := by
  induction members generalizing read with
  | nil => exact absurd rfl hne
  | cons m ms ih =>
    obtain ⟨k, v⟩ := m
    obtain ⟨hv, hrest⟩ := List.forall_mem_cons.1 hmembers
    have hread := hv (.object (read.map named).reverse (some k) :: frames)
      (by rw [List.length_cons]; omega)
    have hmember : (Token.text (some k) :: .colon :: tokens v).foldlM State.step
        (.key (read.map named).reverse frames) =
          some (.after (ofJson v) (.object (read.map named).reverse (some k) :: frames)) := hread
    have hcons : (some k, ofJson v) :: (read.map named).reverse =
        ((read ++ [(k, ofJson v)]).map named).reverse := by
      rw [List.map_append, List.reverse_append]
      rfl
    cases ms with
    | nil =>
      have hclose : closeObject ((some k, ofJson v) :: (read.map named).reverse) frames =
          .after (.object (read ++ [(k, ofJson v)])) frames := by
        rw [hcons, closeObject_named, close_of_lt (by omega)]
      rw [memberTokens, List.foldlM_append, hmember, ofMembers, ofMembers]
      exact congrArg some hclose
    | cons m ms =>
      have hnext := ih hrest (List.cons_ne_nil m ms) (read ++ [(k, ofJson v)])
      rw [← hcons, List.append_assoc] at hnext
      rw [memberTokens, ← List.cons_append, ← List.cons_append, List.append_assoc,
        List.foldlM_append, hmember, Option.bind_eq_bind, Option.bind_some, List.cons_append,
        List.foldlM_cons, ofMembers]
      · exact hnext
      · exact List.cons_ne_nil _ _

/-- The first name in an object is read like any other. -/
theorem foldlM_memberTokens_firstKey (m : String × Json) (ms : List (String × Json))
    (ts : List Token) (frames : List Frame) :
    (memberTokens (m :: ms) ++ ts).foldlM State.step (.firstKey frames) =
      (memberTokens (m :: ms) ++ ts).foldlM State.step (.key [] frames) := by
  cases ms <;> simp only [memberTokens, List.cons_append, List.foldlM_cons] <;> rfl

theorem reads_object {depth : Nat} {members : List (String × Json)}
    (hmembers : ∀ m ∈ members, Reads depth m.2) : Reads (depth + 1) (.object members) := by
  intro frames hroom
  have hopen : State.step (.value frames) .openBrace = some (.firstKey frames) := rfl
  rw [tokens, List.foldlM_cons, hopen, Option.bind_eq_bind, Option.bind_some, ofJson]
  cases members with
  | nil =>
    have hclose : State.step (.firstKey frames) .closeBrace =
        some (.after (.object []) frames) := by
      have hempty : closeObject [] frames = close (.object []) frames := closeObject_named [] frames
      have hroom' : frames.length < maxDepth := by omega
      simp [State.step, hempty, close_of_lt hroom']
    rw [memberTokens, List.nil_append, List.foldlM_cons, hclose, ofMembers]
    rfl
  | cons m ms =>
    rw [foldlM_memberTokens_firstKey]
    exact foldlM_members hmembers (List.cons_ne_nil m ms) hroom []

/-- The tokens of a readable value are read to its tree. -/
theorem Readable.foldlM_tokens {depth : Nat} {v : Json} (h : Readable depth v) : Reads depth v := by
  induction h with
  | array hitems ih => exact reads_array ih
  | object hnodup hmembers ih => exact reads_object ih
  | _ => exact fun frames _ => rfl

/-! ### Values -/

theorem values?_ofJsons {items : List Json} (h : ∀ v ∈ items, (ofJson v).value? = some v) :
    values? (ofJsons items) = some items := by
  induction items with
  | nil => rfl
  | cons v vs ih =>
    obtain ⟨hv, hrest⟩ := List.forall_mem_cons.1 h
    simp [ofJsons, values?, hv, ih hrest]

theorem memberValues?_ofMembers {members : List (String × Json)}
    (h : ∀ m ∈ members, (ofJson m.2).value? = some m.2) :
    memberValues? (ofMembers members) = some members := by
  induction members with
  | nil => rfl
  | cons m ms ih =>
    obtain ⟨k, v⟩ := m
    obtain ⟨hv, hrest⟩ := List.forall_mem_cons.1 h
    simp [ofMembers, memberValues?, hv, ih hrest]

/-- The tree of a readable value has that value. -/
theorem Readable.value?_ofJson {depth : Nat} {v : Json} (h : Readable depth v) :
    (ofJson v).value? = some v := by
  induction h with
  | array hitems ih => rw [ofJson, value?, values?_ofJsons ih, Option.map_some]
  | object hnodup hmembers ih =>
    rw [ofJson, value?, memberValues?_ofMembers ih, Option.map_some,
      OrderedMap.entries_ofList hnodup]
  | _ => rfl

/-- The text of a readable value is read to its tree. -/
theorem read?_compact {v : Json} (h : Readable maxDepth v) :
    Tree.read? (compact v) = some (ofJson v) :=
  read?_eq_some_iff.2 ⟨tokens v, tokens?_of_scans h.scans, h.foldlM_tokens [] (by simp)⟩

/-! ### Lines -/

theorem not_control_of_isWordPart {c : Char} (hc : isWordPart c = true) : ¬c < ' ' := by
  intro hlt
  have hnot : ∀ n < 32, isWordPart (Char.ofNat n) = false := by decide
  have := hnot c.toNat (toNat_lt_of_lt_blank hlt)
  rw [Char.ofNat_toNat, hc] at this
  exact absurd this (by decide)

theorem not_control_escapeChar (c : Char) : ∀ d ∈ escapeChar c, ¬d < ' ' := by
  obtain ⟨hc, h⟩ | ⟨e, h, -, he, -⟩ | ⟨hc, h⟩ := escapeChar_cases c <;> rw [h]
  · simpa using hc.2.2
  · simp only [List.forall_mem_cons]
    exact ⟨by decide, he, by simp⟩
  · have hlt := toNat_lt_of_lt_blank hc
    have hhigh : IsPlain (hexChar (c.toNat / 16)) := isPlain_hexChar _ (by omega)
    have hlow : IsPlain (hexChar (c.toNat % 16)) := isPlain_hexChar _ (by omega)
    simp only [List.forall_mem_cons]
    exact ⟨by decide, by decide, by decide, by decide, hhigh.2.2, hlow.2.2, by simp⟩

theorem not_control_quoted (s : String) : ∀ c ∈ (quoted s).toList, ¬c < ' ' := by
  rw [quoted, String.toList_ofList]
  simp only [List.cons_append, List.forall_mem_cons, List.forall_mem_append, List.mem_flatMap]
  refine ⟨by decide, ?_, by decide, by simp⟩
  rintro c ⟨d, -, hc⟩
  exact not_control_escapeChar d c hc

/-- A double that is no finite number is printed as null. -/
theorem not_control_float (x : Double) : ∀ c ∈ (compact (.float x)).toList, ¬c < ' ' := by
  by_cases hx : x.isFinite = true
  · exact fun c hc => not_control_of_isWordPart (isWordPart_compact_float hx c hc)
  · have hnull : compact (.float x) = "null" := by
      rw [compact, Double.Layout.text, if_neg hx]
      split
      · rfl
      · split <;> rfl
    rw [hnull]
    exact List.all_iff_forall_prop.1 (by decide)

mutual

/-- Printed text has no control character. -/
theorem not_control_compact (v : Json) : ∀ c ∈ (compact v).toList, ¬c < ' ' := by
  cases v with
  | null => exact List.all_iff_forall_prop.1 (by decide)
  | bool b => cases b <;> exact List.all_iff_forall_prop.1 (by decide)
  | int n => exact fun c hc => not_control_of_isWordPart (isWordPart_toString n c hc)
  | float x => exact not_control_float x
  | text s => exact not_control_quoted s
  | array items =>
    simp only [compact, String.toList_append, List.forall_mem_append]
    exact ⟨⟨by simp, not_control_items items⟩, by simp⟩
  | object members =>
    simp only [compact, String.toList_append, List.forall_mem_append]
    exact ⟨⟨by simp, not_control_members members⟩, by simp⟩

theorem not_control_items (items : List Json) :
    ∀ c ∈ (compactItems items).toList, ¬c < ' ' := by
  cases items with
  | nil => simp [compactItems]
  | cons v vs =>
    cases vs with
    | nil => exact not_control_compact v
    | cons w vs =>
      rw [compactItems, String.toList_append, String.toList_append]
      · simp only [List.forall_mem_append]
        exact ⟨⟨not_control_compact v, by simp⟩, not_control_items (w :: vs)⟩
      · exact List.cons_ne_nil _ _

theorem not_control_members (members : List (String × Json)) :
    ∀ c ∈ (compactMembers members).toList, ¬c < ' ' := by
  cases members with
  | nil => simp [compactMembers]
  | cons m ms =>
    obtain ⟨k, v⟩ := m
    have hmember : ∀ c ∈ (quoted k ++ ":" ++ compact v).toList, ¬c < ' ' := by
      simp only [String.toList_append, List.forall_mem_append]
      exact ⟨⟨not_control_quoted k, by simp⟩, not_control_compact v⟩
    cases ms with
    | nil => exact hmember
    | cons m ms =>
      rw [compactMembers, String.toList_append, String.toList_append]
      · rw [List.forall_mem_append, List.forall_mem_append]
        exact ⟨⟨hmember, by simp⟩, not_control_members (m :: ms)⟩
      · exact List.cons_ne_nil _ _

end

end PropertyGraph.Json
