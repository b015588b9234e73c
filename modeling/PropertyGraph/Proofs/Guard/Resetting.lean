/-
What resetting a limit does to the tokens of a text.

The request is found among tokens in upper case, but it is reset in the text
itself.  There a literal is looked for behind a `LIMIT` of ASCII letters, and both
may be parts of longer words: the `LIMIT` the end of one, the literal the
beginning of the next.  So every word is reset or kept by itself, told the word
before it, and no word is lost or made up.

* **`endsInLimit_iff`** — a word that ends in `LIMIT`, by its last five letters;
* **`Replaced.eq_zipWith`** — the words of a replaced text, one by one;
* **`tokens_of_reset`** — the tokens of a text whose request has been reset;
* **`tokens_ne_of_quotedLimit`** — resetting the literals behind `LIMIT` tokens
  would be less.
-/
import PropertyGraph.Proofs.Guard.Requests

namespace PropertyGraph.Guard

/-! ### Words one by one -/

/-- The end of a word that ends in `LIMIT` are its last five letters. -/
theorem endsInLimit_iff {before : Option Char} {w : List Char} :
    EndsInLimit before w ↔
      (w.drop (w.length - limitWord.length)).map Char.toUpper = limitWord ∧
        isBoundary ((w.take (w.length - limitWord.length)).getLast?.or before) = true := by
  constructor
  · rintro ⟨front, word, rfl, hword, hboundary⟩
    have hlength : (front ++ word).length - limitWord.length = front.length := by
      rw [List.length_append, length_of_map_toUpper hword, Nat.add_sub_cancel]
    rw [hlength, List.drop_left, List.take_left]
    exact ⟨hword, hboundary⟩
  · rintro ⟨hword, hboundary⟩
    exact ⟨_, _, (List.take_append_drop _ w).symm, hword, hboundary⟩

instance (before : Option Char) (w : List Char) : Decidable (EndsInLimit before w) :=
  decidable_of_iff _ endsInLimit_iff.symm

/-- A word begins with a literal that does not go on with it. -/
def BeginsWith (literal w : List Char) : Prop :=
  literal <+: w ∧ isBoundary (w.drop literal.length).head? = true

instance (literal w : List Char) : Decidable (BeginsWith literal w) :=
  inferInstanceAs (Decidable (_ ∧ _))

/-- A word with the ceiling in place of the literal that it begins with, if the word
before it ends in `LIMIT`. -/
def resetWord (literal ceiling previous w : List Char) : List Char :=
  if EndsInLimit none previous ∧ BeginsWith literal w then ceiling ++ w.drop literal.length else w

variable {literal ceiling : List Char}

theorem beginsWith_append_iff {y : List Char} :
    BeginsWith literal (literal ++ y) ↔ isBoundary y.head? = true := by
  rw [BeginsWith, List.drop_left]
  exact and_iff_right (List.prefix_append literal y)

/-- Each word of a replaced text is told by the word in its place and the one before. -/
theorem Replaced.eq_zipWith {previous : List Char} {ws ws' : List (List Char)}
    (h : Replaced literal ceiling previous ws ws') :
    ws' = List.zipWith (resetWord literal ceiling) (previous :: ws) ws := by
  induction h with
  | nil previous => rfl
  | @keep previous w ws ws' hnot rest ih =>
    have hkept : resetWord literal ceiling previous w = w := by
      refine if_neg ?_
      rintro ⟨hends, ⟨y, rfl⟩, hboundary⟩
      rw [List.drop_left] at hboundary
      exact Bool.false_ne_true ((hnot hends y rfl).symm.trans hboundary)
    rw [List.zipWith_cons_cons, hkept, ← ih]
  | @swap previous y ws ws' hends hy rest ih =>
    have hreset : resetWord literal ceiling previous (literal ++ y) = ceiling ++ y := by
      rw [resetWord, if_pos ⟨hends, beginsWith_append_iff.2 hy⟩, List.drop_left]
    rw [List.zipWith_cons_cons, hreset, ← ih]

theorem tokens_replaceLimit (hliteral : IsLiteral literal) (hceiling : IsLiteral ceiling)
    (s : List Char) : tokens (replaceLimit literal ceiling s) =
      (List.zipWith (resetWord literal ceiling) ([] :: words s) (words s)).map Text.upper := by
  rw [tokens, (replaced_words hliteral hceiling s).eq_zipWith]

theorem getElem?_tokens (s : List Char) (i : Nat) :
    (tokens s)[i]? = ((words s)[i]?).map Text.upper := List.getElem?_map ..

theorem length_tokens_replaceLimit (hliteral : IsLiteral literal) (hceiling : IsLiteral ceiling)
    (s : List Char) : (tokens (replaceLimit literal ceiling s)).length = (tokens s).length := by
  rw [tokens_replaceLimit hliteral hceiling, List.length_map, List.length_zipWith, tokens,
    List.length_map, List.length_cons]
  exact Nat.min_eq_right (Nat.le_succ _)

section Place

variable (hliteral : IsLiteral literal) (hceiling : IsLiteral ceiling) {s : List Char} {i : Nat}

include hliteral hceiling

/-- The token in a place of a replaced text, told by the words of the text. -/
theorem getElem?_tokens_replaceLimit {previous w : List Char}
    (hprevious : ([] :: words s)[i]? = some previous) (hw : (words s)[i]? = some w) :
    (tokens (replaceLimit literal ceiling s))[i]? =
      some (Text.upper (resetWord literal ceiling previous w)) := by
  rw [tokens_replaceLimit hliteral hceiling, List.getElem?_map, List.getElem?_zipWith, hprevious,
    hw]
  rfl

/-- A word that does not begin with the literal stays, whatever stands before it. -/
theorem getElem?_tokens_of_not_beginsWith {w : List Char} (hw : (words s)[i]? = some w)
    (hnot : ¬BeginsWith literal w) :
    (tokens (replaceLimit literal ceiling s))[i]? = (tokens s)[i]? := by
  obtain ⟨hi, -⟩ := List.getElem?_eq_some_iff.1 hw
  have hprevious := List.getElem?_eq_getElem
    (show i < ([] :: words s).length from Nat.lt_succ_of_lt hi)
  rw [getElem?_tokens_replaceLimit hliteral hceiling hprevious hw, getElem?_tokens, hw, resetWord,
    if_neg fun hfound => hnot hfound.2, Option.map_some]

/-- A token that is the literal becomes the ceiling right behind a `LIMIT` of ASCII
letters. -/
theorem getElem?_tokens_of_literal {previous : List Char}
    (hprevious : ([] :: words s)[i]? = some previous)
    (hlimit : previous.map Char.toUpper = limitWord) (hold : (tokens s)[i]? = some literal) :
    (tokens (replaceLimit literal ceiling s))[i]? = some ceiling := by
  rw [getElem?_tokens, Option.map_eq_some_iff] at hold
  obtain ⟨w, hw, hupper⟩ := hold
  -- Only the literal itself has the literal as its upper case.
  obtain rfl : w = literal :=
    (upper_eq_of_isLiteral (hupper.symm ▸ hliteral)).symm.trans hupper
  have hbegins : BeginsWith w (w ++ []) := beginsWith_append_iff.2 rfl
  rw [List.append_nil] at hbegins
  rw [getElem?_tokens_replaceLimit hliteral hceiling hprevious hw, resetWord,
    if_pos ⟨endsInLimit_of_map_toUpper hlimit, hbegins⟩, List.drop_length, List.append_nil,
    upper_of_isNumeric hceiling.2]

end Place

/-! ### A request that has been reset -/

variable {searchable : List Char → Bool} {limit : Int64}

/-- There is a warning only where the first request is above the ceiling. -/
theorem exists_of_warning {s : List Char} (h : (applyCeiling searchable limit s).2.isSome = true) :
    0 < limit.toInt ∧ ∃ literal n, requested? (tokens s) = some (literal, n) ∧ limit.toInt < n ∧
      (applyCeiling searchable limit s).1 =
        resetLimit searchable literal (toString limit.toInt).toList s := by
  rw [applyCeiling] at h ⊢
  split at h
  · next hlimit =>
    split at h
    · next literal n hrequested =>
      split at h
      · next hlt =>
        refine ⟨hlimit, literal, n, hrequested, hlt, ?_⟩
        simp only [if_pos hlimit, if_pos hlt]
      · cases h
    · cases h
  · cases h

/-- **Resetting a request goes through the tokens one by one.**  Where a warning says
that the request has been reset, the first `LIMIT` token of the text has an
integer above the ceiling behind it.  If no pattern can be built for that literal,
a `LIMIT` with the ceiling is appended.  Otherwise no token is lost or made up,
and each has the ceiling in place of the literal just if it begins with the
literal and the token before it ends in `LIMIT`; of a token behind a `LIMIT` with
other letters than those of ASCII nothing is said, unless it does not begin with
the literal.  So every token that is the literal, right behind a `LIMIT` of ASCII
letters, becomes the ceiling, and the ceiling follows the first `LIMIT` of the
text, if that is one. -/
theorem tokens_of_reset {text query : String}
    (h : checkWith searchable limit text =
      .accepted query (some ("LIMIT reset to " ++ toString limit.toInt))) :
    let ceiling := (toString limit.toInt).toList
    let given := words text.toList
    let old := tokens text.toList
    let new := tokens query.toList
    ∃ literal n, requested? old = some (literal, n) ∧ limit.toInt < n ∧
      (searchable literal = false → new = old ++ [limitWord, ceiling]) ∧
      (searchable literal = true →
        new.length = old.length ∧
        (∀ (i : Nat) (previous w : List Char), ([] :: given)[i]? = some previous →
          given[i]? = some w → PlainLimits [previous] →
            new[i]? = some (Text.upper (resetWord literal ceiling previous w))) ∧
        (∀ (i : Nat) (w : List Char), given[i]? = some w → ¬BeginsWith literal w →
          new[i]? = old[i]?) ∧
        (∀ (i : Nat) (previous : List Char), ([] :: given)[i]? = some previous →
          previous.map Char.toUpper = limitWord → old[i]? = some literal →
            new[i]? = some ceiling) ∧
        (PlainLimits (given.find? fun w => Text.upper w = limitWord).toList →
          ∃ rest, new.dropWhile (· ≠ limitWord) = limitWord :: ceiling :: rest)) := by
  intro ceiling given old new
  obtain ⟨-, hquery, hwarning⟩ := checkWith_eq_accepted_iff.1 h
  obtain ⟨hlimit, literal, n, hrequested, hlt, hreset⟩ :=
    exists_of_warning (hwarning ▸ rfl : (applyCeiling searchable limit text.toList).2.isSome = true)
  have hliteral : IsLiteral literal :=
    isLiteral_of_requested? (Int.lt_trans hlimit hlt) hrequested
  have hceiling : IsLiteral ceiling := isLiteral_toString hlimit
  refine ⟨literal, n, hrequested, hlt, fun hsearchable => ?_, fun hsearchable => ?_⟩
  · rw [resetLimit, hsearchable, if_neg Bool.false_ne_true] at hreset
    have hnew : query.toList = text.toList ++ ' ' :: limitWord ++ ' ' :: ceiling :=
      hquery.trans hreset
    show tokens query.toList = _
    rw [hnew]
    exact tokens_append_limit hceiling (words_append_limit _ hceiling)
  · rw [resetLimit, if_pos hsearchable] at hreset
    have hnew : new = tokens (replaceLimit literal ceiling text.toList) :=
      congrArg tokens (hquery.trans hreset)
    rw [hnew]
    refine ⟨length_tokens_replaceLimit hliteral hceiling _, fun i previous w hprevious hw _ =>
      getElem?_tokens_replaceLimit hliteral hceiling hprevious hw, fun i w hw hnot =>
        getElem?_tokens_of_not_beginsWith hliteral hceiling hw hnot, fun i previous hprevious hends
          hold => getElem?_tokens_of_literal hliteral hceiling hprevious hends hold, ?_⟩
    intro hplain
    obtain ⟨⟨rest, hfirst⟩, -⟩ := requested?_eq_some_iff.1 hrequested
    exact (replaced_words hliteral hceiling text.toList).dropWhile_eq hliteral hceiling hplain hfirst

/-- A text whose number stands behind a `LIMIT`, in a quoted text behind another, and
in one behind a word that merely has the letters. -/
def askingQuoted : String :=
  "MATCH (a) WITH a limit 3000 RETURN a, 'LIMIT 3000', 'NOLIMIT 3000'"

theorem tokens_of_reset_askingQuoted :
    ∃ query, checkWith (fun _ => true) 250 askingQuoted =
        .accepted query (some "LIMIT reset to 250") ∧
      (tokens query.toList)[5]? = some "250".toList ∧
      (tokens query.toList)[9]? = some "250'".toList ∧
      (tokens query.toList)[11]? = some "3000'".toList ∧
      ∃ rest, (tokens query.toList).dropWhile (· ≠ limitWord) =
        limitWord :: "250".toList :: rest := by
  have haccepted : checkWith (fun _ => true) 250 askingQuoted =
      .accepted "MATCH (a) WITH a limit 250 RETURN a, 'LIMIT 250', 'NOLIMIT 3000'"
        (some ("LIMIT reset to " ++ toString (Int64.toInt 250))) := by decide +kernel
  obtain ⟨literal, n, hrequested, -, -, hreset⟩ := tokens_of_reset haccepted
  have hfound : requested? (tokens askingQuoted.toList) = some ("3000".toList, 3000) := by
    decide +kernel
  rw [hfound] at hrequested
  cases hrequested
  obtain ⟨-, hword, -, hliteral, hfirst⟩ := hreset rfl
  have hwords : words askingQuoted.toList =
      ["MATCH", "a", "WITH", "a", "limit", "3000", "RETURN", "a", "'LIMIT", "3000'", "'NOLIMIT",
        "3000'"].map String.toList := by decide +kernel
  refine ⟨_, haccepted, ?_, ?_, ?_, hfirst ?_⟩
  · refine hliteral 5 "limit".toList (hwords ▸ rfl) (by decide) ?_
    rw [getElem?_tokens, hwords]
    decide +kernel
  · rw [hword 9 "'LIMIT".toList "3000'".toList (hwords ▸ rfl) (hwords ▸ rfl) (by decide)]
    decide +kernel
  · rw [hword 11 "'NOLIMIT".toList "3000'".toList (hwords ▸ rfl) (hwords ▸ rfl) (by decide)]
    decide +kernel
  · rw [hwords]
    decide +kernel

/-- Tokens with the ceiling in place of a literal that is a token of its own, right
behind a token that is `LIMIT`. -/
def resetBehindLimit (literal ceiling : List Char) (tokens : List (List Char)) :
    List (List Char) :=
  List.zipWith (fun previous t => if previous = limitWord ∧ t = literal then ceiling else t)
    ([] :: tokens) tokens

/-- A number is reset in a quoted text as well, where neither it nor the `LIMIT` before
it is a token. -/
theorem tokens_ne_of_quotedLimit :
    let text := "MATCH (a) WHERE a.x = 'LIMIT 3000' RETURN a LIMIT 3000"
    ∃ query, checkWith (fun _ => true) 250 text = .accepted query (some "LIMIT reset to 250") ∧
      requested? (tokens text.toList) = some ("3000".toList, 3000) ∧
      tokens query.toList ≠
        resetBehindLimit "3000".toList "250".toList (tokens text.toList) :=
  ⟨"MATCH (a) WHERE a.x = 'LIMIT 250' RETURN a LIMIT 250", by decide +kernel, by decide +kernel,
    by decide +kernel⟩

end PropertyGraph.Guard
