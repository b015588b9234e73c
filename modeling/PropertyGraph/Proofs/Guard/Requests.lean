/-
The result counts that a text under a ceiling still asks for.

The guard looks at the first `LIMIT` alone.  So a text that it lets through asks
for no more than the ceiling at one place at least, and where it asks for more,
the given text does too, by another literal than at its first `LIMIT`.

* **`upper_eq_of_isLiteral`** — only a number has a number as its upper case;
* **`Requests`** — a `LIMIT` right before an integer;
* **`Replaced.pair_of_pair`**, **`Replaced.dropWhile_eq`** — what a replacement
  does to the requests of a text;
* **`requests_of_accepted`** — the requests of a text that is let through.
-/
import Mathlib.Data.List.Infix
import PropertyGraph.Proofs.Guard.Execution
import PropertyGraph.Proofs.Guard.Replacement

namespace PropertyGraph

/-! ### Numbers in upper case -/

namespace Text

theorem eq_or_le_of_mem_upperCode {n m : Nat} (h : m ∈ upperCode n) : m = n ∨ 65 ≤ m := by
  rw [upperCode] at h
  split at h
  · next first last stride image hfound =>
    have htable : ∀ r ∈ upperRuns, 65 ≤ r.2.2.2 := by decide +kernel
    have himage : 65 ≤ image := htable _ (List.mem_of_find?_eq_some hfound)
    obtain rfl := List.mem_singleton.1 h
    omega
  · split at h
    · next codes hfound =>
      have htable : ∀ e ∈ upperSequences, ∀ m ∈ e.2, 65 ≤ m := by decide +kernel
      exact .inr (htable _ (List.mem_of_find?_eq_some hfound) m h)
    · exact .inl (List.mem_singleton.1 h)

end Text

namespace Guard

theorem exists_mem_upperChar (c : Char) : ∃ d, d ∈ Text.upperChar c := by
  obtain ⟨d, ds, hd⟩ := List.exists_cons_of_ne_nil (upper_ne_nil (List.cons_ne_nil c []))
  rw [Text.upper, List.flatMap_singleton] at hd
  exact ⟨d, hd ▸ List.mem_cons_self⟩

/-- Nothing but the character itself becomes a digit or a sign. -/
theorem eq_of_mem_upperChar {c d : Char} (h : d ∈ Text.upperChar c) (hd : IsNumeric d) :
    d = c := by
  rw [Text.upperChar] at h
  split at h
  · next hc =>
    obtain rfl := List.mem_singleton.1 h
    exact Text.forall_ascii (P := fun c => IsNumeric c.toUpper → c.toUpper = c) (by decide) hc hd
  · obtain ⟨m, hm, rfl⟩ := List.mem_map.1 h
    obtain rfl | hle := Text.eq_or_le_of_mem_upperCode hm
    · exact Char.ofNat_toNat c
    · have hcode : (Char.ofNat m).toNat = m ∨ (Char.ofNat m).toNat = 0 := by
        by_cases hm : m.isValidChar
        · exact .inl (congrArg Char.toNat (dif_pos hm))
        · exact .inr (congrArg Char.toNat (dif_neg hm))
      have hrange := Text.forall_ascii (P := fun d => IsNumeric d → 0 < d.toNat ∧ d.toNat < 65)
        (by decide) hd.lt hd
      omega

theorem mem_upper_iff {w : List Char} {d : Char} :
    d ∈ Text.upper w ↔ ∃ c ∈ w, d ∈ Text.upperChar c := List.mem_flatMap

theorem upper_append (v w : List Char) : Text.upper (v ++ w) = Text.upper v ++ Text.upper w :=
  List.flatMap_append

theorem upper_of_isNumeric {w : List Char} (h : ∀ c ∈ w, IsNumeric c) : Text.upper w = w := by
  induction w with
  | nil => rfl
  | cons c w ih =>
    obtain ⟨hc, hw⟩ := List.forall_mem_cons.1 h
    rw [Text.upper, List.flatMap_cons, hc.upperChar]
    exact congrArg (c :: ·) (ih hw)

/-- Only a number has a number as its upper case. -/
theorem upper_eq_of_isLiteral {w : List Char} (h : IsLiteral (Text.upper w)) :
    Text.upper w = w := by
  refine upper_of_isNumeric fun c hc => ?_
  obtain ⟨d, hmem⟩ := exists_mem_upperChar c
  have hnumeric := h.2 d (mem_upper_iff.2 ⟨c, hc, hmem⟩)
  exact eq_of_mem_upperChar hmem hnumeric ▸ hnumeric

/-- No word that begins like a number is a `LIMIT`. -/
theorem BeginsNumeric.upper_ne_limitWord {w : List Char} (h : BeginsNumeric w) :
    Text.upper w ≠ limitWord := by
  obtain ⟨c, rest, heq, hc⟩ := h.upper
  intro hlimit
  obtain rfl : c = 'L' := (List.cons.inj (heq.symm.trans hlimit)).1
  exact absurd hc (by decide)

/-- A number is none any more with something of its word behind it. -/
theorem eq_nil_of_intOfDigits?_upper {ceiling u : List Char} (hceiling : IsLiteral ceiling)
    (hu : isBoundary u.head? = true) {n : Int}
    (h : Text.intOfDigits? (Text.upper (ceiling ++ u)) = some n) : u = [] := by
  cases u with
  | nil => rfl
  | cons d u =>
    obtain ⟨c, cs, rfl⟩ := List.exists_cons_of_ne_nil hceiling.1
    rw [upper_append, upper_of_isNumeric hceiling.2, List.cons_append] at h
    have hdigits := Text.all_isDigit_of_intOfDigits? h
    obtain ⟨e, hmem⟩ := exists_mem_upperChar d
    have hdigit : e.isDigit = true := List.all_eq_true.1 hdigits e
      (List.mem_append_right _ (mem_upper_iff.2 ⟨d, List.mem_cons_self, hmem⟩))
    -- The character behind the number would be a digit, and so one of its word.
    obtain rfl := eq_of_mem_upperChar hmem (.inl hdigit)
    have hword : Text.isWordChar e = true := Text.forall_ascii
      (P := fun e => e.isDigit = true → Text.isWordChar e = true) (by decide)
      (Text.isDigit_lt hdigit) hdigit
    rw [List.head?_cons, isBoundary, Option.all_some, hword] at hu
    cases hu

/-! ### Requests -/

/-- A `LIMIT` stands right before an integer. -/
def Requests (tokens : List (List Char)) (literal : List Char) (n : Int) : Prop :=
  [limitWord, literal] <:+: tokens ∧ Text.intOfDigits? literal = some n

theorem requested?_eq_some_iff {tokens : List (List Char)} {literal : List Char} {n : Int} :
    requested? tokens = some (literal, n) ↔
      (∃ rest, tokens.dropWhile (· ≠ limitWord) = limitWord :: literal :: rest) ∧
        literalValue? literal = some n := by
  have hfirst : ∀ {first : List Char} {rest : List (List Char)},
      tokens.dropWhile (· ≠ limitWord) = first :: rest → first = limitWord := by
    intro first rest h
    have hnot := List.head?_dropWhile_not (fun w : List Char => w ≠ limitWord) tokens
    rw [h] at hnot
    simpa using hnot
  rw [requested?]
  split
  · next first literal' rest h =>
    obtain rfl := hfirst h
    rw [h, Option.map_eq_some_iff]
    constructor
    · rintro ⟨m, hm, heq⟩
      cases heq
      exact ⟨⟨rest, rfl⟩, hm⟩
    · rintro ⟨⟨rest', heq⟩, hn⟩
      cases heq
      exact ⟨n, hn, rfl⟩
  · next h =>
    refine iff_of_false (Option.some_ne_none _).symm ?_
    rintro ⟨⟨rest, heq⟩, -⟩
    exact h _ _ _ heq

/-- The guard takes a number for what it is, unless it is beyond all ceilings. -/
theorem intOfDigits?_of_literalValue? {literal : List Char} {n : Int}
    (h : literalValue? literal = some n) (hn : n < Nat.pow 2 127 - 1) :
    Text.intOfDigits? literal = some n := by
  rw [literalValue?] at h
  split at h
  · next m hm =>
    obtain rfl := Option.some.inj h
    obtain ⟨k, hk, hwithin⟩ := Option.bind_eq_some_iff.1 hm
    rw [Text.within, Option.ite_none_right_eq_some] at hwithin
    rw [hk, hwithin.2]
  · rw [Option.ite_none_right_eq_some] at h
    have := Option.some.inj h.2
    omega

theorem infix_of_dropWhile {tokens rest : List (List Char)} {w : List Char}
    (h : tokens.dropWhile (· ≠ limitWord) = limitWord :: w :: rest) :
    [limitWord, w] <:+: tokens := by
  have hfront : [limitWord, w] <+: tokens.dropWhile (· ≠ limitWord) := h ▸ ⟨rest, rfl⟩
  exact hfront.isInfix.trans (List.dropWhile_suffix _).isInfix

/-! ### Requests of a replaced text -/

/-- Every `LIMIT` is written in letters of ASCII. -/
def PlainLimits (ws : List (List Char)) : Prop :=
  ∀ w ∈ ws, Text.upper w = limitWord → w.map Char.toUpper = limitWord

instance (ws : List (List Char)) : Decidable (PlainLimits ws) :=
  inferInstanceAs (Decidable (∀ _ ∈ _, _))

variable {literal ceiling : List Char}

theorem endsInLimit_of_map_toUpper {w : List Char} (h : w.map Char.toUpper = limitWord) :
    EndsInLimit none w := ⟨[], w, rfl, h, rfl⟩

/-- A request in a replaced text is for the new number, or it is in the given text
too and not for the old one.  The induction carries along the word before, as the
text has it and as the replaced text shows it. -/
theorem Replaced.pair_of_pair (hliteral : IsLiteral literal) (hceiling : IsLiteral ceiling)
    {previous shown : List Char} {ws ws' : List (List Char)}
    (h : Replaced literal ceiling previous ws ws') (hplain : PlainLimits (previous :: ws))
    (hshown : Text.upper shown = limitWord → Text.upper previous = limitWord)
    {w : List Char} {n : Int} (hw : Text.intOfDigits? w = some n) (hne : w ≠ ceiling)
    (hpair : [limitWord, w] <:+: (shown :: ws').map Text.upper) :
    [limitWord, w] <:+: (previous :: ws).map Text.upper ∧ w ≠ literal := by
  induction h generalizing shown with
  | nil previous =>
    have hlength := hpair.length_le
    simp at hlength
  | @keep previous v ws ws' hnot rest ih =>
    rw [List.map_cons, List.infix_cons_iff] at hpair
    rw [List.map_cons, List.infix_cons_iff]
    obtain hfront | hpair := hpair
    · rw [List.map_cons, List.cons_prefix_cons, List.cons_prefix_cons] at hfront
      obtain ⟨hlimit, rfl, -⟩ := hfront
      have hprevious := hshown hlimit.symm
      refine ⟨.inl (by simp [hprevious]), ?_⟩
      -- Had it been the old number, it would have been replaced.
      rintro rfl
      have hsame : v = Text.upper v := (upper_eq_of_isLiteral hliteral).symm
      have hends := endsInLimit_of_map_toUpper (hplain previous List.mem_cons_self hprevious)
      exact absurd (hnot hends [] (by simpa using hsame)) (by decide)
    · obtain ⟨hpair', hw'⟩ := ih (fun u hu => hplain u (List.mem_cons_of_mem _ hu)) id hpair
      exact ⟨.inr hpair', hw'⟩
  | @swap previous y ws ws' hends hy rest ih =>
    rw [List.map_cons, List.infix_cons_iff] at hpair
    rw [List.map_cons, List.infix_cons_iff]
    obtain hfront | hpair := hpair
    · rw [List.map_cons, List.cons_prefix_cons, List.cons_prefix_cons] at hfront
      obtain ⟨-, rfl, -⟩ := hfront
      obtain rfl := eq_nil_of_intOfDigits?_upper hceiling hy hw
      rw [List.append_nil, upper_of_isNumeric hceiling.2] at hne
      exact absurd rfl hne
    · have hshown' : Text.upper (ceiling ++ y) = limitWord →
          Text.upper (literal ++ y) = limitWord := fun hlimit =>
        absurd hlimit (hceiling.beginsNumeric.append y).upper_ne_limitWord
      obtain ⟨hpair', hw'⟩ := ih (fun u hu => hplain u (List.mem_cons_of_mem _ hu)) hshown' hpair
      exact ⟨.inr hpair', hw'⟩

/-- Behind the first `LIMIT`, if it is of ASCII letters, the old number is replaced. -/
theorem Replaced.dropWhile_eq (hliteral : IsLiteral literal) (hceiling : IsLiteral ceiling)
    {previous : List Char} {ws ws' : List (List Char)}
    (h : Replaced literal ceiling previous ws ws')
    (hplain : PlainLimits (ws.find? fun w => Text.upper w = limitWord).toList)
    {rest : List (List Char)}
    (hfirst : (ws.map Text.upper).dropWhile (· ≠ limitWord) = limitWord :: literal :: rest) :
    ∃ rest', (ws'.map Text.upper).dropWhile (· ≠ limitWord) = limitWord :: ceiling :: rest' := by
  induction h with
  | nil previous => simp at hfirst
  | @keep previous w ws ws' _ hrest ih =>
    by_cases hlimit : Text.upper w = limitWord
    · rw [List.find?_cons_of_pos (by simpa using hlimit)] at hplain
      rw [List.map_cons, List.dropWhile_cons_of_neg (by simpa using hlimit)] at hfirst ⊢
      obtain ⟨-, hrest'⟩ := List.cons.inj hfirst
      cases hrest with
      | nil => simp at hrest'
      | @keep _ v _ _ hnot _ =>
        have hv : Text.upper v = literal := (List.cons.inj hrest').1
        have hsame : v = literal := (upper_eq_of_isLiteral (hv ▸ hliteral)).symm.trans hv
        have hends := endsInLimit_of_map_toUpper (hplain w (List.mem_singleton_self w) hlimit)
        exact absurd (hnot hends [] (by simpa using hsame)) (by decide)
      | @swap _ y _ ws' _ hy _ =>
        have hv : Text.upper (literal ++ y) = literal := (List.cons.inj hrest').1
        have hnil : y = [] := by
          have hsame := upper_eq_of_isLiteral (hv ▸ hliteral)
          rw [hv] at hsame
          simpa using hsame.symm
        subst hnil
        exact ⟨ws'.map Text.upper, by simp [hlimit, upper_of_isNumeric hceiling.2]⟩
    · rw [List.find?_cons_of_neg (by simpa using hlimit)] at hplain
      rw [List.map_cons, List.dropWhile_cons_of_pos (by simpa using hlimit)] at hfirst ⊢
      exact ih hplain hfirst
  | @swap previous y ws ws' _ _ _ ih =>
    have hold := (hliteral.beginsNumeric.append y).upper_ne_limitWord
    have hnew := (hceiling.beginsNumeric.append y).upper_ne_limitWord
    rw [List.find?_cons_of_neg (by simpa using hold)] at hplain
    rw [List.map_cons, List.dropWhile_cons_of_pos (by simpa using hold)] at hfirst
    rw [List.map_cons, List.dropWhile_cons_of_pos (by simpa using hnew)]
    exact ih hplain hfirst

theorem PlainLimits.first {ws : List (List Char)} (h : PlainLimits ws) :
    PlainLimits (ws.find? fun w => Text.upper w = limitWord).toList := fun w hw =>
  h w (List.mem_of_find?_eq_some (Option.mem_toList.1 hw))

/-! ### Requests of a text under a ceiling -/

theorem infix_of_infix_concat {l : List (List Char)} {v w u : List Char} (hne : w ≠ u)
    (h : [v, w] <:+: l ++ [u]) : [v, w] <:+: l := by
  refine (List.infix_concat_iff.1 h).resolve_left ?_
  rintro ⟨front, heq⟩
  have hlast := congrArg List.getLast? heq
  rw [List.append_cons, List.getLast?_concat, List.getLast?_concat] at hlast
  exact hne (Option.some.inj hlast)

/-- A text asks for no more than a ceiling at one place at least, and where it
asks for more than that, another one does too, by another literal than at its
first `LIMIT`, if that can be searched for. -/
def AsksWithin (searchable : List Char → Bool) (limit : Int) (old new : List (List Char)) : Prop :=
  (∃ literal n, Requests new literal n ∧ n ≤ limit) ∧
    ∀ literal n, Requests new literal n → limit < n → Requests old literal n ∧
      ∀ first m, requested? old = some (first, m) → searchable first = true → literal ≠ first

variable {searchable : List Char → Bool} {limit : Int64}

theorem lt_of_int64 (n : Int64) : n.toInt < Nat.pow 2 127 - 1 := by
  have hbound := Int64.toInt_lt n
  have hpow : (2 : Int) ^ 63 < Nat.pow 2 127 - 1 := by decide
  omega

/-- A `LIMIT` and a number are tokens as they stand. -/
theorem tokens_append_limit (hceiling : IsLiteral ceiling) {s t : List Char}
    (h : words t = words s ++ [limitWord, ceiling]) :
    tokens t = tokens s ++ [limitWord, ceiling] := by
  have hupper : Text.upper limitWord = limitWord := by decide
  rw [tokens, h, List.map_append, List.map_cons, List.map_singleton, hupper,
    upper_of_isNumeric hceiling.2]
  rfl

/-- A text with a request for the ceiling behind it. -/
theorem asksWithin_append {old new : List (List Char)}
    (hnew : new = old ++ [limitWord, (toString limit.toInt).toList])
    (hfirst : ∀ first m, requested? old = some (first, m) → searchable first = false) :
    AsksWithin searchable limit.toInt old new := by
  have hceiling : Text.intOfDigits? (toString limit.toInt).toList = some limit.toInt :=
    Text.intOfDigits?_toString _
  refine ⟨⟨_, _, ⟨hnew ▸ (List.suffix_append _ _).isInfix, hceiling⟩, Int.le_refl _⟩, ?_⟩
  rintro literal n ⟨hpair, hn⟩ hlt
  refine ⟨⟨?_, hn⟩, fun first m hrequested hsearchable => ?_⟩
  · rw [hnew, List.append_cons] at hpair
    have hne : literal ≠ (toString limit.toInt).toList := by
      rintro rfl
      have hsame := Option.some.inj (hceiling.symm.trans hn)
      omega
    have hne' : literal ≠ limitWord := by
      rintro rfl
      cases hn
    exact infix_of_infix_concat hne' (infix_of_infix_concat hne hpair)
  · rw [hfirst first m hrequested] at hsearchable
    cases hsearchable

/-- A text whose first request is within the ceiling. -/
theorem asksWithin_self {tokens : List (List Char)} {first : List Char} {m : Int}
    (hrequested : requested? tokens = some (first, m)) (hle : m ≤ limit.toInt) :
    AsksWithin searchable limit.toInt tokens tokens := by
  obtain ⟨⟨rest, hdrop⟩, hvalue⟩ := requested?_eq_some_iff.1 hrequested
  have hm := intOfDigits?_of_literalValue? hvalue (Int.lt_of_le_of_lt hle (lt_of_int64 limit))
  refine ⟨⟨first, m, ⟨infix_of_dropWhile hdrop, hm⟩, hle⟩, fun literal n hn hlt => ⟨hn, ?_⟩⟩
  rintro first' m' hrequested' - rfl
  rw [hrequested] at hrequested'
  cases hrequested'
  have hsame := Option.some.inj (hm.symm.trans hn.2)
  omega

/-- A text whose first request has been cut down. -/
theorem asksWithin_replaceLimit (hlimit : 0 < limit.toInt) {s first : List Char} {m : Int}
    (hrequested : requested? (tokens s) = some (first, m)) (hlt : limit.toInt < m)
    (hplain : PlainLimits (words s)) :
    AsksWithin searchable limit.toInt (tokens s)
      (tokens (replaceLimit first (toString limit.toInt).toList s)) := by
  have hliteral := isLiteral_of_requested? (Int.lt_trans hlimit hlt) hrequested
  have hceiling := isLiteral_toString hlimit
  have hvalue : Text.intOfDigits? (toString limit.toInt).toList = some limit.toInt :=
    Text.intOfDigits?_toString _
  have hreplaced := replaced_words hliteral hceiling s
  obtain ⟨⟨rest, hdrop⟩, -⟩ := requested?_eq_some_iff.1 hrequested
  obtain ⟨rest', hdrop'⟩ := hreplaced.dropWhile_eq hliteral hceiling hplain.first hdrop
  refine ⟨⟨_, _, ⟨infix_of_dropWhile hdrop', hvalue⟩, Int.le_refl _⟩, ?_⟩
  rintro literal n ⟨hpair, hn⟩ hlt'
  have hne : literal ≠ (toString limit.toInt).toList := by
    rintro rfl
    have hsame := Option.some.inj (hvalue.symm.trans hn)
    omega
  have hnil : Text.upper [] ≠ limitWord := by decide
  have hplain' : PlainLimits ([] :: words s) :=
    List.forall_mem_cons.2 ⟨fun h => absurd h hnil, hplain⟩
  have hskip : ∀ {l : List (List Char)}, [limitWord, literal] <:+: (([] :: l).map Text.upper) ↔
      [limitWord, literal] <:+: l.map Text.upper := by
    intro l
    rw [List.map_cons, List.infix_cons_iff, List.cons_prefix_cons]
    exact or_iff_right fun h => hnil h.1.symm
  obtain ⟨hpair', hfirst⟩ := hreplaced.pair_of_pair hliteral hceiling hplain' id hn hne
    (hskip.2 hpair)
  refine ⟨⟨hskip.1 hpair', hn⟩, fun first' m' hrequested' _ => ?_⟩
  rw [hrequested] at hrequested'
  cases hrequested'
  exact hfirst

/-- **A text that is let through under a ceiling** asks for no more than the
ceiling at one place at least.  Where it asks for more, the given text does too,
by another literal than at its first `LIMIT`. -/
theorem requests_of_accepted {text query : String} {warning : Option String}
    (hlimit : 0 < limit.toInt) (hplain : PlainLimits (words text.toList))
    (h : checkWith searchable limit text = .accepted query warning) :
    AsksWithin searchable limit.toInt (tokens text.toList) (tokens query.toList) := by
  obtain ⟨-, hquery, -⟩ := checkWith_eq_accepted_iff.1 h
  have hceiling := isLiteral_toString hlimit
  rw [hquery, applyCeiling]
  simp only [if_pos hlimit]
  split
  · next first m hrequested =>
    by_cases hlt : limit.toInt < m
    · rw [if_pos hlt, resetLimit]
      split
      · exact asksWithin_replaceLimit hlimit hrequested hlt hplain
      · next hsearchable =>
        refine asksWithin_append (tokens_append_limit hceiling (words_append_limit _ hceiling)) ?_
        intro first' m' hrequested'
        rw [hrequested] at hrequested'
        cases hrequested'
        simpa using hsearchable
    · rw [if_neg hlt]
      exact asksWithin_self hrequested (by omega)
  · next hnone =>
    refine asksWithin_append (tokens_append_limit hceiling (words_appendLimit _ hceiling)) ?_
    intro first m hrequested
    rw [hnone] at hrequested
    cases hrequested

/-- A text that asks for too much in the middle and at the end. -/
def askingTwice : String := "MATCH (a) WITH a limit 300 MATCH (b) RETURN b LIMIT 10000"

theorem requests_of_accepted_askingTwice :
    ∃ query, checkWith (fun _ => true) 250 askingTwice =
        .accepted query (some "LIMIT reset to 250") ∧
      query = "MATCH (a) WITH a limit 250 MATCH (b) RETURN b LIMIT 10000" ∧
      AsksWithin (fun _ => true) 250 (tokens askingTwice.toList) (tokens query.toList) := by
  have haccepted : checkWith (fun _ => true) 250 askingTwice =
      .accepted "MATCH (a) WITH a limit 250 MATCH (b) RETURN b LIMIT 10000"
        (some "LIMIT reset to 250") := by decide +kernel
  exact ⟨_, haccepted, rfl, requests_of_accepted (by decide) (by decide +kernel) haccepted⟩

/-- A text whose first request is within the ceiling and whose last one is not. -/
def askingLater : String := "MATCH (a) WITH a LIMIT 10 MATCH (a)-[r]->(b) RETURN b LIMIT 10000"

theorem exceeds_of_askingLater :
    ∃ query, checkWith (fun _ => true) 250 askingLater = .accepted query none ∧
      Requests (tokens query.toList) "10000".toList 10000 ∧ ¬(10000 : Int) ≤ Int64.toInt 250 := by
  have haccepted : checkWith (fun _ => true) 250 askingLater = .accepted askingLater none := by
    decide +kernel
  refine ⟨_, haccepted, ⟨⟨["MATCH", "A", "WITH", "A", "LIMIT", "10", "MATCH", "A", "-[R]->", "B",
    "RETURN", "B"].map String.toList, [], ?_⟩, ?_⟩, ?_⟩ <;> decide +kernel

end Guard

end PropertyGraph
