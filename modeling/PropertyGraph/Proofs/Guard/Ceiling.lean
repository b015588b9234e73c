/-
What the result ceiling does to the words of a text.

Replacing literals does not respect words: a literal may be followed by more of
its word.  But it always stands at the beginning of one, so every word that is
changed begins with a digit or a plus sign, before and after, and no keyword
does.  Appending only puts words behind those of the text.

* **`Rewritten`** — some literals behind separators are replaced by another;
* **`rewritten_replaceLimit`** — that is what the replacement does;
* **`Rewritten.mem_tokens_iff`** — and it leaves every other word alone;
* **`mem_tokens_applyCeiling_iff`** — a text under a ceiling has the keywords of
  the text.
-/
import Mathlib.Data.Bool.AllAny
import PropertyGraph.Guard.Verdict
import PropertyGraph.Proofs.Guard.Words
import PropertyGraph.Proofs.Text.Ascii
import PropertyGraph.Proofs.Text.Numeral

namespace PropertyGraph.Guard

/-! ### Words that begin like a number -/

/-- A digit or a plus sign. -/
def IsNumeric (c : Char) : Prop := c.isDigit = true ∨ c = '+'

instance (c : Char) : Decidable (IsNumeric c) := inferInstanceAs (Decidable (_ ∨ _))

theorem IsNumeric.lt {c : Char} (h : IsNumeric c) : c.toNat < 128 := by
  obtain h | rfl := h
  · exact Text.isDigit_lt h
  · decide

theorem IsNumeric.isSeparator {c : Char} (h : IsNumeric c) : isSeparator c = false :=
  Text.forall_ascii (P := fun c => IsNumeric c → Guard.isSeparator c = false) (by decide) h.lt h

/-- Such characters have no other case. -/
theorem IsNumeric.upperChar {c : Char} (h : IsNumeric c) : Text.upperChar c = [c] :=
  Text.forall_ascii (P := fun c => IsNumeric c → Text.upperChar c = [c]) (by decide) h.lt h

/-- A word that begins like a number. -/
def BeginsNumeric (w : List Char) : Prop := ∃ c rest, w = c :: rest ∧ IsNumeric c

/-- A literal that the guard puts in or takes out: digits, a plus sign perhaps. -/
def IsLiteral (w : List Char) : Prop := w ≠ [] ∧ ∀ c ∈ w, IsNumeric c

theorem IsLiteral.isSeparator {w : List Char} (h : IsLiteral w) :
    ∀ c ∈ w, isSeparator c = false := fun c hc => (h.2 c hc).isSeparator

theorem IsLiteral.beginsNumeric {w : List Char} (h : IsLiteral w) : BeginsNumeric w := by
  obtain ⟨c, rest, rfl⟩ := List.exists_cons_of_ne_nil h.1
  exact ⟨c, rest, rfl, h.2 c List.mem_cons_self⟩

theorem BeginsNumeric.append {w : List Char} (h : BeginsNumeric w) (s : List Char) :
    BeginsNumeric (w ++ s) := by
  obtain ⟨c, rest, rfl, hc⟩ := h
  exact ⟨c, rest ++ s, rfl, hc⟩

theorem BeginsNumeric.upper {w : List Char} (h : BeginsNumeric w) :
    BeginsNumeric (Text.upper w) := by
  obtain ⟨c, rest, rfl, hc⟩ := h
  refine ⟨c, Text.upper rest, ?_, hc⟩
  rw [Text.upper, List.flatMap_cons, hc.upperChar]
  rfl

/-! ### Replacing literals -/

/-- Some literals that stand right behind a separator are replaced by another. -/
inductive Rewritten (literal ceiling : List Char) : List Char → List Char → Prop
  | nil : Rewritten literal ceiling [] []
  | keep (c : Char) {s t : List Char} (rest : Rewritten literal ceiling s t) :
      Rewritten literal ceiling (c :: s) (c :: t)
  | swap {c : Char} (separator : isSeparator c = true) {s t : List Char}
      (rest : Rewritten literal ceiling s t) :
      Rewritten literal ceiling (c :: (literal ++ s)) (c :: (ceiling ++ t))

theorem Rewritten.append {literal ceiling s t : List Char} (h : Rewritten literal ceiling s t)
    (front : List Char) : Rewritten literal ceiling (front ++ s) (front ++ t) := by
  induction front with
  | nil => exact h
  | cons c front ih => exact .keep c ih

/-- A stretch that has been found is followed by the literal and ends in a
separator. -/
theorem limitStretch?_eq_some {literal s stretch : List Char}
    (h : limitStretch? literal s = some stretch) :
    ∃ front c tail, s = stretch ++ (literal ++ tail) ∧ stretch = front ++ [c] ∧
      isSeparator c = true := by
  simp only [limitStretch?] at h
  split at h
  case isFalse => cases h
  case isTrue hfound =>
    obtain ⟨-, hgap, hprefix, -⟩ := hfound
    cases h
    obtain ⟨tail, htail⟩ := List.isPrefixOf_iff_prefix.1 hprefix
    obtain ⟨gap, c, hlast⟩ := (List.eq_nil_or_concat _).resolve_left hgap
    rw [List.concat_eq_append] at hlast
    have hc : isSeparator c = true := by
      have hall := List.all_takeWhile (p := isSeparator) (l := s.drop limitWord.length)
      rw [hlast, List.all_append, Bool.and_eq_true] at hall
      simpa using hall.2
    refine ⟨s.take limitWord.length ++ gap, c, tail, ?_, ?_, hc⟩
    · rw [htail, List.append_assoc, List.takeWhile_append_dropWhile, List.take_append_drop]
    · rw [hlast, List.append_assoc]

theorem exists_replaceFrom_drop (literal ceiling : List Char) (n : Nat) (before : Option Char)
    (s : List Char) : ∃ before', replaceFrom literal ceiling n before s =
      replaceFrom literal ceiling 0 before' (s.drop n) := by
  induction n generalizing before s with
  | zero => exact ⟨before, rfl⟩
  | succ n ih =>
    cases s with
    | nil => exact ⟨before, rfl⟩
    | cons c s => exact ih (some c) s

theorem rewritten_replaceFrom (literal ceiling : List Char) (before : Option Char)
    (s : List Char) : Rewritten literal ceiling s (replaceFrom literal ceiling 0 before s) := by
  induction hn : s.length using Nat.strongRecOn generalizing before s with
  | ind n ih =>
    cases s with
    | nil => exact .nil
    | cons c s =>
      rw [replaceFrom]
      split
      · next stretch hstretch =>
        rw [Option.ite_none_right_eq_some] at hstretch
        obtain ⟨front, d, tail, hs, rfl, hd⟩ := limitStretch?_eq_some hstretch.2
        have hlength := congrArg List.length hs
        simp only [List.length_cons, List.length_append, List.length_nil] at hlength
        -- What is skipped is the stretch and the literal.
        have hdrop : s.drop ((front ++ [d]).length + literal.length - 1) = tail := by
          have hskipped : (front ++ [d]).length + literal.length - 1 + 1 =
              (front ++ [d] ++ literal).length := by
            simp only [List.length_append, List.length_cons]
            omega
          rw [← List.drop_succ_cons (a := c), hskipped, hs, ← List.append_assoc, List.drop_left]
        obtain ⟨before', hskip⟩ := exists_replaceFrom_drop literal ceiling
          ((front ++ [d]).length + literal.length - 1) (some c) s
        rw [hskip, hdrop, hs]
        have hrest := ih tail.length (by rw [List.length_cons] at hn; omega) before' tail rfl
        simpa using (Rewritten.swap hd hrest).append front
      · exact .keep c (ih s.length (by simp at hn; omega) (some c) s rfl)

theorem rewritten_replaceLimit (literal ceiling s : List Char) :
    Rewritten literal ceiling s (replaceLimit literal ceiling s) :=
  rewritten_replaceFrom literal ceiling none s

/-- Two beginnings of a word that no keyword tells apart. -/
def Alike (p q : List Char) : Prop := p = q ∨ BeginsNumeric p ∧ BeginsNumeric q

theorem tokens_append_cons (s : List Char) {c : Char} (hc : isSeparator c = true)
    (t : List Char) : tokens (s ++ c :: t) = tokens s ++ tokens t := by
  rw [tokens, words_append_cons s hc, List.map_append]
  rfl

theorem Alike.mem_tokens_iff {p q keyword : List Char} (h : Alike p q)
    (hp : ∀ c ∈ p, isSeparator c = false) (hq : ∀ c ∈ q, isSeparator c = false)
    (hkeyword : ¬BeginsNumeric keyword) : keyword ∈ tokens p ↔ keyword ∈ tokens q := by
  have hnot : ∀ {w : List Char}, BeginsNumeric w → (∀ c ∈ w, isSeparator c = false) →
      keyword ∉ tokens w := by
    intro w hw hsep hmem
    have hne : w ≠ [] := by
      obtain ⟨c, rest, rfl, -⟩ := hw
      exact List.cons_ne_nil c rest
    rw [tokens, words_of_forall hne hsep, List.map_singleton, List.mem_singleton] at hmem
    exact hkeyword (hmem ▸ hw.upper)
  obtain rfl | ⟨hp', hq'⟩ := h
  · exact Iff.rfl
  · exact iff_of_false (hnot hp' hp) (hnot hq' hq)

/-- Replacing literals neither makes a keyword nor undoes one.  The induction
carries along the beginnings `p` and `q` of the word that stands open. -/
theorem Rewritten.mem_tokens_iff {literal ceiling s t keyword : List Char}
    (h : Rewritten literal ceiling s t) (hliteral : IsLiteral literal)
    (hceiling : IsLiteral ceiling) (hkeyword : ¬BeginsNumeric keyword) {p q : List Char}
    (halike : Alike p q) (hp : ∀ c ∈ p, isSeparator c = false)
    (hq : ∀ c ∈ q, isSeparator c = false) :
    keyword ∈ tokens (p ++ s) ↔ keyword ∈ tokens (q ++ t) := by
  induction h generalizing p q with
  | nil =>
    rw [List.append_nil, List.append_nil]
    exact halike.mem_tokens_iff hp hq hkeyword
  | @keep c s t _ ih =>
    cases hc : isSeparator c with
    | true =>
      -- The open words end here, and none is open behind the separator.
      have hnil : ∀ d ∈ ([] : List Char), isSeparator d = false := fun d hd =>
        absurd hd List.not_mem_nil
      rw [tokens_append_cons p hc, tokens_append_cons q hc, List.mem_append, List.mem_append,
        halike.mem_tokens_iff hp hq hkeyword]
      exact or_congr_right (ih (.inl rfl) hnil hnil)
    | false =>
      have hopen : ∀ {w : List Char}, (∀ d ∈ w, isSeparator d = false) →
          ∀ d ∈ w ++ [c], isSeparator d = false := fun hw d hd =>
        (List.mem_append.1 hd).elim (hw d) fun hd => List.mem_singleton.1 hd ▸ hc
      rw [List.append_cons p, List.append_cons q]
      refine ih ?_ (hopen hp) (hopen hq)
      obtain rfl | ⟨hp', hq'⟩ := halike
      · exact .inl rfl
      · exact .inr ⟨hp'.append [c], hq'.append [c]⟩
  | swap hc _ ih =>
    rw [tokens_append_cons p hc, tokens_append_cons q hc, List.mem_append, List.mem_append,
      halike.mem_tokens_iff hp hq hkeyword]
    exact or_congr_right (ih (.inr ⟨hliteral.beginsNumeric, hceiling.beginsNumeric⟩)
      hliteral.isSeparator hceiling.isSeparator)

/-! ### Appending -/

theorem words_trimRight (s : List Char) : words (Text.trimRight s) = words s := by
  have hsplit : s = Text.trimRight s ++ (s.reverse.takeWhile Text.isBlank).reverse := by
    rw [Text.trimRight, ← List.reverse_append, List.takeWhile_append_dropWhile,
      List.reverse_reverse]
  have hblanks : ∀ c ∈ (s.reverse.takeWhile Text.isBlank).reverse, isSeparator c = true := by
    intro c hc
    have hall := List.all_takeWhile (p := Text.isBlank) (l := s.reverse)
    rw [isSeparator, List.all_eq_true.1 hall c (List.mem_reverse.1 hc), Bool.or_true]
  rw [← words_append_of_forall (Text.trimRight s) hblanks, ← hsplit]

/-- A `LIMIT` behind a text puts two words behind its words. -/
theorem words_append_limit (s : List Char) {ceiling : List Char} (h : IsLiteral ceiling) :
    words (s ++ ' ' :: limitWord ++ ' ' :: ceiling) = words s ++ [limitWord, ceiling] := by
  have hletters : ∀ c ∈ limitWord, isSeparator c = false := List.all_iff_forall_prop.1 (by decide)
  have hlimit : words (limitWord ++ ' ' :: ceiling) = [limitWord, ceiling] := by
    rw [words_append_cons limitWord (by decide), words_of_forall (by decide) hletters,
      words_of_forall h.1 h.isSeparator]
    rfl
  rw [List.append_assoc, List.cons_append, words_append_cons s (by decide), hlimit]

/-- So it does in place of what separates the end of the text. -/
theorem words_appendLimit (s : List Char) {ceiling : List Char} (h : IsLiteral ceiling) :
    words (appendLimit ceiling s) = words s ++ [limitWord, ceiling] := by
  have hsemicolon : ∀ {t : List Char}, t.getLast? = some ';' → words t.dropLast = words t := by
    intro t ht
    obtain ⟨front, rfl⟩ := List.getLast?_eq_some_iff.1 ht
    have hlast : ∀ c ∈ [';'], isSeparator c = true := List.forall_mem_singleton.2 (by decide)
    rw [List.dropLast_concat, words_append_of_forall front hlast]
  simp only [appendLimit]
  rw [words_append_limit _ h]
  congr 1
  split
  · next hlast => rw [words_trimRight, hsemicolon hlast, words_trimRight]
  · exact words_trimRight s

/-- Words that are no keyword may come behind those of a text. -/
theorem mem_tokens_iff_of_words {s t ceiling keyword : List Char} (h : IsLiteral ceiling)
    (hkeyword : ¬BeginsNumeric keyword) (hlimit : keyword ≠ limitWord)
    (hwords : words t = words s ++ [limitWord, ceiling]) :
    keyword ∈ tokens t ↔ keyword ∈ tokens s := by
  have hupper : Text.upper limitWord = limitWord := by decide
  have hceiling : keyword ≠ Text.upper ceiling := fun heq =>
    hkeyword (heq ▸ h.beginsNumeric.upper)
  rw [tokens, hwords, List.map_append, List.mem_append, tokens]
  simp [hupper, hlimit, hceiling]

/-! ### The guard's literals -/

theorem isLiteral_of_all_isDigit {w : List Char} (hne : w ≠ [])
    (h : w.all Char.isDigit = true) : IsLiteral w :=
  ⟨hne, fun c hc => .inl (List.all_eq_true.1 h c hc)⟩

/-- The text of a positive ceiling is a literal. -/
theorem isLiteral_toString {n : Int} (hn : 0 < n) : IsLiteral (toString n).toList := by
  rw [Text.toList_toString_int, if_neg (by omega)]
  exact isLiteral_of_all_isDigit Nat.toDigits_ne_nil (Text.all_isDigit_toDigits _)

theorem isLiteral_of_natOfDigits? {w : List Char} {n : Nat} (h : Text.natOfDigits? w = some n) :
    IsLiteral w := by
  rw [Text.natOfDigits?, Option.ite_none_right_eq_some] at h
  exact isLiteral_of_all_isDigit h.1.1 h.1.2

/-- A word that the guard reads as a positive number is a literal. -/
theorem isLiteral_of_literalValue? {w : List Char} (hne : w ≠ []) {n : Int} (hn : 0 < n)
    (h : literalValue? w = some n) : IsLiteral w := by
  rw [literalValue?] at h
  split at h
  case h_1 m hm =>
    cases h
    obtain ⟨k, hk, hwithin⟩ := Option.bind_eq_some_iff.1 hm
    rw [Text.within, Option.ite_none_right_eq_some] at hwithin
    obtain rfl := Option.some.inj hwithin.2
    -- Only a minus sign makes the number negative.
    rw [Text.intOfDigits?.eq_def] at hk
    split at hk
    · next digits =>
      cases hdigits : Text.natOfDigits? digits <;> simp [hdigits] at hk
      omega
    · next digits =>
      cases hdigits : Text.natOfDigits? digits <;> simp [hdigits] at hk
      exact ⟨hne, List.forall_mem_cons.2 ⟨.inr rfl, (isLiteral_of_natOfDigits? hdigits).2⟩⟩
    · cases hdigits : Text.natOfDigits? w <;> simp [hdigits] at hk
      exact isLiteral_of_natOfDigits? hdigits
  case h_2 =>
    rw [Option.ite_none_right_eq_some] at h
    exact isLiteral_of_all_isDigit hne h.1

theorem upper_ne_nil {w : List Char} (hne : w ≠ []) : Text.upper w ≠ [] := by
  have hchar : ∀ c, Text.upperChar c ≠ [] := by
    intro c
    rw [Text.upperChar]
    split
    · exact List.cons_ne_nil _ _
    · rw [Ne, List.map_eq_nil_iff, Text.upperCode]
      split
      · exact List.cons_ne_nil _ _
      · split
        · next codes hfound =>
          have htable : ∀ e ∈ Text.upperSequences, e.2 ≠ [] := by decide
          exact htable _ (List.mem_of_find?_eq_some hfound)
        · exact List.cons_ne_nil _ _
  obtain ⟨c, rest, rfl⟩ := List.exists_cons_of_ne_nil hne
  rw [Text.upper, List.flatMap_cons]
  exact List.append_ne_nil_of_left_ne_nil (hchar c) _

theorem ne_nil_of_mem_tokens {s t : List Char} (h : t ∈ tokens s) : t ≠ [] := by
  rw [tokens, List.mem_map] at h
  obtain ⟨w, hw, rfl⟩ := h
  exact upper_ne_nil (mem_words_iff.1 hw).1

/-- What the guard finds is a token, and a literal. -/
theorem of_requested? {s literal : List Char} {n : Int}
    (h : requested? (tokens s) = some (literal, n)) :
    literal ≠ [] ∧ literalValue? literal = some n := by
  rw [requested?] at h
  split at h
  case h_2 => cases h
  case h_1 first _ rest hdrop =>
    obtain ⟨m, hm, heq⟩ := Option.map_eq_some_iff.1 h
    cases heq
    have hmem : literal ∈ (tokens s).dropWhile (· ≠ limitWord) := by
      rw [hdrop]
      exact List.mem_cons_of_mem _ List.mem_cons_self
    exact ⟨ne_nil_of_mem_tokens ((List.dropWhile_suffix _).mem hmem), hm⟩

/-- What the guard finds above a positive ceiling is a literal. -/
theorem isLiteral_of_requested? {s literal : List Char} {n : Int} (hn : 0 < n)
    (h : requested? (tokens s) = some (literal, n)) : IsLiteral literal :=
  isLiteral_of_literalValue? (of_requested? h).1 hn (of_requested? h).2

/-- **A text under a ceiling has the keywords of the text**, whichever literals
can be searched for. -/
theorem mem_tokens_applyCeiling_iff (searchable : List Char → Bool) (limit : Int64)
    (s : List Char) {keyword : List Char} (hkeyword : ¬BeginsNumeric keyword)
    (hlimit : keyword ≠ limitWord) :
    keyword ∈ tokens (applyCeiling searchable limit s).1 ↔ keyword ∈ tokens s := by
  simp only [applyCeiling]
  split
  case isFalse => exact Iff.rfl
  case isTrue hpos =>
    have hceiling := isLiteral_toString hpos
    split
    · next literal n hrequested =>
      split
      · next hlt =>
        have hliteral := isLiteral_of_requested? (Int.lt_trans hpos hlt) hrequested
        dsimp only [resetLimit]
        split
        · have hnil : ∀ c ∈ ([] : List Char), isSeparator c = false := fun c hc =>
            absurd hc List.not_mem_nil
          exact ((rewritten_replaceLimit literal _ s).mem_tokens_iff hliteral hceiling hkeyword
            (.inl rfl) hnil hnil).symm
        · exact mem_tokens_iff_of_words hceiling hkeyword hlimit (words_append_limit s hceiling)
      · exact Iff.rfl
    · exact mem_tokens_iff_of_words hceiling hkeyword hlimit (words_appendLimit s hceiling)

end PropertyGraph.Guard
