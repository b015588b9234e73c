/-
The words of a text in which a literal has been replaced.

What is searched for is the end of one word, separators, and the beginning of the
next.  So words can be replaced one after another, each by what stands before it
in the text, and nothing moves from one word to another.

* **`limitStretch?_eq_some_iff`** — what a search finds;
* **`replaceFrom_of_meets`**, **`replaceFrom_of_not_meets`** — the replacement
  reads one word;
* **`Replaced`** — the words before and after a replacement;
* **`replaced_words`** — that is what becomes of the words of a text.
-/
import PropertyGraph.Proofs.Guard.Ceiling
import PropertyGraph.Proofs.Text.Run

namespace PropertyGraph.Guard

/-! ### What is found -/

/-- A text, told the character before it, ends in a `LIMIT` of ASCII letters that
begins a word. -/
def EndsInLimit (before : Option Char) (w : List Char) : Prop :=
  ∃ front word, w = front ++ word ∧ word.map Char.toUpper = limitWord ∧
    isBoundary (front.getLast?.or before) = true

/-- A text consists of separators and of a literal, and of something that does not
go on with its word. -/
def Meets (literal s gap tail : List Char) : Prop :=
  s = gap ++ (literal ++ tail) ∧ gap ≠ [] ∧ (∀ c ∈ gap, isSeparator c = true) ∧
    isBoundary tail.head? = true

/-- A text begins with a separator, if with anything. -/
def StartsParted (s : List Char) : Prop := ∀ c ∈ s.head?, isSeparator c = true

variable {literal ceiling : List Char}

theorem startsParted_append {gap : List Char} (hne : gap ≠ [])
    (hgap : ∀ c ∈ gap, isSeparator c = true) (s : List Char) : StartsParted (gap ++ s) := by
  obtain ⟨c, gap, rfl⟩ := List.exists_cons_of_ne_nil hne
  intro d hd
  obtain rfl := Option.some.inj hd
  exact hgap c List.mem_cons_self

/-- A number begins with no separator. -/
theorem isSeparator_head?_append (hliteral : IsLiteral literal) (s : List Char) :
    ∀ c ∈ (literal ++ s).head?, isSeparator c = false := by
  obtain ⟨d, ds, rfl⟩ := List.exists_cons_of_ne_nil hliteral.1
  intro c hc
  obtain rfl := Option.some.inj hc
  exact hliteral.isSeparator d List.mem_cons_self

theorem length_of_map_toUpper {word : List Char} (h : word.map Char.toUpper = limitWord) :
    word.length = limitWord.length := by
  rw [← h, List.length_map]

/-- No separator is a letter of `LIMIT`. -/
theorem isSeparator_of_map_toUpper {word : List Char} (h : word.map Char.toUpper = limitWord) :
    ∀ c ∈ word, isSeparator c = false := by
  intro c hc
  have hmem : c.toUpper ∈ limitWord := h ▸ List.mem_map_of_mem hc
  have hlt : c.toNat < 128 := by
    by_contra hge
    have hsame : c.toUpper = c :=
      dif_neg fun hlower => hge (Nat.lt_of_le_of_lt hlower.2 (by decide))
    have hletters : ∀ c ∈ limitWord, c.toNat < 128 := List.all_iff_forall_prop.1 (by decide)
    exact hge (hletters c (hsame ▸ hmem))
  exact Text.forall_ascii (P := fun c => c.toUpper ∈ limitWord → isSeparator c = false)
    (by decide) hlt hmem

/-- Between separators there is always the boundary of a word. -/
theorem isBoundary_of_isSeparator {c : Char} (h : isSeparator c = true) :
    isBoundary (some c) = true := by
  have hword : Text.isWordChar c = false := by
    rw [isSeparator, Bool.or_eq_true] at h
    obtain h | h := h
    · have hmarks : ∀ c ∈ ['.', ',', ';', '*', ')', '('], Text.isWordChar c = false :=
        List.all_iff_forall_prop.1 (by decide)
      exact hmarks c (List.contains_iff_mem.1 h)
    · simp only [Text.isBlank, Bool.or_eq_true, Bool.and_eq_true, decide_eq_true_eq] at h
      obtain (rfl | h) | h := h
      · decide
      · exact Text.forall_ascii (P := fun c => 9 ≤ c.toNat ∧ c.toNat ≤ 13 →
          Text.isWordChar c = false) (by decide) (by omega) h
      · have hblanks : ∀ n ∈ Text.blankCodes, Text.isWordChar (Char.ofNat n) = false := by
          decide +kernel
        have hn := hblanks c.toNat (List.contains_iff_mem.1 h)
        rwa [Char.ofNat_toNat] at hn
  simp [isBoundary, hword]

theorem limitStretch?_eq_some_iff (hliteral : IsLiteral literal) {s stretch : List Char} :
    limitStretch? literal s = some stretch ↔
      ∃ word gap tail rest, s = word ++ rest ∧ stretch = word ++ gap ∧
        word.map Char.toUpper = limitWord ∧ Meets literal rest gap tail := by
  simp only [limitStretch?, Option.ite_none_right_eq_some, Option.some.injEq]
  constructor
  · rintro ⟨⟨hword, hgap, hfront, hboundary⟩, rfl⟩
    obtain ⟨tail, htail⟩ := List.isPrefixOf_iff_prefix.1 hfront
    rw [← htail, List.drop_left] at hboundary
    refine ⟨_, _, tail, _, (List.take_append_drop limitWord.length s).symm, rfl, hword, ?_, hgap,
      List.all_eq_true.1 List.all_takeWhile, hboundary⟩
    rw [htail, List.takeWhile_append_dropWhile]
  · rintro ⟨word, gap, tail, rest, rfl, rfl, hword, rfl, hgap, hall, hboundary⟩
    have hlength := length_of_map_toUpper hword
    obtain ⟨htake, hdrop⟩ := Text.takeWhile_append_of_head? (List.all_eq_true.2 hall)
      (isSeparator_head?_append hliteral tail)
    rw [← hlength, List.take_left, List.drop_left, htake, hdrop, List.drop_left]
    exact ⟨⟨hword, hgap, List.isPrefixOf_iff_prefix.2 (List.prefix_append _ _), hboundary⟩, rfl⟩

/-- What is found at the beginning of a word is the whole of it. -/
theorem limitStretch?_word_iff (hliteral : IsLiteral literal) {w rest : List Char}
    (hw : ∀ c ∈ w, isSeparator c = false) (hrest : StartsParted rest) {stretch : List Char} :
    limitStretch? literal (w ++ rest) = some stretch ↔
      ∃ gap tail, stretch = w ++ gap ∧ w.map Char.toUpper = limitWord ∧
        Meets literal rest gap tail := by
  rw [limitStretch?_eq_some_iff hliteral]
  constructor
  · rintro ⟨word, gap, tail, rest', heq, rfl, hword, hmeets⟩
    have hrest' : StartsParted rest' := by
      obtain ⟨rfl, hne, hgap, -⟩ := hmeets
      exact startsParted_append hne hgap _
    have hnot : ∀ {l : List Char}, (∀ c ∈ l, isSeparator c = false) →
        l.all (!isSeparator ·) = true := by
      intro l hl
      exact List.all_eq_true.2 fun c hc => by simp [hl c hc]
    have hparted : ∀ {l : List Char}, StartsParted l → ∀ c ∈ l.head?, (!isSeparator c) = false := by
      intro l hl c hc
      rw [hl c hc]
      rfl
    obtain ⟨rfl, rfl⟩ := Text.append_inj_of_head? (hnot hw)
      (hnot (isSeparator_of_map_toUpper hword)) (hparted hrest) (hparted hrest') heq
    exact ⟨gap, tail, rfl, hword, hmeets⟩
  · rintro ⟨gap, tail, rfl, hword, hmeets⟩
    exact ⟨w, gap, tail, rest, rfl, rfl, hword, hmeets⟩

/-! ### Reading one word -/

theorem getLast?_cons_or (c : Char) (s : List Char) (before : Option Char) :
    (c :: s).getLast?.or before = s.getLast?.or (some c) := by
  rw [List.getLast?_cons, Option.some_or, Option.or_some]

theorem endsInLimit_cons_iff {before : Option Char} {c : Char} {w : List Char} :
    EndsInLimit before (c :: w) ↔
      isBoundary before = true ∧ (c :: w).map Char.toUpper = limitWord ∨
        EndsInLimit (some c) w := by
  constructor
  · rintro ⟨front, word, heq, hword, hboundary⟩
    cases front with
    | nil =>
      obtain rfl : c :: w = word := heq
      exact .inl ⟨hboundary, hword⟩
    | cons d front =>
      obtain ⟨rfl, rfl⟩ := List.cons.inj heq
      rw [getLast?_cons_or] at hboundary
      exact .inr ⟨front, word, rfl, hword, hboundary⟩
  · rintro (⟨hboundary, hword⟩ | ⟨front, word, rfl, hword, hboundary⟩)
    · exact ⟨[], c :: w, rfl, hword, hboundary⟩
    · exact ⟨c :: front, word, rfl, hword, (getLast?_cons_or c front before).symm ▸ hboundary⟩

theorem replaceFrom_eq_drop (n : Nat) (before : Option Char) (s : List Char) :
    replaceFrom literal ceiling n before s =
      replaceFrom literal ceiling 0 ((s.take n).getLast?.or before) (s.drop n) := by
  induction n generalizing before s with
  | zero => rfl
  | succ n ih =>
    cases s with
    | nil => rfl
    | cons c s => rw [replaceFrom, ih, List.take_succ_cons, List.drop_succ_cons, getLast?_cons_or]

/-- The replacement of a character at which nothing is found. -/
theorem replaceFrom_cons {before : Option Char} {c : Char} {s : List Char}
    (h : isBoundary before = true → ∀ stretch, limitStretch? literal (c :: s) ≠ some stretch) :
    replaceFrom literal ceiling 0 before (c :: s) =
      c :: replaceFrom literal ceiling 0 (some c) s := by
  have hnone : (if isBoundary before = true then limitStretch? literal (c :: s) else none) =
      none := by
    split
    · next hboundary => exact Option.eq_none_iff_forall_not_mem.2 (h hboundary)
    · rfl
  rw [replaceFrom, hnone]

/-- The replacement of a word that is found: it goes on behind the literal. -/
theorem replaceFrom_of_meets (hliteral : IsLiteral literal) {w rest gap tail : List Char}
    (hw : ∀ c ∈ w, isSeparator c = false) (hrest : StartsParted rest)
    (hmeets : Meets literal rest gap tail) {before : Option Char} (hends : EndsInLimit before w) :
    replaceFrom literal ceiling 0 before (w ++ rest) =
      w ++ (gap ++ (ceiling ++ replaceFrom literal ceiling 0 literal.getLast? tail)) := by
  induction w generalizing before with
  | nil =>
    obtain ⟨front, word, heq, hword, -⟩ := hends
    obtain ⟨-, rfl⟩ := List.append_eq_nil_iff.1 heq.symm
    exact absurd hword (by decide)
  | cons c w ih =>
    obtain ⟨hc, hw'⟩ := List.forall_mem_cons.1 hw
    by_cases hfound : isBoundary before = true ∧ (c :: w).map Char.toUpper = limitWord
    · have hstretch := (limitStretch?_word_iff hliteral hw hrest).2
        ⟨gap, tail, rfl, hfound.2, hmeets⟩
      obtain ⟨rfl, -, -, -⟩ := hmeets
      -- What is skipped behind the first character is the stretch and the literal.
      have hskip : (c :: w ++ gap).length + literal.length - 1 =
          (w ++ (gap ++ literal)).length := by
        simp only [List.length_append, List.length_cons]
        omega
      have hassoc : w ++ (gap ++ (literal ++ tail)) = w ++ (gap ++ literal) ++ tail := by
        simp only [List.append_assoc]
      have hlast : ((w ++ (gap ++ literal)).getLast?.or (some c)) = literal.getLast? := by
        obtain ⟨front, d, rfl⟩ := (List.eq_nil_or_concat literal).resolve_left hliteral.1
        simp
      rw [List.cons_append, replaceFrom, if_pos hfound.1, ← List.cons_append, hstretch]
      simp only
      rw [replaceFrom_eq_drop, hskip, hassoc, List.take_left, List.drop_left, hlast]
      simp only [List.append_assoc]
    · rw [List.cons_append, replaceFrom_cons,
        ih hw' ((endsInLimit_cons_iff.1 hends).resolve_left hfound), List.cons_append]
      intro hboundary stretch hstretch
      obtain ⟨-, -, -, hword, -⟩ := (limitStretch?_word_iff hliteral hw hrest).1 hstretch
      exact hfound ⟨hboundary, hword⟩

/-- The replacement of a word that is not found. -/
theorem replaceFrom_of_not_meets (hliteral : IsLiteral literal) {w rest : List Char}
    (hw : ∀ c ∈ w, isSeparator c = false) (hrest : StartsParted rest) {before : Option Char}
    (hnot : EndsInLimit before w → ∀ gap tail, ¬Meets literal rest gap tail) :
    replaceFrom literal ceiling 0 before (w ++ rest) =
      w ++ replaceFrom literal ceiling 0 (w.getLast?.or before) rest := by
  induction w generalizing before with
  | nil => rfl
  | cons c w ih =>
    obtain ⟨hc, hw'⟩ := List.forall_mem_cons.1 hw
    rw [List.cons_append, replaceFrom_cons, getLast?_cons_or,
      ih hw' fun hends => hnot (endsInLimit_cons_iff.2 (.inr hends)), List.cons_append]
    intro hboundary stretch hstretch
    obtain ⟨gap, tail, -, hword, hmeets⟩ := (limitStretch?_word_iff hliteral hw hrest).1 hstretch
    exact hnot (endsInLimit_cons_iff.2 (.inl ⟨hboundary, hword⟩)) gap tail hmeets

/-- Separators stay. -/
theorem replaceFrom_separators (hliteral : IsLiteral literal) {gap : List Char}
    (hgap : ∀ c ∈ gap, isSeparator c = true) (before : Option Char) (rest : List Char) :
    replaceFrom literal ceiling 0 before (gap ++ rest) =
      gap ++ replaceFrom literal ceiling 0 (gap.getLast?.or before) rest := by
  induction gap generalizing before with
  | nil => rfl
  | cons c gap ih =>
    obtain ⟨hc, hgap⟩ := List.forall_mem_cons.1 hgap
    rw [List.cons_append, replaceFrom_cons, getLast?_cons_or, ih hgap, List.cons_append]
    intro _ stretch hstretch
    obtain ⟨word, -, -, rest', heq, -, hword, -⟩ := (limitStretch?_eq_some_iff hliteral).1 hstretch
    cases word with
    | nil => exact absurd hword (by decide)
    | cons d word =>
      obtain rfl := (List.cons.inj heq).1
      have hd := isSeparator_of_map_toUpper hword c List.mem_cons_self
      rw [hc] at hd
      cases hd

/-! ### Word by word -/

/-- The words of a text before and after a replacement, behind a word of it: the
literal at the beginning of a word is replaced exactly if the word before ends in
`LIMIT` and the literal in a word of its own. -/
inductive Replaced (literal ceiling : List Char) :
    List Char → List (List Char) → List (List Char) → Prop
  | nil (previous : List Char) : Replaced literal ceiling previous [] []
  | keep {previous w : List Char} {ws ws' : List (List Char)}
      (hnot : EndsInLimit none previous → ∀ y, w = literal ++ y → isBoundary y.head? = false)
      (rest : Replaced literal ceiling w ws ws') :
      Replaced literal ceiling previous (w :: ws) (w :: ws')
  | swap {previous y : List Char} {ws ws' : List (List Char)}
      (hends : EndsInLimit none previous) (hy : isBoundary y.head? = true)
      (rest : Replaced literal ceiling (literal ++ y) ws ws') :
      Replaced literal ceiling previous ((literal ++ y) :: ws) ((ceiling ++ y) :: ws')

theorem words_append_of_startsParted {w rest : List Char} (hne : w ≠ [])
    (hw : ∀ c ∈ w, isSeparator c = false) (hrest : StartsParted rest) :
    words (w ++ rest) = w :: words rest := by
  cases rest with
  | nil => rw [List.append_nil, words_of_forall hne hw, words_nil]
  | cons c rest =>
    have hc : isSeparator c = true := hrest c rfl
    have hskip : words (c :: rest) = words rest := by
      rw [← List.nil_append (c :: rest), words_append_cons [] hc, words_nil, List.nil_append]
    rw [words_append_cons w hc, words_of_forall hne hw, hskip, List.singleton_append]

theorem words_separators_append {gap : List Char} (hgap : ∀ c ∈ gap, isSeparator c = true)
    (s : List Char) : words (gap ++ s) = words s := by
  induction gap with
  | nil => rfl
  | cons c gap ih =>
    obtain ⟨hc, hgap⟩ := List.forall_mem_cons.1 hgap
    rw [List.cons_append, ← List.nil_append (c :: (gap ++ s)), words_append_cons [] hc, words_nil,
      List.nil_append, ih hgap]

/-- Numbers have no letters, so a `LIMIT` behind one begins behind it. -/
theorem endsInLimit_append_iff (hliteral : IsLiteral literal) {y : List Char} :
    EndsInLimit none (literal ++ y) ↔ EndsInLimit literal.getLast? y := by
  constructor
  · rintro ⟨front, word, heq, hword, hboundary⟩
    obtain ⟨a, rfl, rfl⟩ | ⟨a, rfl, rfl⟩ := List.append_eq_append_iff.1 heq
    · refine ⟨a, word, rfl, hword, ?_⟩
      rwa [List.getLast?_append, Option.or_none] at hboundary
    · cases a with
      | nil => exact ⟨[], y, rfl, hword, by simpa using hboundary⟩
      | cons c a =>
        have hc : IsNumeric c := hliteral.2 c (by simp)
        have hhead : c.toUpper ∈ limitWord := by
          rw [← hword]
          exact List.mem_cons_self
        exact absurd hhead (Text.forall_ascii (P := fun c => IsNumeric c → c.toUpper ∉ limitWord)
          (by decide) hc.lt hc)
  · rintro ⟨front, word, rfl, hword, hboundary⟩
    refine ⟨literal ++ front, word, (List.append_assoc _ _ _).symm, hword, ?_⟩
    rwa [List.getLast?_append, Option.or_none]

/-- What parts a word from the next does not matter to where the word ends. -/
theorem isBoundary_head?_append {rest : List Char} (hrest : StartsParted rest) (u : List Char) :
    isBoundary (u ++ rest).head? = isBoundary u.head? := by
  cases u with
  | cons c u => rfl
  | nil =>
    cases rest with
    | nil => rfl
    | cons c rest => exact isBoundary_of_isSeparator (hrest c rfl)

/-- A text is cut behind its first word. -/
theorem exists_gap_word (s : List Char) :
    ∃ gap w rest, s = gap ++ (w ++ rest) ∧ (∀ c ∈ gap, isSeparator c = true) ∧
      (∀ c ∈ w, isSeparator c = false) ∧ StartsParted rest ∧ (w = [] → rest = []) := by
  obtain ⟨gap, s', rfl, hgap, hs'⟩ := Text.exists_run isSeparator s
  obtain ⟨w, rest, rfl, hw, hrest⟩ := Text.exists_run (!isSeparator ·) s'
  have hparted : StartsParted rest := fun c hc => by simpa using hrest c hc
  refine ⟨gap, w, rest, rfl, List.all_eq_true.1 hgap,
    fun c hc => by simpa using List.all_eq_true.1 hw c hc, hparted, ?_⟩
  rintro rfl
  cases rest with
  | nil => rfl
  | cons c rest =>
    have hc := hs' c rfl
    rw [hparted c rfl] at hc
    cases hc

theorem endsInLimit_iff_of_isBoundary {before : Option Char} (h : isBoundary before = true)
    {w : List Char} : EndsInLimit before w ↔ EndsInLimit none w := by
  have hfront : ∀ front : List Char,
      isBoundary (front.getLast?.or before) = isBoundary (front.getLast?.or none) := by
    intro front
    cases front.getLast? with
    | none => exact h
    | some c => rfl
  simp only [EndsInLimit, hfront]

/-- A literal that is found begins the first word. -/
theorem exists_eq_append_of_meets (hliteral : IsLiteral literal) {gap w rest gap' tail : List Char}
    (hgap : ∀ c ∈ gap, isSeparator c = true) (hw : ∀ c ∈ w, isSeparator c = false)
    (hrest : StartsParted rest) (hlast : w = [] → rest = [])
    (h : Meets literal (gap ++ (w ++ rest)) gap' tail) :
    ∃ u, w = literal ++ u ∧ isBoundary u.head? = true := by
  obtain ⟨heq, -, hgap', hboundary⟩ := h
  have hword : ∀ c ∈ (w ++ rest).head?, isSeparator c = false := by
    cases w with
    | nil =>
      rw [hlast rfl]
      exact fun c hc => nomatch hc
    | cons d w =>
      intro c hc
      obtain rfl := Option.some.inj hc
      exact hw d List.mem_cons_self
  obtain ⟨-, hsame⟩ := Text.append_inj_of_head? (List.all_eq_true.2 hgap)
    (List.all_eq_true.2 hgap') hword (isSeparator_head?_append hliteral tail) heq
  obtain ⟨a, rfl, rfl⟩ | ⟨u, rfl, rfl⟩ := List.append_eq_append_iff.1 hsame
  · cases a with
    | nil => exact ⟨[], by simp, rfl⟩
    | cons c a =>
      have hc := hliteral.isSeparator c (by simp)
      rw [hrest c rfl] at hc
      cases hc
  · exact ⟨u, rfl, isBoundary_head?_append hrest u ▸ hboundary⟩

theorem Replaced.eq_nil {w : List Char} {ws : List (List Char)}
    (h : Replaced literal ceiling w [] ws) : ws = [] := by
  cases h
  rfl

/-- The next word is replaced. -/
theorem replaced_words_swap (hliteral : IsLiteral literal) (hceiling : IsLiteral ceiling)
    {w gap u rest rest' : List Char} (hgap : ∀ c ∈ gap, isSeparator c = true)
    (hu : ∀ c ∈ u, isSeparator c = false) (hrest : StartsParted rest)
    (hrest' : StartsParted rest') (hends : EndsInLimit none w)
    (hboundary : isBoundary u.head? = true)
    (h : Replaced literal ceiling (literal ++ u) (words rest) (words rest')) :
    Replaced literal ceiling w (words (gap ++ (literal ++ u ++ rest)))
      (words (gap ++ (ceiling ++ u ++ rest'))) := by
  have hword : ∀ {number : List Char}, IsLiteral number → ∀ c ∈ number ++ u,
      isSeparator c = false := fun hnumber c hc =>
    (List.mem_append.1 hc).elim (hnumber.isSeparator c) (hu c)
  have hne : ∀ {number : List Char}, IsLiteral number → number ++ u ≠ [] := fun hnumber =>
    List.append_ne_nil_of_left_ne_nil hnumber.1 u
  rw [words_separators_append hgap, words_separators_append hgap,
    words_append_of_startsParted (hne hliteral) (hword hliteral) hrest,
    words_append_of_startsParted (hne hceiling) (hword hceiling) hrest']
  exact .swap hends hboundary h

/-- The next word, if there is one, stays as it is. -/
theorem replaced_words_keep {w gap z rest rest' : List Char}
    (hgap : ∀ c ∈ gap, isSeparator c = true) (hz : ∀ c ∈ z, isSeparator c = false)
    (hrest : StartsParted rest) (hrest' : StartsParted rest') (hlast : z = [] → rest = [])
    (hnot : EndsInLimit none w → ∀ u, z = literal ++ u → isBoundary u.head? = false)
    (h : Replaced literal ceiling z (words rest) (words rest')) :
    Replaced literal ceiling w (words (gap ++ (z ++ rest))) (words (gap ++ (z ++ rest'))) := by
  rw [words_separators_append hgap, words_separators_append hgap]
  by_cases hne : z = []
  · obtain rfl := hlast hne
    subst hne
    rw [words_nil] at h
    rw [List.nil_append, List.nil_append, words_nil, h.eq_nil]
    exact .nil w
  · rw [words_append_of_startsParted hne hz hrest, words_append_of_startsParted hne hz hrest']
    exact .keep hnot h

/-- What comes behind a word, read from the middle of it, is replaced word by
word.  The induction is on that rest, which loses a word at each step. -/
theorem replaced_rest (hliteral : IsLiteral literal) (hceiling : IsLiteral ceiling)
    {rest : List Char} (hrest : StartsParted rest) {w y : List Char}
    (hy : ∀ c ∈ y, isSeparator c = false) {before : Option Char}
    (hends : EndsInLimit before y ↔ EndsInLimit none w) :
    ∃ rest', replaceFrom literal ceiling 0 before (y ++ rest) = y ++ rest' ∧
      StartsParted rest' ∧ Replaced literal ceiling w (words rest) (words rest') := by
  induction hn : rest.length using Nat.strongRecOn generalizing rest w y before with
  | ind n ih =>
    obtain ⟨gap, z, rest, rfl, hgap, hz, hrest', hlast⟩ := exists_gap_word rest
    by_cases hne : gap = []
    · -- The rest begins with a word, so there is none.
      subst hne
      cases z with
      | cons c z =>
        have hc := hz c List.mem_cons_self
        rw [hrest c rfl] at hc
        cases hc
      | nil =>
        obtain rfl := hlast rfl
        refine ⟨[], ?_, hrest, .nil w⟩
        rw [replaceFrom_of_not_meets hliteral hy hrest]
        · rfl
        · rintro - gap' tail ⟨heq, hgap', -, -⟩
          exact hgap' (List.append_eq_nil_iff.1 heq.symm).1
    · have hshorter : rest.length < n := by
        have hpos := List.length_pos_iff.2 hne
        simp only [List.length_append] at hn
        omega
      have hparted := startsParted_append hne hgap
      by_cases hfound : EndsInLimit before y ∧ ∃ u, z = literal ++ u ∧ isBoundary u.head? = true
      · -- The replacement goes on in the middle of the next word, behind its number.
        obtain ⟨hlimit, u, rfl, hu⟩ := hfound
        have hu' : ∀ c ∈ u, isSeparator c = false := fun c hc =>
          hz c (List.mem_append_right _ hc)
        obtain ⟨rest', hread, hrest'', hreplaced⟩ := ih rest.length hshorter hrest' hu'
          (endsInLimit_append_iff hliteral).symm rfl
        have hmeets : Meets literal (gap ++ (literal ++ u ++ rest)) gap (u ++ rest) :=
          ⟨by rw [List.append_assoc], hne, hgap, isBoundary_head?_append hrest' u ▸ hu⟩
        refine ⟨gap ++ (ceiling ++ u ++ rest'), ?_, hparted _,
          replaced_words_swap hliteral hceiling hgap hu' hrest' hrest'' (hends.1 hlimit) hu
            hreplaced⟩
        rw [replaceFrom_of_meets hliteral hy hrest hmeets hlimit, hread, List.append_assoc]
      · -- The replacement goes on at the next word, which separators have parted from this one.
        have hnot : EndsInLimit before y → ∀ gap' tail,
            ¬Meets literal (gap ++ (z ++ rest)) gap' tail := by
          intro hlimit gap' tail hmeets
          exact hfound ⟨hlimit, exists_eq_append_of_meets hliteral hgap hz hrest' hlast hmeets⟩
        have hbetween : EndsInLimit (gap.getLast?.or (y.getLast?.or before)) z ↔
            EndsInLimit none z := by
          obtain ⟨front, c, rfl⟩ := (List.eq_nil_or_concat gap).resolve_left hne
          refine endsInLimit_iff_of_isBoundary ?_
          rw [List.concat_eq_append, List.getLast?_concat, Option.some_or]
          exact isBoundary_of_isSeparator (hgap c (by simp))
        obtain ⟨rest', hread, hrest'', hreplaced⟩ := ih rest.length hshorter hrest' hz hbetween rfl
        refine ⟨gap ++ (z ++ rest'), ?_, hparted _,
          replaced_words_keep hgap hz hrest' hrest'' hlast ?_ hreplaced⟩
        · rw [replaceFrom_of_not_meets hliteral hy hrest hnot, replaceFrom_separators hliteral hgap,
            hread]
        · intro hlimit u hu
          exact Bool.eq_false_iff.2 fun hboundary => hfound ⟨hends.2 hlimit, u, hu, hboundary⟩

/-- **The words of a text are replaced one by one.** -/
theorem replaced_words (hliteral : IsLiteral literal) (hceiling : IsLiteral ceiling)
    (s : List Char) :
    Replaced literal ceiling [] (words s) (words (replaceLimit literal ceiling s)) := by
  obtain ⟨w, rest, rfl, hw, hrest⟩ := Text.exists_run (!isSeparator ·) s
  have hw' : ∀ c ∈ w, isSeparator c = false := fun c hc => by
    simpa using List.all_eq_true.1 hw c hc
  have hparted : StartsParted rest := fun c hc => by simpa using hrest c hc
  obtain ⟨rest', hread, hparted', hreplaced⟩ :=
    replaced_rest hliteral hceiling hparted hw' (Iff.refl (EndsInLimit none w))
  rw [replaceLimit, hread]
  by_cases hne : w = []
  · subst hne
    exact hreplaced
  · rw [words_append_of_startsParted hne hw' hparted, words_append_of_startsParted hne hw' hparted']
    refine .keep ?_ hreplaced
    rintro ⟨front, word, heq, hword, -⟩
    obtain ⟨-, rfl⟩ := List.append_eq_nil_iff.1 heq.symm
    exact absurd hword (by decide)

end PropertyGraph.Guard
