/-
What the scanner finds in text that has been put together from tokens.

`Scans s ts` says that the characters `s` are the tokens `ts`, whatever stands
before them and whatever comes next, as long as that does not go on with a word.
Texts that scan are built from single tokens and joined:

* **`scans_mark`**, **`scans_word`**, **`scans_quoted`** — a single token;
* **`Scans.cons_mark`**, **`Scans.append`** — joining;
* **`tokens?_of_scans`** — the tokens of such a text.
-/
import PropertyGraph.Json.Printer
import PropertyGraph.Json.Token
import PropertyGraph.Proofs.Text.Ascii

namespace PropertyGraph.Json

/-! ### Joining -/

/-- The tokens that a scanner has found by the end of a text. -/
def Scanner.run (scanner : Scanner) (s : List Char) : Option (List Token) :=
  s.foldlM Scanner.step scanner >>= Scanner.finish

theorem Scanner.run_cons (scanner : Scanner) (c : Char) (s : List Char) :
    scanner.run (c :: s) = scanner.step c >>= fun scanner => scanner.run s := by
  rw [run, List.foldlM_cons, bind_assoc]
  rfl

/-- A text does not begin with a character that could belong to a word. -/
def Breaks (s : List Char) : Prop := ∀ c ∈ s.head?, isWordPart c = false

theorem breaks_nil : Breaks [] := fun _ hc => absurd hc (by simp)

theorem breaks_cons {c : Char} (hc : isWordPart c = false) (s : List Char) : Breaks (c :: s) :=
  fun d hd => by
    rw [List.head?_cons, Option.mem_some_iff] at hd
    exact hd ▸ hc

/-- The characters are the tokens, between any others. -/
def Scans (s : List Char) (ts : List Token) : Prop :=
  ∀ found rest, Breaks rest →
    Scanner.run ⟨.between, found⟩ (s ++ rest) = Scanner.run ⟨.between, ts.reverse ++ found⟩ rest

theorem scans_nil : Scans [] [] := fun _ _ _ => rfl

theorem Scans.append {s s' : List Char} {ts ts' : List Token} (h : Scans s ts) (h' : Scans s' ts')
    (hbreak : Breaks s') : Scans (s ++ s') (ts ++ ts') := by
  intro found rest hrest
  have hbreak' : Breaks (s' ++ rest) := by
    cases s' with
    | nil => exact hrest
    | cons c s' => exact hbreak
  rw [List.append_assoc, h found _ hbreak', h' _ rest hrest, List.reverse_append,
    List.append_assoc]

/-- The tokens of a text. -/
theorem tokens?_of_scans {s : List Char} {ts : List Token} (h : Scans s ts) :
    tokens? s = some ts := by
  have hrun := h [] [] breaks_nil
  rw [List.append_nil, List.append_nil] at hrun
  calc tokens? s = Scanner.run ⟨.between, []⟩ s := rfl
    _ = Scanner.run ⟨.between, ts.reverse⟩ [] := hrun
    _ = some ts.reverse.reverse := rfl
    _ = some ts := by rw [List.reverse_reverse]

/-! ### Marks -/

theorem enter_of_mark {c : Char} {t : Token} (h : mark? c = some t) (found : List Token) :
    Scanner.enter found c = some ⟨.between, t :: found⟩ := by
  rw [mark?.eq_def] at h
  split at h <;> cases h <;> rfl

/-- A mark is a token, whatever comes next. -/
theorem Scans.cons_mark {c : Char} {t : Token} (hc : mark? c = some t) {s : List Char}
    {ts : List Token} (h : Scans s ts) : Scans (c :: s) (t :: ts) := by
  intro found rest hrest
  have hstep : Scanner.step ⟨.between, found⟩ c = some ⟨.between, t :: found⟩ :=
    enter_of_mark hc found
  rw [List.cons_append, Scanner.run_cons, hstep, Option.bind_eq_bind, Option.bind_some,
    h (t :: found) rest hrest, List.reverse_cons, List.append_assoc]
  rfl

theorem scans_mark {c : Char} {t : Token} (hc : mark? c = some t) : Scans [c] [t] :=
  scans_nil.cons_mark hc

/-! ### Words -/

/-- Parts of words are none of the characters that the scanner looks for
first. -/
theorem enter_of_isWordPart {c : Char} (hc : isWordPart c = true) (found : List Token) :
    Scanner.enter found c = some ⟨.word [c], found⟩ := by
  have hspace : isSpace c = false := by
    rw [Bool.eq_false_iff]
    intro h
    simp only [isSpace, Bool.or_eq_true, decide_eq_true_eq] at h
    rcases h with ((rfl | rfl) | rfl) | rfl <;> exact absurd hc (by decide)
  have hquote : c ≠ '"' := by
    rintro rfl
    exact absurd hc (by decide)
  rw [Scanner.enter, hspace, if_neg Bool.false_ne_true, if_neg hquote, if_pos hc]

/-- Inside a word, its other parts are read, and what comes next ends it. -/
theorem run_word {w : List Char} (hw : ∀ c ∈ w, isWordPart c = true) (read : List Char)
    (found : List Token) {rest : List Char} (hrest : Breaks rest) :
    Scanner.run ⟨.word read, found⟩ (w ++ rest) =
      (wordToken? (read.reverse ++ w)).bind fun t => Scanner.run ⟨.between, t :: found⟩ rest := by
  induction w generalizing read with
  | nil =>
    rw [List.append_nil, List.nil_append]
    cases rest with
    | nil => cases h : wordToken? read.reverse <;> simp [Scanner.run, Scanner.finish, h]
    | cons c rest =>
      have hc : isWordPart c = false := hrest c rfl
      cases h : wordToken? read.reverse <;> simp [Scanner.run_cons, Scanner.step, hc, h]
  | cons c w ih =>
    have hc : isWordPart c = true := hw c List.mem_cons_self
    have hstep : Scanner.step ⟨.word read, found⟩ c = some ⟨.word (c :: read), found⟩ := by
      simp only [Scanner.step, hc, if_true]
    rw [List.cons_append, Scanner.run_cons, hstep, Option.bind_eq_bind, Option.bind_some,
      ih (fun d hd => hw d (List.mem_cons_of_mem c hd)), List.reverse_cons, List.append_assoc]
    rfl

/-- A word between other text makes one token, if it makes any. -/
theorem run_between_word {w : List Char} (hne : w ≠ []) (hw : ∀ c ∈ w, isWordPart c = true)
    (found : List Token) {rest : List Char} (hrest : Breaks rest) :
    Scanner.run ⟨.between, found⟩ (w ++ rest) =
      (wordToken? w).bind fun t => Scanner.run ⟨.between, t :: found⟩ rest := by
  obtain ⟨c, w, rfl⟩ := List.exists_cons_of_ne_nil hne
  have hstep : Scanner.step ⟨.between, found⟩ c = some ⟨.word [c], found⟩ :=
    enter_of_isWordPart (hw c List.mem_cons_self) found
  rw [List.cons_append, Scanner.run_cons, hstep, Option.bind_eq_bind, Option.bind_some]
  exact run_word (fun d hd => hw d (List.mem_cons_of_mem c hd)) [c] found hrest

/-- No word is empty. -/
theorem ne_nil_of_wordToken? {w : List Char} {t : Token} (h : wordToken? w = some t) : w ≠ [] := by
  rintro rfl
  cases h

theorem scans_word {w : List Char} (hw : ∀ c ∈ w, isWordPart c = true) {t : Token}
    (ht : wordToken? w = some t) : Scans w [t] := by
  intro found rest hrest
  rw [run_between_word (ne_nil_of_wordToken? ht) hw found hrest, ht]
  rfl

/-- The tokens of a text that is one word. -/
theorem tokens?_word {w : List Char} (hne : w ≠ []) (hw : ∀ c ∈ w, isWordPart c = true) :
    tokens? w = (wordToken? w).map fun t => [t] := by
  have hrun := run_between_word hne hw [] breaks_nil
  rw [List.append_nil] at hrun
  rw [show tokens? w = Scanner.run ⟨.between, []⟩ w from rfl, hrun]
  cases wordToken? w <;> rfl

/-! ### Quoted text -/

/-- A character that stands for itself inside quotes. -/
def IsPlain (c : Char) : Prop := c ≠ '"' ∧ c ≠ '\\' ∧ ¬c < ' '

instance (c : Char) : Decidable (IsPlain c) := inferInstanceAs (Decidable (_ ∧ _ ∧ _))

theorem isPlain_hexChar : ∀ n < 16, IsPlain (hexChar n) := by
  decide

theorem toNat_lt_of_lt_blank {c : Char} (hc : c < ' ') : c.toNat < 32 := hc

/-- The ways to write a character inside quotes: itself, a backslash and a
character, or a code in four digits. -/
theorem escapeChar_cases (c : Char) :
    (IsPlain c ∧ escapeChar c = [c]) ∨
      (∃ e, escapeChar c = ['\\', e] ∧ e ≠ 'u' ∧ ¬e < ' ' ∧ escaped? e = some c) ∨
      (c < ' ' ∧
        escapeChar c = ['\\', 'u', '0', '0', hexChar (c.toNat / 16), hexChar (c.toNat % 16)]) := by
  by_cases hnamed : c = '"' ∨ c = '\\' ∨ c = '\x08' ∨ c = '\x0c' ∨ c = '\n' ∨ c = '\r' ∨ c = '\t'
  · refine .inr (.inl ?_)
    rcases hnamed with rfl | rfl | rfl | rfl | rfl | rfl | rfl <;>
      exact ⟨_, rfl, by decide, by decide, rfl⟩
  · simp only [not_or] at hnamed
    by_cases hc : c < ' '
    · exact .inr (.inr ⟨hc, by simp [escapeChar, hnamed, hc]⟩)
    · exact .inl ⟨⟨hnamed.1, hnamed.2.1, hc⟩, by simp [escapeChar, hnamed, hc]⟩

/-- Inside quotes, a character that stands for itself is read. -/
theorem run_plain {c : Char} (hc : IsPlain c) (read : List Char) (found : List Token)
    (s : List Char) :
    Scanner.run ⟨.text false read, found⟩ (c :: s) =
      Scanner.run ⟨.text false (c :: read), found⟩ s := by
  obtain ⟨hquote, hbackslash, hcontrol⟩ := hc
  simp [Scanner.run_cons, Scanner.step, hquote, hbackslash, hcontrol]

/-- Inside quotes, a backslash and what follows it are read. -/
theorem run_backslash (e : Char) (read : List Char) (found : List Token) (s : List Char) :
    Scanner.run ⟨.text false read, found⟩ ('\\' :: e :: s) =
      Scanner.run ⟨.text false (e :: '\\' :: read), found⟩ s :=
  rfl

/-- An escaped character does not end the text. -/
theorem run_escapeChar (c : Char) (read : List Char) (found : List Token) (s : List Char) :
    Scanner.run ⟨.text false read, found⟩ (escapeChar c ++ s) =
      Scanner.run ⟨.text false ((escapeChar c).reverse ++ read), found⟩ s := by
  obtain ⟨hc, h⟩ | ⟨e, h, -⟩ | ⟨hc, h⟩ := escapeChar_cases c <;> rw [h]
  · exact run_plain hc read found s
  · exact run_backslash e read found s
  · have hlt := toNat_lt_of_lt_blank hc
    have hhigh : IsPlain (hexChar (c.toNat / 16)) := isPlain_hexChar _ (by omega)
    have hlow : IsPlain (hexChar (c.toNat % 16)) := isPlain_hexChar _ (by omega)
    have hzero : IsPlain '0' := by decide
    simp only [List.cons_append, List.nil_append, run_backslash, run_plain hzero, run_plain hhigh,
      run_plain hlow, List.reverse_cons, List.reverse_nil]

theorem run_escaped (cs read : List Char) (found : List Token) (s : List Char) :
    Scanner.run ⟨.text false read, found⟩ (cs.flatMap escapeChar ++ s) =
      Scanner.run ⟨.text false ((cs.flatMap escapeChar).reverse ++ read), found⟩ s := by
  induction cs generalizing read with
  | nil => rfl
  | cons c cs ih =>
    rw [List.flatMap_cons, List.append_assoc, run_escapeChar, ih, List.reverse_append,
      List.append_assoc]

theorem hexCode?_hexChar : ∀ n < 32,
    hexCode? '0' '0' (hexChar (n / 16)) (hexChar (n % 16)) = some n := by
  decide

/-- An escaped character is one piece. -/
theorem pieces?_escapeChar (c : Char) (s : List Char) :
    pieces? (escapeChar c ++ s) = (pieces? s).map (.char c :: ·) := by
  obtain ⟨hc, h⟩ | ⟨e, h, hne, -, he⟩ | ⟨hc, h⟩ := escapeChar_cases c <;> rw [h]
  · have hbackslash : c ≠ '\\' := hc.2.1
    simp only [List.cons_append, List.nil_append]
    cases hs : pieces? s <;> simp [pieces?, hbackslash, hs]
  · simp only [List.cons_append, List.nil_append]
    cases hs : pieces? s <;> simp [pieces?, hne, he, hs]
  · have hlt := toNat_lt_of_lt_blank hc
    have hcode : Piece.ofCode c.toNat = .char c := by
      rw [Piece.ofCode, if_neg (by omega), Char.ofNat_toNat]
    simp only [List.cons_append, List.nil_append]
    cases hs : pieces? s <;> simp [pieces?, hexCode?_hexChar c.toNat hlt, hcode, hs]

theorem pieces?_escaped (cs : List Char) :
    pieces? (cs.flatMap escapeChar) = some (cs.map .char) := by
  induction cs with
  | nil => rfl
  | cons c cs ih => rw [List.flatMap_cons, pieces?_escapeChar, ih, List.map_cons, Option.map_some]

theorem joinPieces_map_char (cs : List Char) : joinPieces (cs.map .char) = some cs := by
  induction cs with
  | nil => rfl
  | cons c cs ih => simp [joinPieces, ih]

/-- What stands between the quotes of a quoted text is that text. -/
theorem textToken?_escaped (s : String) :
    textToken? (s.toList.flatMap escapeChar) = some (.text (some s)) := by
  simp [textToken?, pieces?_escaped, joinPieces_map_char]

theorem scans_quoted (s : String) : Scans (quoted s).toList [.text (some s)] := by
  intro found rest hrest
  rw [quoted, String.toList_ofList, List.append_assoc, List.cons_append, Scanner.run_cons]
  have hopen : Scanner.step ⟨.between, found⟩ '"' = some ⟨.text false [], found⟩ := rfl
  rw [hopen, Option.bind_eq_bind, Option.bind_some, run_escaped, List.append_nil,
    List.cons_append, Scanner.run_cons]
  simp [Scanner.step, textToken?_escaped]

end PropertyGraph.Json
