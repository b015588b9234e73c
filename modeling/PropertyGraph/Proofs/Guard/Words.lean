/-
The words of a text are its runs between separators.

Everything about `words` follows from one equation: a separator divides the
words before it from those behind it.

* **`words_append_cons`** — that equation;
* **`mem_words_iff`** — a word is a stretch without separators that cannot be
  made longer;
* **`occurs_iff`** — a keyword is among the tokens exactly if it is the upper
  case of such a stretch.
-/
import PropertyGraph.Guard.Token

namespace PropertyGraph

namespace Guard

/-- A separator divides the words before it from those behind it. -/
theorem words_append_cons (s : List Char) {c : Char} (hc : isSeparator c = true) (t : List Char) :
    words (s ++ c :: t) = words s ++ words t := by
  rw [words, words, words, List.splitOnP_append_cons s t hc, List.filter_append]

theorem words_nil : words [] = [] := by
  simp [words]

theorem words_of_forall {w : List Char} (hne : w ≠ []) (hw : ∀ c ∈ w, isSeparator c = false) :
    words w = [w] := by
  rw [words, List.splitOnP_eq_singleton hw]
  simp [hne]

/-- Separators at the end belong to no word. -/
theorem words_append_of_forall (s : List Char) {t : List Char}
    (ht : ∀ c ∈ t, isSeparator c = true) : words (s ++ t) = words s := by
  induction t generalizing s with
  | nil => rw [List.append_nil]
  | cons c t ih =>
    have htail : words t = [] := by
      rw [← List.nil_append t, ih [] fun d hd => ht d (List.mem_cons_of_mem c hd), words_nil]
    rw [words_append_cons s (ht c List.mem_cons_self), htail, List.append_nil]

/-- A text either has no separator or is divided by its first one. -/
theorem exists_separator_or (s : List Char) :
    (∀ c ∈ s, isSeparator c = false) ∨
      ∃ p c t, s = p ++ c :: t ∧ (∀ d ∈ p, isSeparator d = false) ∧ isSeparator c = true := by
  induction s with
  | nil => exact .inl fun c hc => absurd hc List.not_mem_nil
  | cons c s ih =>
    cases hc : isSeparator c with
    | true => exact .inr ⟨[], c, s, rfl, fun d hd => absurd hd List.not_mem_nil, hc⟩
    | false =>
      obtain hs | ⟨p, d, t, rfl, hp, hd⟩ := ih
      · exact .inl (List.forall_mem_cons.2 ⟨hc, hs⟩)
      · exact .inr ⟨c :: p, d, t, rfl, List.forall_mem_cons.2 ⟨hc, hp⟩, hd⟩

/-- A stretch of a text without separators that cannot be made longer: on either
side of it there is a separator or the edge of the text. -/
def IsRun (s w : List Char) : Prop :=
  w ≠ [] ∧ (∀ c ∈ w, isSeparator c = false) ∧
    ∃ before after, s = before ++ w ++ after ∧
      (∀ c ∈ before.getLast?, isSeparator c = true) ∧ ∀ c ∈ after.head?, isSeparator c = true

theorem IsRun.append_cons {w t : List Char} (h : IsRun t w) (s : List Char) {c : Char}
    (hc : isSeparator c = true) : IsRun (s ++ c :: t) w := by
  obtain ⟨hne, hw, before, after, rfl, hbefore, hafter⟩ := h
  refine ⟨hne, hw, s ++ c :: before, after, by simp, ?_, hafter⟩
  cases before with
  | nil => simpa using hc
  | cons b before => simpa using hbefore

theorem isRun_of_mem_words {s w : List Char} (h : w ∈ words s) : IsRun s w := by
  induction hn : s.length using Nat.strongRecOn generalizing s with
  | ind n ih =>
    obtain hs | ⟨p, c, t, rfl, hp, hc⟩ := exists_separator_or s
    · by_cases hne : s = []
      · rw [hne, words_nil] at h
        exact absurd h List.not_mem_nil
      · rw [words_of_forall hne hs, List.mem_singleton] at h
        subst h
        exact ⟨hne, hs, [], [], by simp, by simp, by simp⟩
    · rw [words_append_cons p hc, List.mem_append] at h
      obtain hw | hw := h
      · by_cases hne : p = []
        · rw [hne, words_nil] at hw
          exact absurd hw List.not_mem_nil
        · rw [words_of_forall hne hp, List.mem_singleton] at hw
          subst hw
          exact ⟨hne, hp, [], c :: t, by simp, by simp, by simpa using hc⟩
      · exact (ih t.length (by simp at hn; omega) hw rfl).append_cons p hc

theorem IsRun.mem_words {s w : List Char} (h : IsRun s w) : w ∈ words s := by
  obtain ⟨hne, hw, before, after, rfl, hbefore, hafter⟩ := h
  have hfront : w ∈ words (w ++ after) := by
    cases after with
    | nil => simp [words_of_forall hne hw]
    | cons c after =>
      rw [words_append_cons w (hafter c rfl), words_of_forall hne hw]
      exact List.mem_append_left _ (List.mem_singleton.2 rfl)
  obtain rfl | ⟨front, c, rfl⟩ := List.eq_nil_or_concat before
  · exact hfront
  · have hc : isSeparator c = true := hbefore c (by simp)
    rw [List.concat_eq_append, List.append_assoc, List.append_assoc, List.singleton_append,
      words_append_cons front hc]
    exact List.mem_append_right _ hfront

/-- **The words of a text are its runs between separators.** -/
theorem mem_words_iff {s w : List Char} : w ∈ words s ↔ IsRun s w :=
  ⟨isRun_of_mem_words, IsRun.mem_words⟩

/-- A keyword occurs in a text: it is the upper case of a run. -/
def Occurs (keyword : String) (s : List Char) : Prop :=
  ∃ w, IsRun s w ∧ Text.upper w = keyword.toList

theorem occurs_iff {keyword : String} {s : List Char} :
    Occurs keyword s ↔ keyword.toList ∈ tokens s := by
  simp only [Occurs, tokens, List.mem_map, mem_words_iff]

end Guard

end PropertyGraph
