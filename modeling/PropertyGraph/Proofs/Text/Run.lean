/-
The run of some characters at the front of a text.

* **`takeWhile_append_of_head?`** — it is what `takeWhile` takes, if the rest
  does not go on with it;
* **`append_inj_of_head?`** — a text has one such run.
-/
import Mathlib.Data.List.TakeDrop

namespace PropertyGraph.Text

variable {p : Char → Bool}

theorem takeWhile_append_of_head? {word rest : List Char} (hword : word.all p = true)
    (hrest : ∀ c ∈ rest.head?, p c = false) :
    (word ++ rest).takeWhile p = word ∧ (word ++ rest).dropWhile p = rest := by
  have hall : ∀ c ∈ word, p c = true := List.all_eq_true.1 hword
  have hstop : rest.takeWhile p = [] ∧ rest.dropWhile p = rest := by
    cases rest with
    | nil => exact ⟨rfl, rfl⟩
    | cons c rest =>
      have hc : ¬p c = true := by simp [hrest c rfl]
      exact ⟨List.takeWhile_cons_of_neg hc, List.dropWhile_cons_of_neg hc⟩
  rw [List.takeWhile_append_of_pos hall, List.dropWhile_append_of_pos hall, hstop.1, hstop.2,
    List.append_nil]
  exact ⟨rfl, rfl⟩

theorem append_inj_of_head? {word word' rest rest' : List Char} (hword : word.all p = true)
    (hword' : word'.all p = true) (hrest : ∀ c ∈ rest.head?, p c = false)
    (hrest' : ∀ c ∈ rest'.head?, p c = false) (heq : word ++ rest = word' ++ rest') :
    word = word' ∧ rest = rest' := by
  obtain ⟨htake, hdrop⟩ := takeWhile_append_of_head? hword hrest
  obtain ⟨htake', hdrop'⟩ := takeWhile_append_of_head? hword' hrest'
  rw [heq] at htake hdrop
  exact ⟨htake.symm.trans htake', hdrop.symm.trans hdrop'⟩

/-- Every text begins with such a run, perhaps an empty one. -/
theorem exists_run (p : Char → Bool) (s : List Char) :
    ∃ word rest, s = word ++ rest ∧ word.all p = true ∧ ∀ c ∈ rest.head?, p c = false := by
  refine ⟨s.takeWhile p, s.dropWhile p, List.takeWhile_append_dropWhile.symm,
    List.all_takeWhile, fun c hc => ?_⟩
  have hnot := List.head?_dropWhile_not p s
  rw [Option.mem_def.1 hc] at hnot
  exact hnot

end PropertyGraph.Text
