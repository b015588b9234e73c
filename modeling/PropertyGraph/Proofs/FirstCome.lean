/-
The order of lists in which everything stands once, at the place where it first
came.

* **`pairwise_appendNew`** — what came first for the first time stands first;
* **`getLast?_appendNew_iff`** — what stands last is what came last for the first
  time;
* **`sum_length_filter_appendNew`** — items counted by a value that they have.
-/
import Mathlib.Algebra.BigOperators.Group.List.Lemmas
import Mathlib.Algebra.Ring.Nat
import Mathlib.Data.List.Induction
import PropertyGraph.FirstCome

namespace PropertyGraph

variable {α : Type} [DecidableEq α]

/-- The induction is on the list from its end, where a new item comes last. -/
theorem pairwise_appendNew (l : List α) :
    (appendNew [] l).Pairwise fun a b => l.idxOf a < l.idxOf b := by
  induction l using List.reverseRecOn with
  | nil => exact List.Pairwise.nil
  | append_singleton l c ih =>
    have hold : ∀ b ∈ l, (l ++ [c]).idxOf b = l.idxOf b := by
      intro b hb
      rw [List.idxOf_append, if_pos hb]
    have hkept : (appendNew [] l).Pairwise fun a b => (l ++ [c]).idxOf a < (l ++ [c]).idxOf b := by
      refine ih.imp_of_mem fun {a b} ha hb hab => ?_
      rwa [hold a (by simpa using ha), hold b (by simpa using hb)]
    rw [appendNew_append, appendNew_cons]
    by_cases hc : c ∈ l
    · rw [if_pos (mem_appendNew.2 (.inr hc))]
      exact hkept
    · rw [if_neg (by simpa using hc)]
      refine List.pairwise_append.2 ⟨hkept, List.pairwise_singleton _ _, ?_⟩
      intro a ha b hb
      have hmem : a ∈ l := by simpa using ha
      have hlast : (l ++ [c]).idxOf c = l.length := by
        rw [List.idxOf_append, if_neg hc, List.idxOf_cons_self, Nat.zero_add]
      rw [List.mem_singleton.1 hb, hlast, hold a hmem]
      exact List.idxOf_lt_length_of_mem hmem

theorem getLast?_appendNew_iff {l : List α} {a : α} :
    (appendNew [] l).getLast? = some a ↔ a ∈ l ∧ ∀ b ∈ l, l.idxOf b ≤ l.idxOf a := by
  have hmem : ∀ b, b ∈ l ↔ b ∈ appendNew [] l := fun b => by simp
  have horder := pairwise_appendNew l
  simp only [List.getLast?_eq_some_iff, hmem]
  constructor
  · rintro ⟨before, hlast⟩
    rw [hlast] at horder ⊢
    obtain ⟨-, -, hbefore⟩ := List.pairwise_append.1 horder
    refine ⟨by simp, fun b hb => ?_⟩
    rcases List.mem_append.1 hb with hb | hb
    · exact Nat.le_of_lt (hbefore b hb a (List.mem_singleton.2 rfl))
    · rw [List.mem_singleton.1 hb]
  · rintro ⟨ha, hle⟩
    obtain ⟨before, after, hsplit⟩ := List.append_of_mem ha
    rw [hsplit] at horder hle
    cases after with
    | nil => exact ⟨before, hsplit⟩
    | cons z after =>
      -- What stands behind came first later.
      obtain ⟨-, hbehind, -⟩ := List.pairwise_append.1 horder
      have hlt := List.rel_of_pairwise_cons hbehind List.mem_cons_self
      have hge := hle z (by simp)
      omega

/-- Everything has one value, so the items with each of the values that occur are all
the items there are. -/
theorem sum_length_filter_appendNew {β : Type} (f : β → α) (l : List β) :
    ((appendNew [] (l.map f)).map fun a => (l.filter fun b => f b = a).length).sum = l.length := by
  have hperm : (appendNew [] (l.map f)).Perm (l.map f).dedup :=
    (List.perm_ext_iff_of_nodup (nodup_appendNew List.nodup_nil) (List.nodup_dedup _)).2
      fun a => by simp
  have hcount : ∀ a, (l.filter fun b => f b = a).length = (l.map f).count a := by
    intro a
    rw [List.count, List.countP_map, List.countP_eq_length_filter]
    rfl
  simp only [hcount]
  rw [(hperm.map _).sum_eq, List.sum_map_count_dedup_eq_length, List.length_map]

end PropertyGraph
