/-
Lists in which everything stands once, at the place where it first came.

* **`mem_appendNew`** — appending adds exactly what is appended;
* **`nodup_appendNew`** — and nothing twice;
* **`prefix_appendNew`** — behind what was there;
* **`appendNew_eq_append`** — all of it, if nothing stands twice.
-/
namespace PropertyGraph

variable {α : Type} [DecidableEq α]

/-- A list with whatever is new of another list appended once each. -/
def appendNew (seen incoming : List α) : List α :=
  incoming.foldl (fun l a => if a ∈ l then l else l ++ [a]) seen

theorem appendNew_cons (seen : List α) (a : α) (l : List α) :
    appendNew seen (a :: l) = appendNew (if a ∈ seen then seen else seen ++ [a]) l := rfl

theorem appendNew_append (seen l l' : List α) :
    appendNew seen (l ++ l') = appendNew (appendNew seen l) l' :=
  List.foldl_append

@[simp]
theorem mem_appendNew {seen incoming : List α} {a : α} :
    a ∈ appendNew seen incoming ↔ a ∈ seen ∨ a ∈ incoming := by
  induction incoming generalizing seen with
  | nil => simp [appendNew]
  | cons b l ih =>
    rw [appendNew_cons, ih]
    split
    · next hb =>
      simp only [List.mem_cons]
      constructor
      · rintro (h | h)
        · exact .inl h
        · exact .inr (.inr h)
      · rintro (h | h | h)
        · exact .inl h
        · exact .inl (h ▸ hb)
        · exact .inr h
    · simp only [List.mem_append, List.mem_cons, List.not_mem_nil, or_false, or_assoc]

theorem nodup_appendNew {seen incoming : List α} (h : seen.Nodup) :
    (appendNew seen incoming).Nodup := by
  induction incoming generalizing seen with
  | nil => exact h
  | cons b l ih =>
    rw [appendNew_cons]
    apply ih
    split
    · exact h
    · next hb =>
      rw [List.nodup_append]
      refine ⟨h, by simp, fun a ha c hc => ?_⟩
      rw [List.mem_singleton] at hc
      subst hc
      exact fun hac => hb (hac ▸ ha)

theorem prefix_appendNew (seen incoming : List α) : seen <+: appendNew seen incoming := by
  induction incoming generalizing seen with
  | nil => exact List.prefix_refl seen
  | cons b l ih =>
    rw [appendNew_cons]
    split
    · exact ih seen
    · exact (List.prefix_append seen [b]).trans (ih _)

theorem appendNew_eq_append {seen incoming : List α} (h : (seen ++ incoming).Nodup) :
    appendNew seen incoming = seen ++ incoming := by
  induction incoming generalizing seen with
  | nil => exact (List.append_nil seen).symm
  | cons b l ih =>
    have hnew : b ∉ seen := fun hb =>
      (List.nodup_append.1 h).2.2 b hb b List.mem_cons_self rfl
    rw [← List.singleton_append, ← List.append_assoc] at h
    rw [appendNew_cons, if_neg hnew, ih h, List.append_assoc]
    rfl

end PropertyGraph
