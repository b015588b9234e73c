/-
Sums over the values of a map.

* **`sumOf_insert`**, **`sumOf_erase`**, **`sumOf_modify`** — a sum after each
  change, with what was there before on the other side.
-/
import Mathlib.Algebra.Ring.Nat
import PropertyGraph.OrderedMap

namespace PropertyGraph

namespace OrderedMap

variable {κ ν : Type}

/-- The sum of what each value counts. -/
def sumOf (m : OrderedMap κ ν) (f : ν → Nat) : Nat := (m.values.map f).sum

variable [DecidableEq κ]

/-- A sum falls by what the erased value counts. -/
theorem sumOf_erase (m : OrderedMap κ ν) (k : κ) (f : ν → Nat) :
    (m.erase k).sumOf f + ((m.get? k).map f).getD 0 = m.sumOf f := by
  rcases m with ⟨l, hl⟩
  simp only [sumOf, values, erase, get?]
  induction l with
  | nil => rfl
  | cons e l ih =>
    rw [List.map_cons, List.nodup_cons] at hl
    by_cases he : e.1 = k
    · -- No other pair has the key.
      have hrest : l.filter (fun e => decide (e.1 ≠ k)) = l := by
        refine List.filter_eq_self.2 fun e' he' => decide_eq_true ?_
        rintro rfl
        exact hl.1 (he ▸ List.mem_map_of_mem he')
      rw [List.filter_cons_of_neg (by simp [he]), List.find?_cons_of_pos (by simp [he]), hrest]
      simp only [List.map_cons, List.sum_cons, Option.map_some, Option.getD_some]
      omega
    · have hsum := ih hl.2
      rw [List.filter_cons_of_pos (by simp [he]), List.find?_cons_of_neg (by simp [he])]
      simp only [List.map_cons, List.sum_cons]
      omega

theorem erase_modify (m : OrderedMap κ ν) (k : κ) (f : ν → ν) :
    (m.modify k f).erase k = m.erase k := by
  refine ext ?_
  simp only [erase, modify, mapValues, List.filter_map, Function.comp_def]
  refine (List.map_congr_left fun e he => ?_).trans (List.map_id _)
  have hne : e.1 ≠ k := of_decide_eq_true (List.mem_filter.1 he).2
  rw [if_neg hne]
  rfl

theorem erase_insert (m : OrderedMap κ ν) (k : κ) (v : ν) :
    (m.insert k v).erase k = m.erase k := by
  by_cases hk : k ∈ m.keys
  · rw [insert, dif_pos (contains_eq_true_iff.2 hk), erase_modify]
  · refine ext ?_
    simp [erase, entries_insert_of_notMem hk]

/-- A sum changes by the new value in place of the one that was there. -/
theorem sumOf_insert (m : OrderedMap κ ν) (k : κ) (v : ν) (f : ν → Nat) :
    (m.insert k v).sumOf f + ((m.get? k).map f).getD 0 = m.sumOf f + f v := by
  have hnew := sumOf_erase (m.insert k v) k f
  have hold := sumOf_erase m k f
  rw [erase_insert, get?_insert, if_pos rfl, Option.map_some, Option.getD_some] at hnew
  omega

theorem sumOf_modify {m : OrderedMap κ ν} {k : κ} {v : ν} (h : m.get? k = some v) (g : ν → ν)
    (f : ν → Nat) : (m.modify k g).sumOf f + f v = m.sumOf f + f (g v) := by
  have hnew := sumOf_erase (m.modify k g) k f
  have hold := sumOf_erase m k f
  rw [erase_modify, get?_modify, if_pos rfl, h] at hnew
  rw [h] at hold
  simp only [Option.map_some, Option.getD_some] at hnew hold
  omega

end OrderedMap

end PropertyGraph
