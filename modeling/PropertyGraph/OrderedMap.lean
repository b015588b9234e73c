/-
Maps that remember the order in which their keys first came.

`OrderedMap κ ν` is a list of pairs whose keys are pairwise distinct.  Writing
an old key keeps its place, writing a new one appends, and erasing closes the
gap.  Every table of the library whose order shows in an answer (properties,
adjacency counters, the nodes and edges of a graph) is such a map.

* **`get?_insert`**, **`get?_erase`**, **`get?_modify`** — a look-up after each
  operation;
* **`keys_insert`**, **`keys_erase`**, **`keys_modify`** — the key order after
  each operation;
* **`get?_eq_some_iff`** — a look-up finds exactly the stored pairs;
* **`eq_of_get?_eq`** — a map is its keys in order and what a look-up finds;
* **`ofList_entries`** — a map is rebuilt from its pairs.
-/
namespace PropertyGraph

/-- Pairs in the order in which their keys first came; no key occurs twice. -/
structure OrderedMap (κ ν : Type) where
  entries : List (κ × ν) := []
  nodup : (entries.map Prod.fst).Nodup := by simp
deriving DecidableEq

namespace OrderedMap

variable {κ ν : Type}

/-- The map without entries. -/
def empty : OrderedMap κ ν := {}

instance : EmptyCollection (OrderedMap κ ν) := ⟨empty⟩

instance : Inhabited (OrderedMap κ ν) := ⟨empty⟩

/-- The keys, first come first. -/
def keys (m : OrderedMap κ ν) : List κ := m.entries.map Prod.fst

/-- The values, in the order of their keys. -/
def values (m : OrderedMap κ ν) : List ν := m.entries.map Prod.snd

/-- The number of entries. -/
def size (m : OrderedMap κ ν) : Nat := m.entries.length

/-- Whether there is no entry. -/
def isEmpty (m : OrderedMap κ ν) : Bool := m.entries.isEmpty

@[ext]
theorem ext {m n : OrderedMap κ ν} (h : m.entries = n.entries) : m = n := by
  cases m
  cases n
  congr

theorem length_values (m : OrderedMap κ ν) : m.values.length = m.size := List.length_map _

/-- The values changed one by one, the keys and their order kept. -/
def mapValues {μ : Type} (f : κ → ν → μ) (m : OrderedMap κ ν) : OrderedMap κ μ where
  entries := m.entries.map fun e => (e.1, f e.1 e.2)
  nodup := by simpa [List.map_map, Function.comp_def] using m.nodup

variable [DecidableEq κ]

/-- Whether `k` is a key. -/
def contains (m : OrderedMap κ ν) (k : κ) : Bool := m.entries.any fun e => e.1 = k

/-- The value under `k`. -/
def get? (m : OrderedMap κ ν) (k : κ) : Option ν :=
  (m.entries.find? fun e => e.1 = k).map Prod.snd

/-- The number of keys that came before `k`. -/
def position? (m : OrderedMap κ ν) (k : κ) : Option Nat :=
  m.entries.findIdx? fun e => e.1 = k

/-- The value under `k`, if there is one, passed through `f`. -/
def modify (m : OrderedMap κ ν) (k : κ) (f : ν → ν) : OrderedMap κ ν :=
  m.mapValues fun k' v => if k' = k then f v else v

/-- The map without `k`; what came after it moves up. -/
def erase (m : OrderedMap κ ν) (k : κ) : OrderedMap κ ν where
  entries := m.entries.filter fun e => e.1 ≠ k
  nodup := m.nodup.sublist (List.filter_sublist.map _)

theorem contains_eq_true_iff {m : OrderedMap κ ν} {k : κ} :
    m.contains k = true ↔ k ∈ m.keys := by
  simp [contains, keys]

/-- The map with `v` under `k`: in place where `k` is a key, at the end where
it is new. -/
def insert (m : OrderedMap κ ν) (k : κ) (v : ν) : OrderedMap κ ν :=
  if h : m.contains k then m.modify k fun _ => v
  else
    { entries := m.entries ++ [(k, v)]
      nodup := by
        have hk : k ∉ m.keys := fun hk => h (contains_eq_true_iff.2 hk)
        rw [List.map_append, List.nodup_append]
        refine ⟨m.nodup, by simp, fun a ha b hb => ?_⟩
        simp only [List.map_cons, List.map_nil, List.mem_singleton] at hb
        subst hb
        exact fun hab => hk (hab ▸ ha) }

/-- The map that inserting the pairs one after another builds: a repeated key
keeps its first place and takes its last value. -/
def ofList (l : List (κ × ν)) : OrderedMap κ ν :=
  l.foldl (fun m e => m.insert e.1 e.2) empty

/-! ### Look-ups -/

theorem find?_fst_eq_some_iff {l : List (κ × ν)} (hl : (l.map Prod.fst).Nodup) {k : κ} {v : ν} :
    (l.find? fun e => e.1 = k).map Prod.snd = some v ↔ (k, v) ∈ l := by
  induction l with
  | nil => simp
  | cons e l ih =>
    rw [List.map_cons, List.nodup_cons] at hl
    rw [List.find?_cons]
    by_cases he : e.1 = k
    · simp only [he, decide_true, Option.map_some, Option.some.injEq, List.mem_cons]
      constructor
      · intro hv
        exact .inl (by rw [← he, ← hv])
      · rintro (hkv | hkv)
        · rw [← hkv]
        · exact absurd (List.mem_map_of_mem (f := Prod.fst) hkv) (he ▸ hl.1)
    · simp only [he, decide_false, List.mem_cons]
      rw [ih hl.2]
      constructor
      · exact .inr
      · rintro (hkv | hkv)
        · exact absurd (by rw [← hkv]) he
        · exact hkv

/-- A look-up finds exactly the stored pairs. -/
theorem get?_eq_some_iff {m : OrderedMap κ ν} {k : κ} {v : ν} :
    m.get? k = some v ↔ (k, v) ∈ m.entries :=
  find?_fst_eq_some_iff m.nodup

theorem get?_isSome {m : OrderedMap κ ν} {k : κ} : (m.get? k).isSome = m.contains k := by
  rw [Bool.eq_iff_iff]
  simp [get?, contains]

theorem exists_get?_iff {m : OrderedMap κ ν} {k : κ} : (∃ v, m.get? k = some v) ↔ k ∈ m.keys := by
  rw [← Option.isSome_iff_exists, get?_isSome, contains_eq_true_iff]

theorem mem_values_iff {m : OrderedMap κ ν} {v : ν} : v ∈ m.values ↔ ∃ k, m.get? k = some v := by
  simp [values, get?_eq_some_iff]

theorem get?_eq_none_iff {m : OrderedMap κ ν} {k : κ} : m.get? k = none ↔ k ∉ m.keys := by
  rw [← contains_eq_true_iff, ← get?_isSome]
  cases m.get? k <;> simp

@[simp]
theorem get?_empty {k : κ} : (empty : OrderedMap κ ν).get? k = none := rfl

omit [DecidableEq κ] in
@[simp]
theorem keys_mapValues {μ : Type} (f : κ → ν → μ) (m : OrderedMap κ ν) :
    (m.mapValues f).keys = m.keys := by
  simp [keys, mapValues, List.map_map, Function.comp_def]

@[simp]
theorem get?_mapValues {μ : Type} (f : κ → ν → μ) (m : OrderedMap κ ν) (k : κ) :
    (m.mapValues f).get? k = (m.get? k).map (f k) := by
  rcases m with ⟨l, hl⟩
  simp only [get?, mapValues]
  clear hl
  induction l with
  | nil => rfl
  | cons e l ih =>
    simp only [List.map_cons, List.find?_cons]
    by_cases he : e.1 = k
    · simp [he]
    · simpa [he] using ih

@[simp]
theorem keys_modify (m : OrderedMap κ ν) (k : κ) (f : ν → ν) : (m.modify k f).keys = m.keys :=
  keys_mapValues _ _

theorem get?_modify (m : OrderedMap κ ν) (k k' : κ) (f : ν → ν) :
    (m.modify k f).get? k' = if k' = k then (m.get? k').map f else m.get? k' := by
  rw [modify, get?_mapValues]
  by_cases h : k' = k
  · simp [h]
  · cases m.get? k' <;> simp [h]

theorem keys_erase (m : OrderedMap κ ν) (k : κ) :
    (m.erase k).keys = m.keys.filter fun k' => k' ≠ k := by
  simp only [keys, erase, List.filter_map, Function.comp_def]

theorem get?_erase (m : OrderedMap κ ν) (k k' : κ) :
    (m.erase k).get? k' = if k' = k then none else m.get? k' := by
  apply Option.ext
  intro v
  rw [get?_eq_some_iff]
  by_cases h : k' = k
  · simp [erase, h]
  · simp [erase, h, get?_eq_some_iff]

theorem keys_insert (m : OrderedMap κ ν) (k : κ) (v : ν) :
    (m.insert k v).keys = if k ∈ m.keys then m.keys else m.keys ++ [k] := by
  rw [insert]
  split
  · next h => rw [keys_modify, if_pos (contains_eq_true_iff.1 h)]
  · next h =>
    rw [if_neg fun hk => h (contains_eq_true_iff.2 hk)]
    simp [keys]

theorem get?_insert (m : OrderedMap κ ν) (k k' : κ) (v : ν) :
    (m.insert k v).get? k' = if k' = k then some v else m.get? k' := by
  rw [insert]
  split
  · next h =>
    rw [get?_modify]
    by_cases hk : k' = k
    · subst hk
      rw [← get?_isSome, Option.isSome_iff_exists] at h
      obtain ⟨w, hw⟩ := h
      simp [hw]
    · simp [hk]
  · next h =>
    by_cases hk : k' = k
    · have : m.entries.find? (fun e => e.1 = k) = none := by
        rw [List.find?_eq_none]
        intro e he hek
        exact h (contains_eq_true_iff.2 (of_decide_eq_true hek ▸ List.mem_map_of_mem he))
      simp [get?, hk, List.find?_append, this]
    · have : ¬ k = k' := fun hkk => hk hkk.symm
      simp only [get?, List.find?_append, hk, if_false]
      cases m.entries.find? fun e => e.1 = k' <;> simp [this]

@[simp]
theorem contains_modify (m : OrderedMap κ ν) (k k' : κ) (f : ν → ν) :
    (m.modify k f).contains k' = m.contains k' := by
  rw [Bool.eq_iff_iff, contains_eq_true_iff, contains_eq_true_iff, keys_modify]

theorem contains_insert {m : OrderedMap κ ν} {k k' : κ} {v : ν} :
    (m.insert k v).contains k' = true ↔ k' = k ∨ m.contains k' = true := by
  rw [← get?_isSome, ← get?_isSome, get?_insert]
  by_cases h : k' = k <;> simp [h]

theorem contains_erase {m : OrderedMap κ ν} {k k' : κ} :
    (m.erase k).contains k' = true ↔ k' ≠ k ∧ m.contains k' = true := by
  rw [← get?_isSome, ← get?_isSome, get?_erase]
  by_cases h : k' = k <;> simp [h]

theorem entries_insert_of_notMem {m : OrderedMap κ ν} {k : κ} (h : k ∉ m.keys) (v : ν) :
    (m.insert k v).entries = m.entries ++ [(k, v)] := by
  rw [insert, dif_neg fun hk => h (contains_eq_true_iff.1 hk)]

/-- Pairs with new keys, no two of which agree, are appended as they stand. -/
theorem entries_foldl_insert {l : List (κ × ν)} {m : OrderedMap κ ν}
    (h : (m.keys ++ l.map Prod.fst).Nodup) :
    (l.foldl (fun m e => m.insert e.1 e.2) m).entries = m.entries ++ l := by
  induction l generalizing m with
  | nil => exact (List.append_nil _).symm
  | cons e l ih =>
    rw [List.map_cons, ← List.singleton_append, ← List.append_assoc] at h
    have hnew : e.1 ∉ m.keys := fun he =>
      (List.nodup_append.1 (List.nodup_append.1 h).1).2.2 e.1 he e.1 List.mem_cons_self rfl
    have hkeys : (m.insert e.1 e.2).keys = m.keys ++ [e.1] := by
      rw [keys_insert, if_neg hnew]
    rw [List.foldl_cons, ih (hkeys ▸ h), entries_insert_of_notMem hnew, List.append_assoc]
    rfl

theorem entries_ofList {l : List (κ × ν)} (h : (l.map Prod.fst).Nodup) : (ofList l).entries = l :=
  entries_foldl_insert (m := empty) h

/-- A map has no pairs but those that have been inserted. -/
theorem mem_of_mem_ofList {l : List (κ × ν)} {e : κ × ν} (h : e ∈ (ofList l).entries) : e ∈ l := by
  suffices hfold : ∀ m : OrderedMap κ ν,
      e ∈ (l.foldl (fun m e => m.insert e.1 e.2) m).entries → e ∈ m.entries ∨ e ∈ l from
    (hfold empty h).resolve_left List.not_mem_nil
  clear h
  induction l with
  | nil => exact fun m h => .inl h
  | cons e' l ih =>
    intro m h
    rw [List.mem_cons, ← or_assoc]
    refine (ih _ h).imp_left fun h => ?_
    rw [← get?_eq_some_iff (k := e.1) (v := e.2), get?_insert] at h
    split at h
    · next hk => exact .inr (Prod.ext hk (Option.some.inj h).symm)
    · exact .inl (get?_eq_some_iff.1 h)

/-- The pairs with a key are what a look-up finds. -/
theorem filter_entries (m : OrderedMap κ ν) (k : κ) :
    m.entries.filter (fun e => e.1 = k) = ((m.get? k).map fun v => (k, v)).toList := by
  rcases m with ⟨l, hl⟩
  simp only [get?]
  induction l with
  | nil => rfl
  | cons e l ih =>
    rw [List.map_cons, List.nodup_cons] at hl
    rw [List.filter_cons, List.find?_cons]
    by_cases he : e.1 = k
    · -- No later pair has the key.
      have hnone : l.filter (fun e => e.1 = k) = [] := by
        rw [List.filter_eq_nil_iff]
        intro e' he' hk
        exact hl.1 (he ▸ of_decide_eq_true hk ▸ List.mem_map_of_mem he')
      subst he
      simp [hnone]
    · simp [he, ih hl.2]

/-- A map is its keys, each with the value that a look-up finds. -/
theorem entries_eq_map (m : OrderedMap κ ν) (default : ν) :
    m.entries = m.keys.map fun k => (k, (m.get? k).getD default) := by
  rw [keys, List.map_map]
  refine ((List.map_congr_left fun e he => ?_).trans (List.map_id _)).symm
  rw [Function.comp_apply, get?_eq_some_iff.2 he]
  rfl

/-- Two maps are one if they have the same keys in the same order and the same
value under each. -/
theorem eq_of_get?_eq {m n : OrderedMap κ ν} (hkeys : m.keys = n.keys)
    (h : ∀ k, m.get? k = n.get? k) : m = n := by
  have hentries : ∀ m : OrderedMap κ ν,
      m.entries.map some = m.keys.map fun k => (m.get? k).map fun v => (k, v) := by
    intro m
    rw [keys, List.map_map]
    refine List.map_congr_left fun e he => ?_
    rw [Function.comp_apply, get?_eq_some_iff.2 he]
    rfl
  refine ext ((List.map_inj_right fun _ _ => Option.some.inj).1 ?_)
  rw [hentries, hentries, hkeys]
  exact List.map_congr_left fun k _ => congrArg _ (h k)

theorem insert_insert (m : OrderedMap κ ν) (k : κ) (v w : ν) :
    (m.insert k v).insert k w = m.insert k w := by
  have hmem : k ∈ (m.insert k v).keys := contains_eq_true_iff.1 (contains_insert.2 (.inl rfl))
  refine eq_of_get?_eq ?_ fun k' => ?_
  · rw [keys_insert, if_pos hmem, keys_insert, keys_insert]
  · rw [get?_insert, get?_insert, get?_insert]
    split <;> rfl

/-- Writing what is there already changes nothing. -/
theorem insert_of_get?_eq_some {m : OrderedMap κ ν} {k : κ} {v : ν} (h : m.get? k = some v) :
    m.insert k v = m := by
  have hmem : k ∈ m.keys := List.mem_map_of_mem (get?_eq_some_iff.1 h)
  refine eq_of_get?_eq ?_ fun k' => ?_
  · rw [keys_insert, if_pos hmem]
  · rw [get?_insert]
    split
    · next hk => rw [hk, h]
    · rfl

theorem erase_of_notMem {m : OrderedMap κ ν} {k : κ} (h : k ∉ m.keys) : m.erase k = m := by
  refine ext (List.filter_eq_self.2 fun e he => decide_eq_true ?_)
  rintro rfl
  exact h (List.mem_map_of_mem he)

/-- A map is rebuilt from its pairs. -/
theorem ofList_entries (m : OrderedMap κ ν) : ofList m.entries = m := ext (entries_ofList m.nodup)

/-- The keys that came before a key are its position. -/
theorem getElem?_keys_of_position? {m : OrderedMap κ ν} {k : κ} {i : Nat}
    (h : m.position? k = some i) : m.keys[i]? = some k := by
  rw [position?, List.findIdx?_eq_some_iff_getElem] at h
  obtain ⟨hi, hk, -⟩ := h
  rw [keys, List.getElem?_map, List.getElem?_eq_getElem hi, Option.map_some]
  exact congrArg some (of_decide_eq_true hk)

theorem position?_isSome {m : OrderedMap κ ν} {k : κ} :
    (m.position? k).isSome = m.contains k := by
  simp [position?, contains]

end OrderedMap

end PropertyGraph
