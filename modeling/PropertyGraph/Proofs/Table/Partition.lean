/-
Items split up among tables by their keys.

The partition goes through the items and appends each to the group with its keys.
What comes of it can be told without the walk: there is a group for each list of
keys that occurs, in the order in which the lists first come, and it holds the
items with that list in their order.

* **`keys_groups`**, **`getD_groups`** — what the walk does to the groups;
* **`partition_eq`** — the tables of the partition;
* **`existsUnique_mem_partition`** — every item belongs into exactly one of them;
* **`sum_length_split`** — no item is lost or doubled when items are split up among
  tables.
-/
import PropertyGraph.Proofs.FirstCome
import PropertyGraph.Table.Basic

namespace PropertyGraph

/-- The keys of the properties, put in ascending order, are `keys`. -/
def Properties.SortsTo (p : Properties) (keys : List String) : Prop :=
  keys.Perm p.keys ∧ keys.Pairwise (· < ·)

instance (p : Properties) (keys : List String) : Decidable (p.SortsTo keys) :=
  inferInstanceAs (Decidable (_ ∧ _))

namespace TableItem

theorem sortsTo_sortedKeys (i : TableItem) : i.properties.SortsTo i.sortedKeys := by
  have htrans : ∀ a b c : String, decide (a ≤ b) = true → decide (b ≤ c) = true →
      decide (a ≤ c) = true := fun a b c hab hbc =>
    decide_eq_true (String.le_trans (of_decide_eq_true hab) (of_decide_eq_true hbc))
  have htotal : ∀ a b : String, (decide (a ≤ b) || decide (b ≤ a)) = true :=
    fun a b => by simpa using String.le_total a b
  have hperm : i.sortedKeys.Perm i.properties.keys := List.mergeSort_perm _ _
  have hnodup : i.sortedKeys.Nodup := hperm.nodup_iff.2 i.properties.nodup
  refine ⟨hperm, ((List.pairwise_mergeSort htrans htotal _).and hnodup).imp ?_⟩
  -- No key stands twice, so the order is strict.
  rintro a b ⟨hle, hne⟩
  rw [← String.not_le]
  intro hge
  exact hne (String.le_antisymm (of_decide_eq_true hle) hge)

/-- There is one ascending order of the keys. -/
theorem sortedKeys_eq_iff {i : TableItem} {keys : List String} :
    i.sortedKeys = keys ↔ i.properties.SortsTo keys := by
  constructor
  · rintro rfl
    exact i.sortsTo_sortedKeys
  · rintro ⟨hperm, hsorted⟩
    obtain ⟨hperm', hsorted'⟩ := i.sortsTo_sortedKeys
    -- A strict order leaves no choice.
    refine (hperm'.trans hperm.symm).eq_of_pairwise (fun a b _ _ hab hba => ?_) hsorted' hsorted
    exact absurd (String.lt_trans hab hba) (String.lt_irrefl a)

end TableItem

namespace Table

variable {items : List TableItem}

/-! ### The walk through the items -/

/-- The groups after more items. -/
def groups (items : List TableItem) (m : OrderedMap (List String) (List TableItem)) :
    OrderedMap (List String) (List TableItem) :=
  items.foldl (fun m i => m.insert i.sortedKeys ((m.get? i.sortedKeys).getD [] ++ [i])) m

theorem keys_groups (items : List TableItem) (m : OrderedMap (List String) (List TableItem)) :
    (groups items m).keys = appendNew m.keys (items.map TableItem.sortedKeys) := by
  induction items generalizing m with
  | nil => rfl
  | cons i items ih =>
    rw [groups, List.foldl_cons, ← groups, ih, OrderedMap.keys_insert, List.map_cons,
      appendNew_cons]

/-- A group grows by the items with its keys. -/
theorem getD_groups (items : List TableItem) (m : OrderedMap (List String) (List TableItem))
    (keys : List String) :
    ((groups items m).get? keys).getD [] =
      (m.get? keys).getD [] ++ items.filter fun i => i.sortedKeys = keys := by
  induction items generalizing m with
  | nil => exact (List.append_nil _).symm
  | cons i items ih =>
    rw [groups, List.foldl_cons, ← groups, ih, OrderedMap.get?_insert]
    by_cases hkeys : i.sortedKeys = keys
    · subst hkeys
      rw [if_pos rfl, Option.getD_some, List.append_assoc, List.filter_cons_of_pos (by simp)]
      rfl
    · rw [if_neg (Ne.symm hkeys), List.filter_cons_of_neg (by simpa using hkeys)]

/-! ### The partition -/

theorem partition_eq (items : List TableItem) :
    partition items = (appendNew [] (items.map TableItem.sortedKeys)).map fun keys =>
      ⟨keys, items.filter fun i => i.sortedKeys = keys⟩ := by
  have hentries := (groups items .empty).entries_eq_map []
  rw [keys_groups] at hentries
  show (groups items .empty).entries.map _ = _
  rw [hentries, List.map_map]
  refine List.map_congr_left fun keys _ => ?_
  rw [Function.comp_apply, getD_groups]
  rfl

theorem keys_partition (items : List TableItem) :
    (partition items).map keys = appendNew [] (items.map TableItem.sortedKeys) := by
  rw [partition_eq, List.map_map]
  exact List.map_id _

theorem items_of_mem_partition {t : Table} (ht : t ∈ partition items) :
    t.items = items.filter fun i => i.sortedKeys = t.keys := by
  rw [partition_eq, List.mem_map] at ht
  obtain ⟨keys, -, rfl⟩ := ht
  rfl

theorem mem_of_mem_partition {t : Table} (ht : t ∈ partition items) {i : TableItem}
    (hi : i ∈ t.items) : i ∈ items := by
  rw [items_of_mem_partition ht] at hi
  exact List.mem_of_mem_filter hi

/-- No table of the partition is without items. -/
theorem exists_mem_of_mem_partition {t : Table} (ht : t ∈ partition items) :
    ∃ i ∈ items, i.sortedKeys = t.keys := by
  have hkeys : t.keys ∈ appendNew [] (items.map TableItem.sortedKeys) :=
    keys_partition items ▸ List.mem_map_of_mem ht
  simpa using hkeys

theorem existsUnique_mem_partition {i : TableItem} (hi : i ∈ items) :
    ∃! t, t ∈ partition items ∧ t.keys = i.sortedKeys := by
  have hkeys : i.sortedKeys ∈ (partition items).map keys := by
    rw [keys_partition, mem_appendNew]
    exact .inr (List.mem_map_of_mem hi)
  obtain ⟨t, ht, hti⟩ := List.mem_map.1 hkeys
  refine ⟨t, ⟨ht, hti⟩, ?_⟩
  rintro t' ⟨ht', hti'⟩
  -- A table is told by its keys.
  have hsame : t'.items = t.items := by
    rw [items_of_mem_partition ht, items_of_mem_partition ht', hti, hti']
  show Table.mk t'.keys t'.items = ⟨t.keys, t.items⟩
  rw [hsame, hti, hti']

theorem sum_length_partition (items : List TableItem) :
    ((partition items).map fun t => t.items.length).sum = items.length := by
  rw [partition_eq, List.map_map]
  exact sum_length_filter_appendNew TableItem.sortedKeys items

/-- One table of all items, or a table for each set of keys. -/
def split (partitioned : Bool) (items : List TableItem) : List Table :=
  if partitioned then partition items else [ofItems items]

/-- The items are split up among the tables. -/
theorem sum_length_split (partitioned : Bool) (items : List TableItem) :
    ((split partitioned items).map fun t => t.items.length).sum = items.length := by
  cases partitioned
  · exact Nat.add_zero _
  · exact sum_length_partition items

theorem mem_of_mem_split {partitioned : Bool} {t : Table} (ht : t ∈ split partitioned items)
    {i : TableItem} (hi : i ∈ t.items) : i ∈ items := by
  cases partitioned
  · cases List.mem_singleton.1 ht
    exact hi
  · exact mem_of_mem_partition ht hi

end Table

end PropertyGraph
