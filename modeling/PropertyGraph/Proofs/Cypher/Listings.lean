/-
What the listings of a node come to.

A listing is stripped of the properties that are no condition before it is merged
into those before it, so stripping all listings beforehand changes nothing.  What
merging keeps then holds of each constraint if it holds of every stripped listing,
and what merging adds up holds of a constraint if it holds of one of them.

* **`entries_conditional`** — stripping is taking out entries;
* **`constraintOf`** — what all listings of a node ask for;
* **`forall_constraints`** — what all listings have in common;
* **`constraintOf_iff`** — what one of them brings.
-/
import PropertyGraph.Proofs.Cypher.Coverage
import PropertyGraph.Proofs.Property.MergeAlgebra

namespace PropertyGraph

/-- A property is a single value that some rule for its key lists. -/
def MatchConfig.Ignores (config : MatchConfig) (key : String) (p : Property) : Prop :=
  ∃ v, p = .single v ∧ ∃ rule ∈ config.dontCare, rule.property = key ∧ v.isIn rule.values = true

namespace Cypher

variable {config : MatchConfig}

/-! ### Stripping -/

theorem isDontCare_iff {key : String} {p : Property} :
    isDontCare config key p = true ↔ config.Ignores key p := by
  cases p with
  | single v => simp [isDontCare, Property.single?, MatchConfig.Ignores]
  | several vs => simp [isDontCare, Property.single?, MatchConfig.Ignores]

instance (key : String) (p : Property) : Decidable (config.Ignores key p) :=
  decidable_of_iff _ isDontCare_iff

/-- Erasing keys under a condition, one by one, is taking out their entries. -/
theorem entries_foldl_erase (drops : String → Bool) (keys : List String) (m : Properties) :
    OrderedMap.entries (keys.foldl (fun kept key => if drops key then kept.erase key else kept) m) =
      m.entries.filter fun e => !(decide (e.1 ∈ keys) && drops e.1) := by
  induction keys generalizing m with
  | nil => simp
  | cons key keys ih =>
    rw [List.foldl_cons, ih]
    by_cases hkey : drops key = true
    · rw [if_pos hkey, OrderedMap.erase, List.filter_filter]
      refine List.filter_congr fun e _ => ?_
      by_cases he : e.1 = key <;> simp [he, hkey]
    · rw [if_neg hkey]
      refine List.filter_congr fun e _ => ?_
      by_cases he : e.1 = key <;> simp [he, hkey]

/-- The conditions among properties are the entries left over. -/
theorem entries_conditional (config : MatchConfig) (m : Properties) :
    (conditional config m).entries = m.entries.filter fun e => !isDontCare config e.1 e.2 := by
  rw [conditional, entries_foldl_erase fun key => (m.get? key).any (isDontCare config key)]
  refine List.filter_congr fun e he => ?_
  have hkey : e.1 ∈ m.keys := List.mem_map_of_mem he
  rw [OrderedMap.get?_eq_some_iff.2 he, Option.any_some, decide_eq_true hkey, Bool.true_and]

theorem mem_conditional_iff {m : Properties} {e : String × Property} :
    e ∈ (conditional config m).entries ↔
      e ∈ m.entries ∧ ¬config.Ignores e.1 e.2 := by
  rw [entries_conditional, List.mem_filter, Bool.not_eq_true', ← Bool.not_eq_true, isDontCare_iff]

/-- What is left over is all conditions. -/
theorem conditional_conditional (config : MatchConfig) (m : Properties) :
    conditional config (conditional config m) = conditional config m := by
  refine OrderedMap.ext ?_
  rw [entries_conditional config (conditional config m), entries_conditional, List.filter_filter]
  simp only [Bool.and_self]

/-! ### Constraints -/

/-- What all listings of a node ask for. -/
def constraintOf (config : MatchConfig) (p : PatternGraph) (id : NodeId) : Constraint :=
  ((constraints config p.nodes).get? id).getD ⟨[], .empty⟩

theorem get?_constraints {p : PatternGraph} {id : NodeId}
    (hid : id ∈ p.nodes.map PatternNode.id) :
    (constraints config p.nodes).get? id = some (constraintOf config p id) := by
  have hkey : id ∈ (constraints config p.nodes).keys := mem_keys_constraints.2 hid
  obtain ⟨c, hc⟩ := OrderedMap.exists_get?_iff.2 hkey
  rw [constraintOf, hc, Option.getD_some]

/-- The constraints are those of the listed nodes, first listed first. -/
theorem entries_constraints_eq_map (config : MatchConfig) (p : PatternGraph) :
    (constraints config p.nodes).entries =
      (appendNew [] (p.nodes.map PatternNode.id)).map fun id => (id, constraintOf config p id) := by
  rw [← keys_constraints config, OrderedMap.keys, List.map_map]
  refine (List.map_id' _).symm.trans (List.map_congr_left fun e he => ?_)
  have hget : (constraints config p.nodes).get? e.1 = some e.2 := OrderedMap.get?_eq_some_iff.2 he
  rw [Function.comp_apply, constraintOf, hget]
  rfl

/-! ### Merging -/

/-- What a node must have meets a condition. -/
def Requires (m : OrderedMap NodeId Constraint) (id : NodeId) (P : Properties → Prop) : Prop :=
  ∃ c, m.get? id = some c ∧ P c.properties

section

variable {P : Properties → Prop} {m : OrderedMap NodeId Constraint} {id : NodeId}

theorem requires_insert_iff {n : NodeId} {c : Constraint} :
    Requires (m.insert n c) id P ↔ if id = n then P c.properties else Requires m id P := by
  rw [Requires, OrderedMap.get?_insert]
  split
  · simp
  · rfl

/-- A listing adds what it says of its node. -/
theorem requires_addListing_iff (hP : Properties.Additive P) (n : PatternNode) :
    Requires (addListing config m n) id P ↔
      Requires m id P ∨ n.id = id ∧ P (conditional config n.properties) := by
  by_cases hid : id = n.id
  · subst hid
    rw [addListing]
    split
    · next c hc =>
      rw [requires_insert_iff, if_pos rfl, hP, Requires, hc]
      simp
    · next hnone =>
      rw [requires_insert_iff, if_pos rfl, Requires, hnone]
      simp
  · -- Nothing changes for other nodes.
    have hframe : Requires (addListing config m n) id P ↔ Requires m id P := by
      rw [addListing]
      split <;> rw [requires_insert_iff, if_neg hid]
    rw [hframe]
    exact ⟨.inl, fun h => h.resolve_right fun hn => hid hn.1.symm⟩

/-- A node must have what one of its listings brings, of all that merging adds up. -/
theorem requires_constraints_iff (hP : Properties.Additive P) (nodes : List PatternNode) :
    Requires (constraints config nodes) id P ↔
      ∃ n ∈ nodes, n.id = id ∧ P (conditional config n.properties) := by
  suffices hfold : ∀ m, Requires (nodes.foldl (addListing config) m) id P ↔
      Requires m id P ∨ ∃ n ∈ nodes, n.id = id ∧ P (conditional config n.properties) by
    refine (hfold .empty).trans (or_iff_right ?_)
    rintro ⟨c, hc, -⟩
    cases hc
  induction nodes with
  | nil => simp
  | cons n nodes ih =>
    intro m
    rw [List.foldl_cons, ih, requires_addListing_iff hP, List.exists_mem_cons_iff, or_assoc]

/-- What merging keeps every constraint has in common with every listing. -/
theorem forall_constraints (hmerge : ∀ a b, P a → P b → P (a.merge b)) {nodes : List PatternNode}
    (h : ∀ n ∈ nodes, P (conditional config n.properties)) :
    ∀ id c, (constraints config nodes).get? id = some c → P c.properties := by
  refine List.foldlRecOn (motive := fun m : OrderedMap NodeId Constraint =>
    ∀ id c, m.get? id = some c → P c.properties) nodes _ (fun _ _ hc => nomatch hc) ?_
  intro m hm n hn
  have hinsert : ∀ c : Constraint, P c.properties →
      ∀ id c', (m.insert n.id c).get? id = some c' → P c'.properties := by
    intro c hc id c' hget
    rw [OrderedMap.get?_insert] at hget
    split at hget
    · obtain rfl := Option.some.inj hget
      exact hc
    · exact hm id c' hget
  rw [addListing]
  split
  · next c hc => exact hinsert _ (hmerge _ _ (hm n.id c hc) (h n hn))
  · exact hinsert _ (h n hn)

end

/-- What merging adds up is asked of a node if one of its listings asks for it. -/
theorem constraintOf_iff {P : Properties → Prop} (hP : Properties.Additive P) {p : PatternGraph}
    {id : NodeId} (hid : id ∈ p.nodes.map PatternNode.id) :
    P (constraintOf config p id).properties ↔
      ∃ n ∈ p.nodes, n.id = id ∧ P (conditional config n.properties) := by
  rw [← requires_constraints_iff hP, Requires, get?_constraints hid]
  simp

theorem additive_mem_keys (key : String) :
    Properties.Additive fun m => key ∈ m.keys := by
  intro m n
  show key ∈ (m.merge n).keys ↔ _
  rw [Properties.keys_merge, mem_appendNew]

/-- A node is asked for a key if one of its listings holds more under it than what
stands for no condition. -/
theorem mem_keys_constraintOf_iff {p : PatternGraph} {id : NodeId}
    (hid : id ∈ p.nodes.map PatternNode.id) {key : String} :
    key ∈ (constraintOf config p id).properties.keys ↔
      ∃ n ∈ p.nodes, n.id = id ∧ ∃ e ∈ n.properties.entries, e.1 = key ∧
        ¬config.Ignores e.1 e.2 := by
  rw [constraintOf_iff (P := fun m => key ∈ m.keys) (additive_mem_keys key) hid]
  refine exists_congr fun n => and_congr_right fun _ => and_congr_right fun _ => ?_
  rw [OrderedMap.keys, List.mem_map]
  constructor
  · rintro ⟨e, he, rfl⟩
    obtain ⟨hmem, hkept⟩ := mem_conditional_iff.1 he
    exact ⟨e, hmem, rfl, hkept⟩
  · rintro ⟨e, hmem, rfl, hkept⟩
    exact ⟨e, mem_conditional_iff.2 ⟨hmem, hkept⟩, rfl⟩

end Cypher

end PropertyGraph
