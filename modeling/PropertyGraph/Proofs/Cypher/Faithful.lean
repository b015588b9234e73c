/-
The text of a compiled query tells what it matches.

Compiling takes values out of properties and merges properties, so a query holds
no float if the listed nodes hold none.  Its text then tells its fragments and
conditions, whatever quotes, brackets or keywords stand in names and values.

* **`Properties.floats_merge`**, **`floatFree_constraints`** — merging makes no float up;
* **`floatFree_of_compile`** — nor does compiling;
* **`eq_of_text_compile`** — compiled queries with one text match the same.
-/
import PropertyGraph.Proofs.Cypher.Listings
import PropertyGraph.Proofs.Cypher.Patterns

namespace PropertyGraph

/-! ### Floats in merged properties -/

theorem Value.respected_float : Respected fun v => v.float? ≠ none := by
  intro v w hvw
  cases v <;> cases w <;> simp_all [same, float?]

theorem Properties.floats_eq_nil_iff {m : Properties} :
    m.floats = [] ↔ ∀ e ∈ m.entries, e.2.floats = [] := by
  rw [Properties.floats, List.flatMap_eq_nil_iff, OrderedMap.values, List.forall_mem_map]

/-- No float is among the values exactly if none is among those of a key. -/
theorem Properties.floats_eq_nil_iff_valuesAt {m : Properties} :
    m.floats = [] ↔ ∀ key, ¬∃ v ∈ m.valuesAt key, v.float? ≠ none := by
  rw [floats_eq_nil_iff]
  constructor
  · rintro hm key ⟨v, hv, hfloat⟩
    cases hp : m.get? key with
    | none => simp [valuesAt, hp] at hv
    | some p =>
      rw [valuesAt, hp] at hv
      have hnone := hm (key, p) (OrderedMap.get?_eq_some_iff.1 hp)
      exact hfloat (List.filterMap_eq_nil_iff.1 hnone v hv)
  · intro hm e he
    refine List.filterMap_eq_nil_iff.2 fun v hv => ?_
    by_contra hfloat
    refine hm e.1 ⟨v, ?_, hfloat⟩
    rw [valuesAt, OrderedMap.get?_eq_some_iff.2 he]
    exact hv

theorem Properties.floats_merge {m n : Properties} (hm : m.floats = []) (hn : n.floats = []) :
    (m.merge n).floats = [] := by
  rw [floats_eq_nil_iff_valuesAt] at hm hn ⊢
  intro key hfloat
  exact ((exists_valuesAt_merge Value.respected_float m n key).1 hfloat).elim (hm key) (hn key)

/-- A pattern graph none of whose nodes holds a float. -/
def PatternGraph.FloatFree (p : PatternGraph) : Prop := ∀ n ∈ p.nodes, n.properties.floats = []

instance (p : PatternGraph) : Decidable p.FloatFree := inferInstanceAs (Decidable (∀ _ ∈ _, _))

namespace Cypher

variable {config : MatchConfig}

/-! ### Floats in compiled queries -/

theorem floats_conditional {m : Properties} (hm : m.floats = []) :
    (conditional config m).floats = [] := by
  rw [Properties.floats_eq_nil_iff] at hm ⊢
  exact fun e he => hm e (mem_conditional_iff.1 he).1

/-- Constraints none of which holds a float. -/
def ConstraintsFloatFree (m : OrderedMap NodeId Constraint) : Prop :=
  ∀ id c, m.get? id = some c → c.properties.floats = []

theorem floatFree_constraints {nodes : List PatternNode}
    (h : ∀ n ∈ nodes, n.properties.floats = []) :
    ConstraintsFloatFree (constraints config nodes) :=
  forall_constraints (P := fun m => m.floats = []) (fun _ _ => Properties.floats_merge)
    fun n hn => floats_conditional (h n hn)

/-- Compiling makes no float up. -/
theorem floatFree_of_compile {p : PatternGraph} {q : Query} (h : compile config p = .ok q)
    (hp : p.FloatFree) : q.FloatFree := by
  have hconstraints : ConstraintsFloatFree (constraints config p.nodes) := floatFree_constraints hp
  constructor
  · intro f hf n hn e he
    obtain ⟨id, hid⟩ := mem_nodes_of_compile h hf hn
    obtain ⟨c, hc, rfl⟩ := get?_nodePatterns.1 hid
    replace he : e ∈ if config.useWhere then [] else c.properties.entries := he
    split at he
    · exact absurd he List.not_mem_nil
    · exact Properties.floats_eq_nil_iff.1 (hconstraints id c hc) e he
  · obtain ⟨-, edges, -, rfl⟩ := compile_eq_ok_iff.1 h
    intro c hc
    split at hc
    · obtain ⟨e, he, hc⟩ := List.mem_flatMap.1 hc
      obtain ⟨entry, hentry, rfl⟩ := List.mem_map.1 hc
      have hfree := hconstraints e.1 e.2 (OrderedMap.get?_eq_some_iff.2 he)
      exact Properties.floats_eq_nil_iff.1 hfree entry hentry
    · exact absurd hc List.not_mem_nil

/-- **Queries compiled to one text match the same.**  Where everything is returned
and no node holds a float, the text tells the fragments with all that is in them
and the conditions. -/
theorem eq_of_text_compile {p p' : PatternGraph} {q q' : Query} (hreturns : config.returns = [])
    (hp : p.FloatFree) (hp' : p'.FloatFree) (h : compile config p = .ok q)
    (h' : compile config p' = .ok q') (htext : q.text = q'.text) :
    q.fragments = q'.fragments ∧ q.conditions = q'.conditions := by
  have hall : ∀ {p : PatternGraph} {q : Query}, compile config p = .ok q → q.returns = [] := by
    intro p q h
    obtain ⟨-, edges, -, rfl⟩ := compile_eq_ok_iff.1 h
    exact hreturns
  obtain rfl := Query.text_inj (floatFree_of_compile h hp) (floatFree_of_compile h' hp')
    (hall h) (hall h') htext
  exact ⟨rfl, rfl⟩

/-- A label and a value that end a pattern, if they are not quoted. -/
def spoofed : PatternGraph where
  nodes := [{ id := .int 1, labels := ["A`)-[r]->(b"],
              properties := .ofMembers [("name", .text "\"\x7d)"), ("lemma", .text "?")] }]

/-- The same in two listings. -/
def spoofedApart : PatternGraph where
  nodes := [{ id := .int 1, labels := ["A`)-[r]->(b"] },
            { id := .int 1, properties := .ofMembers [("name", .text "\"\x7d)")] }]

theorem eq_of_text_compile_spoofed :
    ∃ q q', compile {} spoofed = .ok q ∧ compile {} spoofedApart = .ok q' ∧
      q.text = "MATCH (n1:`A``)-[r]->(b` \x7bname:\"\\\"\x7d)\"\x7d) RETURN *" ∧
      q.text = q'.text ∧ q.fragments = q'.fragments ∧ q.conditions = q'.conditions := by
  have hfree : spoofed.FloatFree := by decide
  have hfree' : spoofedApart.FloatFree := by decide
  refine ⟨_, _, rfl, rfl, by decide, rfl, ?_⟩
  exact eq_of_text_compile rfl hfree hfree' rfl rfl rfl

end Cypher

end PropertyGraph
