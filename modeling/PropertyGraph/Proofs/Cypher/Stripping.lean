/-
Values that stand for no condition, in the query for a pattern graph.

They are taken out of each listing before it is merged with the others of its node.
Merging keeps a single value only where nothing else comes, so none of them comes
back; and all other values are kept, as merging loses none.

* **`PatternGraph.stripped`** — a pattern graph without such values;
* **`compile_stripped`** — it has the same query;
* **`not_ignores_of_compile`** — which asks for none of them;
* **`exists_required_of_listed`** — and asks for every other value;
* **`compile_strips`** — all of it together.
-/
import PropertyGraph.Proofs.Cypher.Conditions

namespace PropertyGraph

/-- Being a value or the same as it is a matter of the value; a number that is none is not
the same as itself. -/
theorem Value.respected_eq_or_same (v : Value) : Respected fun w => w = v ∨ w.same v = true := by
  intro w u hwu
  have huw : u.same w = true := same_comm w u ▸ hwu
  constructor
  · rintro (rfl | hwv)
    · exact .inr huw
    · exact .inr (same_trans huw hwv)
  · rintro (rfl | huv)
    · exact .inr hwu
    · exact .inr (same_trans hwu huv)

/-- A property is a single value only if it was that value. -/
theorem Property.eq_of_absorbAll_eq_single {p : Property} {vs : List Value} {v : Value}
    (h : (p.absorbAll vs).1 = .single v) : p = .single v := by
  induction vs generalizing p with
  | nil => exact h
  | cons w vs ih =>
    have hfirst : (p.absorb w).1 = .single v := ih h
    cases p with
    | single u =>
      rw [Property.absorb] at hfirst
      split at hfirst
      · exact hfirst
      · cases hfirst
    | several us => cases hfirst

/-- Properties without those that are ignored. -/
def Properties.stripped (config : MatchConfig) (m : Properties) : Properties where
  entries := m.entries.filter fun e => ¬config.Ignores e.1 e.2
  nodup := m.nodup.sublist (List.filter_sublist.map _)

/-- A pattern graph whose listings have no properties that are ignored. -/
def PatternGraph.stripped (config : MatchConfig) (p : PatternGraph) : PatternGraph :=
  { p with nodes := p.nodes.map fun n => { n with properties := n.properties.stripped config } }

namespace Cypher

variable {config : MatchConfig}

/-! ### Stripping beforehand -/

theorem conditional_eq_stripped (config : MatchConfig) (m : Properties) :
    conditional config m = m.stripped config := by
  refine OrderedMap.ext ((entries_conditional config m).trans (List.filter_congr fun e _ => ?_))
  rw [Bool.eq_iff_iff, Bool.not_eq_true', ← Bool.not_eq_true, isDontCare_iff, decide_eq_true_eq]

theorem constraints_stripped (config : MatchConfig) (p : PatternGraph) :
    constraints config (p.stripped config).nodes = constraints config p.nodes := by
  have hlisting : ∀ (m : OrderedMap NodeId Constraint) (n : PatternNode),
      addListing config m { n with properties := n.properties.stripped config } =
        addListing config m n := by
    intro m n
    have hproperties : conditional config (n.properties.stripped config) =
        conditional config n.properties := by
      rw [← conditional_eq_stripped, conditional_conditional]
    simp only [addListing, hproperties]
    rfl
  show List.foldl _ _ (p.nodes.map _) = _
  rw [List.foldl_map]
  simp only [hlisting]
  rfl

/-- What is ignored may as well not be listed. -/
theorem compile_stripped (config : MatchConfig) (p : PatternGraph) :
    compile config (p.stripped config) = compile config p := by
  rw [compile, constraints_stripped]
  rfl

/-! ### What is asked for -/

/-- Properties in normal form none of which is ignored. -/
def Stripped (config : MatchConfig) (m : Properties) : Prop :=
  m.Normal ∧ ∀ key p, m.get? key = some p → ¬config.Ignores key p

theorem stripped_conditional {m : Properties} (hm : m.Normal) :
    Stripped config (conditional config m) := by
  refine ⟨fun e he => hm e (mem_conditional_iff.1 he).1, fun key p hp => ?_⟩
  exact (mem_conditional_iff.1 (OrderedMap.get?_eq_some_iff.1 hp)).2

/-- A single value of a merged map was one in a map that has been merged. -/
theorem Stripped.merge {a b : Properties} (ha : Stripped config a) (hb : Stripped config b) :
    Stripped config (a.merge b) := by
  refine ⟨ha.1.merge hb.1, fun key p hp hignored => ?_⟩
  rw [Properties.get?_merge ha.1 hb.1] at hp
  split at hp
  · exact hb.2 key p hp hignored
  · next hold _ =>
    cases hp
    exact ha.2 key _ hold hignored
  · next old incoming hold _ =>
    obtain ⟨v, hv, hrule⟩ := hignored
    have hsingle : old = .single v :=
      Property.eq_of_absorbAll_eq_single ((Option.some.inj hp).trans hv)
    exact ha.2 key old hold ⟨v, hsingle, hrule⟩

/-- No condition in a query is ignored. -/
theorem not_ignores_of_compile {p : PatternGraph} {q : Query}
    (hp : ∀ n ∈ p.nodes, n.properties.Normal) (h : compile config p = .ok q) {c : Condition}
    (hc : c ∈ q.conditions ++ q.inlineConditions) : ¬config.Ignores c.key c.property := by
  obtain ⟨id, hid, hon⟩ := (mem_required_iff h).1 hc
  obtain ⟨e, he, rfl⟩ := List.mem_map.1 hon
  have hstripped : Stripped config (constraintOf config p id).properties :=
    forall_constraints (fun _ _ => Stripped.merge) (fun n hn => stripped_conditional (hp n hn))
      id _ (get?_constraints hid)
  exact hstripped.2 e.1 e.2 (OrderedMap.get?_eq_some_iff.2 he)

/-- Every value of a listing that is not ignored is asked for, if perhaps as another one
that is the same. -/
theorem exists_required_of_listed {p : PatternGraph} {q : Query} (h : compile config p = .ok q)
    {n : PatternNode} (hn : n ∈ p.nodes) {e : String × Property} (he : e ∈ n.properties.entries)
    (hkept : ¬config.Ignores e.1 e.2) {v : Value} (hv : v ∈ e.2.values) :
    ∃ c ∈ q.conditions ++ q.inlineConditions, c.name = nodeName config p n.id ∧ c.key = e.1 ∧
      ∃ w ∈ c.property.values, w = v ∨ w.same v = true := by
  have hid : n.id ∈ p.nodes.map PatternNode.id := List.mem_map_of_mem hn
  have hlisted : ∃ w ∈ (conditional config n.properties).valuesAt e.1, w = v ∨ w.same v = true := by
    rw [Properties.valuesAt, OrderedMap.get?_eq_some_iff.2 (mem_conditional_iff.2 ⟨he, hkept⟩)]
    exact ⟨v, hv, .inl rfl⟩
  have hadds := Properties.additive_exists_valuesAt (Value.respected_eq_or_same v) e.1
  obtain ⟨w, hw, hsame⟩ := (constraintOf_iff hadds hid).2 ⟨n, hn, rfl, hlisted⟩
  rw [Properties.valuesAt] at hw
  cases hproperty : (constraintOf config p n.id).properties.get? e.1 with
  | none => simp [hproperty] at hw
  | some property =>
    rw [hproperty] at hw
    have hentry := OrderedMap.get?_eq_some_iff.1 hproperty
    have hrequired := (mem_required_iff h).2 ⟨n.id, hid, List.mem_map_of_mem hentry⟩
    exact ⟨_, hrequired, rfl, rfl, w, hw, hsame⟩

/-- **Values that stand for no condition are left out, and no others.**  Taking them out
of the listings beforehand changes neither the query nor the reason why there is none.
Where the properties of the nodes are single values or lists of different ones, no
condition of a query is a single value that is ignored.  And every other value of a
listing is among those that the query asks for under the variable of the node and the
key, whatever other listings the node has. -/
theorem compile_strips (config : MatchConfig) {p : PatternGraph}
    (hp : ∀ n ∈ p.nodes, n.properties.Normal) :
    compile config (p.stripped config) = compile config p ∧
      ∀ q, compile config p = .ok q →
        (∀ c ∈ q.conditions ++ q.inlineConditions, ¬config.Ignores c.key c.property) ∧
        ∀ n ∈ p.nodes, ∀ e ∈ n.properties.entries, ¬config.Ignores e.1 e.2 →
          ∀ v ∈ e.2.values, ∃ c ∈ q.conditions ++ q.inlineConditions,
            c.name = nodeName config p n.id ∧ c.key = e.1 ∧
              ∃ w ∈ c.property.values, w = v ∨ w.same v = true := by
  refine ⟨compile_stripped config p, fun q h => ⟨?_, ?_⟩⟩
  · exact fun c hc => not_ignores_of_compile hp h hc
  · exact fun n hn e he hkept v hv => exists_required_of_listed h hn he hkept hv

/-- A node in two listings, each with a value that stands for no condition. -/
def listedTwice : PatternGraph where
  nodes := [{ id := .int 1, properties := .ofMembers [("lemma", .text "?"), ("name", .text "a")] },
            { id := .int 1, properties := .ofMembers [("query", .bool true), ("name", .text "b"),
              ("lemma", .text "go")] }]

theorem compile_strips_listedTwice :
    ∃ q, compile {} listedTwice = .ok q ∧
      q.text = "MATCH (n1 \x7bname:[\"a\", \"b\"], lemma:\"go\"\x7d) RETURN *" ∧
      compile {} (listedTwice.stripped {}) = .ok q ∧
      ∃ c ∈ q.conditions ++ q.inlineConditions,
        c.name = nodeName {} listedTwice (.int 1) ∧ c.key = "name" ∧
          ∃ w ∈ c.property.values, w = .text "b" ∨ w.same (.text "b") = true := by
  have hnormal : ∀ n ∈ listedTwice.nodes, n.properties.Normal := by decide
  obtain ⟨hstripped, hall⟩ := compile_strips {} hnormal
  refine ⟨_, rfl, by decide, hstripped, ?_⟩
  exact (hall _ rfl).2 { id := .int 1, properties := .ofMembers [("query", .bool true),
    ("name", .text "b"), ("lemma", .text "go")] } (by decide) ("name", .single (.text "b"))
    (by decide) (by decide) (.text "b") (by decide)

end Cypher

end PropertyGraph
