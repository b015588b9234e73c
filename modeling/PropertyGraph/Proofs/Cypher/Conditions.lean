/-
Properties in place and properties behind the pattern.

A query asks for properties where it names a node, or else in a list of conditions
behind all patterns.  A node may stand in many patterns, and has its properties in
each of them; in the list it has them once.  Both ask for the same, as every listed
node stands in some pattern and has a variable to itself.

* **`Query.inlineConditions`** — what a query asks for in place;
* **`mem_required_iff`** — in place or behind, it is what the constraints of the
  listed nodes say;
* **`compile_withWhere`** — so nothing but the place depends on the setting.
-/
import PropertyGraph.Proofs.Cypher.Fragments
import PropertyGraph.Proofs.Cypher.Patterns

namespace PropertyGraph

/-- The configuration with properties behind the pattern, or in place. -/
def MatchConfig.withWhere (config : MatchConfig) (useWhere : Bool) : MatchConfig :=
  { config with useWhere }

namespace Cypher

variable {config : MatchConfig}

/-! ### What a query asks for -/

/-- The properties of a node pattern, as conditions. -/
def NodePattern.conditions (n : NodePattern) : List Condition :=
  n.properties.map fun e => ⟨n.name, e.1, e.2⟩

/-- The properties in the patterns of a query, as conditions. -/
def Query.inlineConditions (q : Query) : List Condition :=
  (q.fragments.flatMap Fragment.nodes).flatMap NodePattern.conditions

/-- A node pattern without its properties. -/
def NodePattern.bare (n : NodePattern) : NodePattern := { n with properties := [] }

/-- A fragment without the properties in it. -/
def Fragment.bare : Fragment → Fragment
  | path source relation target => .path source.bare relation target.bare
  | node n => .node n.bare

/-- The conditions on a node in the query for a pattern graph. -/
def conditionsOn (config : MatchConfig) (p : PatternGraph) (id : NodeId) : List Condition :=
  (constraintOf config p id).properties.entries.map fun e => ⟨nodeName config p id, e.1, e.2⟩

section

variable {p : PatternGraph} {q : Query}

theorem conditions_matchedBy (config : MatchConfig) (p : PatternGraph) (id : NodeId) :
    (matchedBy config p id).conditions =
      if config.useWhere then [] else conditionsOn config p id := by
  rw [NodePattern.conditions, matchedBy, nodePattern]
  cases config.useWhere <;> rfl

theorem conditions_of_compile (h : compile config p = .ok q) : q.conditions =
    if config.useWhere then
      (appendNew [] (p.nodes.map PatternNode.id)).flatMap (conditionsOn config p)
    else [] := by
  obtain ⟨-, edges, -, rfl⟩ := compile_eq_ok_iff.1 h
  show (if config.useWhere then (constraints config p.nodes).entries.flatMap _ else []) = _
  rw [entries_constraints_eq_map, List.flatMap_map]
  rfl

theorem mem_conditions_iff (h : compile config p = .ok q) {c : Condition} :
    c ∈ q.conditions ↔ config.useWhere = true ∧
      ∃ id ∈ p.nodes.map PatternNode.id, c ∈ conditionsOn config p id := by
  rw [conditions_of_compile h]
  cases config.useWhere <;> simp [mem_appendNew]

/-- What is asked for in place is asked of some node that is listed, and the other way
round, as each of them stands in some pattern. -/
theorem mem_inlineConditions_iff (h : compile config p = .ok q) {c : Condition} :
    c ∈ q.inlineConditions ↔ config.useWhere = false ∧
      ∃ id ∈ p.nodes.map PatternNode.id, c ∈ conditionsOn config p id := by
  rw [Query.inlineConditions, List.mem_flatMap]
  constructor
  · rintro ⟨n, hn, hc⟩
    obtain ⟨f, hf, hn⟩ := List.mem_flatMap.1 hn
    obtain ⟨id, hid, rfl⟩ := exists_matchedBy_of_mem h hf hn
    rw [conditions_matchedBy] at hc
    cases hwhere : config.useWhere with
    | true =>
      rw [hwhere, if_pos rfl] at hc
      exact absurd hc List.not_mem_nil
    | false =>
      rw [hwhere, if_neg Bool.false_ne_true] at hc
      exact ⟨rfl, id, hid, hc⟩
  · rintro ⟨hwhere, id, hid, hc⟩
    obtain ⟨f, hf, hn⟩ := exists_mem_fragments h hid
    refine ⟨_, List.mem_flatMap.2 ⟨f, hf, hn⟩, ?_⟩
    rwa [conditions_matchedBy, hwhere, if_neg Bool.false_ne_true]

/-- **A query asks for what the constraints of the listed nodes say**, in place or
behind the patterns. -/
theorem mem_required_iff (h : compile config p = .ok q) {c : Condition} :
    c ∈ q.conditions ++ q.inlineConditions ↔
      ∃ id ∈ p.nodes.map PatternNode.id, c ∈ conditionsOn config p id := by
  rw [List.mem_append, mem_conditions_iff h, mem_inlineConditions_iff h]
  cases config.useWhere <;> simp

/-! ### Nothing is asked twice -/

/-- The conditions on all nodes have a variable and a key to themselves. -/
theorem nodup_conditionsOn (config : MatchConfig) (p : PatternGraph) :
    (((appendNew [] (p.nodes.map PatternNode.id)).flatMap (conditionsOn config p)).map
      fun c => (c.name, c.key)).Nodup := by
  have hname : ∀ {id pair}, pair ∈ (conditionsOn config p id).map (fun c => (c.name, c.key)) →
      pair.1 = nodeName config p id := by
    intro id pair hpair
    rw [conditionsOn, List.map_map] at hpair
    obtain ⟨e, -, rfl⟩ := List.mem_map.1 hpair
    rfl
  have hlisted : ∀ {id}, id ∈ appendNew [] (p.nodes.map PatternNode.id) →
      id ∈ p.nodes.map PatternNode.id := fun hid =>
    (mem_appendNew.1 hid).resolve_left List.not_mem_nil
  rw [List.map_flatMap, List.nodup_flatMap]
  constructor
  · -- On one node, the keys are those of a map.
    intro id _
    have hkeys : (constraintOf config p id).properties.keys.Nodup :=
      (constraintOf config p id).properties.nodup
    have hpairs : (conditionsOn config p id).map (fun c => (c.name, c.key)) =
        (constraintOf config p id).properties.keys.map (Prod.mk (nodeName config p id)) := by
      rw [conditionsOn, OrderedMap.keys, List.map_map, List.map_map]
      rfl
    rw [hpairs]
    exact hkeys.map fun _ _ h => (Prod.mk.inj h).2
  · -- Two nodes have different variables.
    refine (nodup_appendNew List.nodup_nil).imp_of_mem fun {id id'} hid hid' hne => ?_
    intro pair hpair hpair'
    have hsame := (hname hpair).symm.trans (hname hpair')
    exact hne ((nodeName_inj (hlisted hid) (hlisted hid')).1 hsame)

theorem nodup_conditions (h : compile config p = .ok q) :
    (q.conditions.map fun c => (c.name, c.key)).Nodup := by
  rw [conditions_of_compile h]
  split
  · exact nodup_conditionsOn config p
  · exact List.nodup_nil

/-- A condition is told by its text, as far as its variable and its key go. -/
theorem nodup_conditionTexts (h : compile config p = .ok q) :
    (q.conditions.map Condition.text).Nodup := by
  have hpairs := nodup_conditions h
  refine (List.Nodup.of_map _ hpairs).map_on fun c hc c' hc' htext => ?_
  obtain ⟨hname, hkey, -⟩ := of_condition_text_eq (s := []) (t := [])
    (congrArg (fun text : String => text.toList ++ []) htext)
  exact List.inj_on_of_nodup_map hpairs hc hc' (Prod.ext hname hkey)

/-! ### No condition at all -/

/-- There is no condition just if all properties of all listings stand for none. -/
theorem conditions_eq_nil_iff (h : compile config p = .ok q) (hwhere : config.useWhere = true) :
    q.conditions = [] ↔ ∀ n ∈ p.nodes, ∀ e ∈ n.properties.entries, config.Ignores e.1 e.2 := by
  rw [List.eq_nil_iff_forall_not_mem]
  constructor
  · intro hnone n hn e he
    by_contra hkept
    have hid : n.id ∈ p.nodes.map PatternNode.id := List.mem_map_of_mem hn
    have hkey : e.1 ∈ (constraintOf config p n.id).properties.keys :=
      (mem_keys_constraintOf_iff hid).2 ⟨n, hn, rfl, e, he, rfl, hkept⟩
    obtain ⟨entry, hentry, -⟩ := List.mem_map.1 hkey
    exact hnone _ ((mem_conditions_iff h).2 ⟨hwhere, n.id, hid, List.mem_map_of_mem hentry⟩)
  · intro hall c hc
    obtain ⟨-, id, hid, hon⟩ := (mem_conditions_iff h).1 hc
    obtain ⟨entry, hentry, rfl⟩ := List.mem_map.1 hon
    obtain ⟨n, hn, -, e, he, -, hkept⟩ :=
      (mem_keys_constraintOf_iff hid).1 (List.mem_map_of_mem hentry)
    exact hkept (hall n hn e he)

end

theorem conditionsText_eq_empty_iff {conditions : List Condition} :
    conditionsText conditions = "" ↔ conditions = [] := by
  cases conditions with
  | nil => exact iff_of_true rfl rfl
  | cons c conditions =>
    refine iff_of_false (fun h => ?_) (List.cons_ne_nil c conditions)
    have hlength := congrArg String.length h
    rw [conditionsText, List.isEmpty_cons, if_neg Bool.false_ne_true, String.length_append]
      at hlength
    exact absurd (Nat.eq_zero_of_add_eq_zero_right hlength) (by decide)

/-- A query has the text that it has without conditions just if it has none. -/
theorem text_without_conditions_iff {q : Query} :
    q.text = { q with conditions := [] }.text ↔ q.conditions = [] := by
  have htext : ∀ conditions, { q with conditions }.text =
      "MATCH " ++ ", ".intercalate (q.fragments.map Fragment.text) ++ conditionsText conditions ++
        " RETURN " ++ if q.returns.isEmpty then "*" else ", ".intercalate q.returns :=
    fun _ => rfl
  have hnone : conditionsText [] = "" := rfl
  rw [← conditionsText_eq_empty_iff, htext [], hnone]
  refine (Eq.congr_left (htext q.conditions)).trans ?_
  rw [String.append_left_inj, String.append_left_inj, String.append_right_inj]

/-! ### The place of conditions -/

section

variable (config : MatchConfig) (useWhere : Bool)

theorem constraintOf_withWhere (p : PatternGraph) (id : NodeId) :
    constraintOf (config.withWhere useWhere) p id = constraintOf config p id := rfl

theorem assignFrom_withWhere (assigned : List (NodeId × String)) (ids : List NodeId) :
    assignFrom (config.withWhere useWhere) assigned ids = assignFrom config assigned ids := by
  induction ids generalizing assigned with
  | nil => rfl
  | cons id ids ih => exact ih _

/-- The variables of nodes do not depend on the place of properties. -/
theorem nodeName_withWhere (p : PatternGraph) (id : NodeId) :
    nodeName (config.withWhere useWhere) p id = nodeName config p id := by
  rw [nodeName, nodeName, assignVariables, assignFrom_withWhere]
  rfl

theorem conditionsOn_withWhere (p : PatternGraph) (id : NodeId) :
    conditionsOn (config.withWhere useWhere) p id = conditionsOn config p id := by
  rw [conditionsOn, constraintOf_withWhere, nodeName_withWhere]
  rfl

theorem matchedBy_withWhere (p : PatternGraph) (id : NodeId) :
    matchedBy (config.withWhere true) p id = (matchedBy (config.withWhere false) p id).bare := by
  rw [matchedBy, matchedBy, nodeName_withWhere, nodeName_withWhere]
  rfl

theorem pathOf_withWhere (p : PatternGraph) (e : PatternEdge × Nat) :
    pathOf (config.withWhere true) p e = (pathOf (config.withWhere false) p e).bare := by
  rw [pathOf, matchedBy_withWhere, matchedBy_withWhere]
  rfl

end

/-- One query asks in place for what another asks for behind its patterns. -/
structure MovesConditions (q q' : Query) : Prop where
  /-- Nothing is behind the patterns of the one. -/
  inline : q.conditions = []
  /-- The patterns of the other are those of the one without properties. -/
  fragments : q'.fragments = q.fragments.map Fragment.bare
  /-- Both ask for the same of the same variables. -/
  conditions : ∀ c, c ∈ q'.conditions ↔ c ∈ q.inlineConditions
  /-- The other asks once for each key of a variable. -/
  nodup : (q'.conditions.map fun c => (c.name, c.key)).Nodup
  texts_nodup : (q'.conditions.map Condition.text).Nodup
  returns : q'.returns = q.returns

theorem movesConditions_of_compile {p : PatternGraph} {q q' : Query}
    (h : compile (config.withWhere false) p = .ok q)
    (h' : compile (config.withWhere true) p = .ok q') : MovesConditions q q' where
  inline := by
    rw [conditions_of_compile h]
    rfl
  fragments := by
    have hpaths : pathOf (config.withWhere true) p =
        Fragment.bare ∘ pathOf (config.withWhere false) p := funext (pathOf_withWhere config p)
    have hnodes : (fun id => Fragment.node (matchedBy (config.withWhere true) p id)) =
        Fragment.bare ∘ fun id => .node (matchedBy (config.withWhere false) p id) :=
      funext fun id => congrArg Fragment.node (matchedBy_withWhere config p id)
    rw [fragments_of_compile h, fragments_of_compile h', hpaths, hnodes, List.map_append,
      List.map_map, List.map_map]
  conditions c := by
    rw [mem_conditions_iff h', mem_inlineConditions_iff h]
    simp only [conditionsOn_withWhere]
    exact ⟨fun hc => ⟨rfl, hc.2⟩, fun hc => ⟨rfl, hc.2⟩⟩
  nodup := nodup_conditions h'
  texts_nodup := nodup_conditionTexts h'
  returns := by
    obtain ⟨-, _, -, rfl⟩ := compile_eq_ok_iff.1 h
    obtain ⟨-, _, -, rfl⟩ := compile_eq_ok_iff.1 h'
    rfl

/-- **Properties in place and properties behind the pattern are the same.**  Compiling
fails for the same reasons in both settings.  Where it does not, the list behind the
patterns has just the conditions that stand in place, and each of them once; the
patterns are those of the other query without their properties; and the list is left
out just if every property of every listing stands for no condition. -/
theorem compile_withWhere (config : MatchConfig) (p : PatternGraph) :
    (∀ fault, compile (config.withWhere false) p = .error fault ↔
        compile (config.withWhere true) p = .error fault) ∧
      ((∃ q, compile (config.withWhere false) p = .ok q) ↔
        ∃ q', compile (config.withWhere true) p = .ok q') ∧
      ∀ q q', compile (config.withWhere false) p = .ok q →
        compile (config.withWhere true) p = .ok q' →
          MovesConditions q q' ∧
            (q'.text = { q' with conditions := [] }.text ↔
              ∀ n ∈ p.nodes, ∀ e ∈ n.properties.entries, config.Ignores e.1 e.2) := by
  refine ⟨fun fault => ?_, ?_, fun q q' h h' => ⟨movesConditions_of_compile h h', ?_⟩⟩
  · rw [compile_eq_error_iff, compile_eq_error_iff]
  · rw [exists_compile_iff, exists_compile_iff]
  · have hnone := conditions_eq_nil_iff h' rfl
    exact text_without_conditions_iff.trans hnone

/-- A node at the ends of two edges. -/
def atTwoEdges : PatternGraph where
  nodes := [{ id := .int 1, properties := .ofMembers [("name", .text "a")] }, { id := .int 2 }]
  edges := [⟨⟨.int 1, "R", .int 2⟩, .empty⟩, ⟨⟨.int 2, "S", .int 1⟩, .empty⟩]

/-- In place, its property stands twice. -/
example : (compile (MatchConfig.withWhere {} false) atTwoEdges).map Query.text =
    .ok ("MATCH (n1 \x7bname:\"a\"\x7d)-[r1:R]->(n2), (n2)-[r2:S]->(n1 \x7bname:\"a\"\x7d)" ++
      " RETURN *") := by decide

/-- Behind the patterns, it stands once. -/
example : (compile (MatchConfig.withWhere {} true) atTwoEdges).map Query.text =
    .ok "MATCH (n1)-[r1:R]->(n2), (n2)-[r2:S]->(n1) WHERE n1.name = \"a\" RETURN *" := by decide

end Cypher

end PropertyGraph
