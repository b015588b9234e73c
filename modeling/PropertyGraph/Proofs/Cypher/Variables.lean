/-
Whether the variables of nodes and of relationships are kept apart.

A variable is a prefix with an id or with the number of an edge behind it, and an
id may be any text.  Two prefixes that differ can still meet: one that the other
begins with leaves room for an id that makes up for the rest.

* **`PrefixesMeet`** — the prefixes that some id and some number take to the same
  variable;
* **`namesApart_iff`** — these and no others let a query use one variable twice;
* **`not_namesApart_of_numberedPrefix`** — the settings do not rule them out.
-/
import PropertyGraph.Config.Basic
import PropertyGraph.Proofs.Cypher.Compiling
import PropertyGraph.Proofs.Text.Numeral

namespace PropertyGraph.Cypher

variable {config : MatchConfig}

/-! ### The variables of a query -/

/-- The variables of nodes, those in conditions included. -/
def Query.nodeNames (q : Query) : List String :=
  (q.fragments.flatMap Fragment.nodes).map NodePattern.name ++ q.conditions.map Condition.name

/-- The variables of relationships. -/
def Query.relationNames (q : Query) : List String :=
  (q.fragments.flatMap Fragment.relations).map RelationPattern.name

/-- No variable stands for a node and for a relationship. -/
def Query.NamesApart (q : Query) : Prop := ∀ name ∈ q.nodeNames, name ∉ q.relationNames

instance (q : Query) : Decidable q.NamesApart := inferInstanceAs (Decidable (∀ _ ∈ _, _))

/-- The prefix of relationships begins with that of nodes, or the other way round
and what is left over could begin a number. -/
def PrefixesMeet (config : MatchConfig) : Prop :=
  let node := config.nodePrefix.toList
  let relation := config.relationPrefix.toList
  node <+: relation ∨
    ∃ digits, node = relation ++ digits ∧ digits.all Char.isDigit = true ∧
      digits.head? ≠ some '0'

theorem name_of_mem_nodeNames {p : PatternGraph} {q : Query} (h : compile config p = .ok q)
    {name : String} (hname : name ∈ q.nodeNames) : ∃ s, name = config.nodePrefix ++ s := by
  have hvariable : ∀ id ∈ (constraints config p.nodes).keys,
      ∃ s, variableOf (assignVariables config (constraints config p.nodes).keys) id =
        config.nodePrefix ++ s := fun id hid => by
    obtain ⟨s, hs⟩ := variableOf_eq_append config hid
    exact ⟨id.display ++ s, hs.trans String.append_assoc⟩
  obtain hpattern | hcondition := List.mem_append.1 hname
  · obtain ⟨n, hn, rfl⟩ := List.mem_map.1 hpattern
    obtain ⟨f, hf, hn⟩ := List.mem_flatMap.1 hn
    obtain ⟨id, hid⟩ := mem_nodes_of_compile h hf hn
    obtain ⟨c, hc, rfl⟩ := get?_nodePatterns.1 hid
    exact hvariable id (List.mem_map_of_mem (OrderedMap.get?_eq_some_iff.1 hc))
  · obtain ⟨c, hc, rfl⟩ := List.mem_map.1 hcondition
    obtain ⟨-, edges, -, rfl⟩ := compile_eq_ok_iff.1 h
    dsimp only at hc
    split at hc
    · obtain ⟨e, he, hc⟩ := List.mem_flatMap.1 hc
      obtain ⟨entry, -, rfl⟩ := List.mem_map.1 hc
      exact hvariable e.1 (List.mem_map_of_mem he)
    · exact absurd hc List.not_mem_nil

theorem name_of_mem_relationNames {p : PatternGraph} {q : Query} (h : compile config p = .ok q)
    {name : String} (hname : name ∈ q.relationNames) :
    ∃ number, name = config.relationPrefix ++ toString (number + 1) := by
  obtain ⟨r, hr, rfl⟩ := List.mem_map.1 hname
  obtain ⟨f, hf, hr⟩ := List.mem_flatMap.1 hr
  obtain ⟨e, he, rfl⟩ := mem_relations_of_compile h hf hr
  have hpos : 1 ≤ e.2 := (List.mem_zipIdx he).1
  refine ⟨e.2 - 1, ?_⟩
  rw [Nat.sub_add_cancel hpos]
  rfl

/-! ### Prefixes that do not meet -/

theorem append_ne_of_not_prefixesMeet (h : ¬PrefixesMeet config) (s : String) (number : Nat) :
    config.nodePrefix ++ s ≠ config.relationPrefix ++ toString (number + 1) := by
  intro heq
  rw [← String.toList_inj, String.toList_append, String.toList_append,
    Text.toList_toString_nat] at heq
  -- Both prefixes begin the variable, so one of them begins with the other.
  obtain hnode | ⟨rest, hrest⟩ := List.prefix_or_prefix_of_prefix
    (List.prefix_append config.nodePrefix.toList s.toList)
    (heq ▸ List.prefix_append config.relationPrefix.toList (Nat.toDigits 10 (number + 1)))
  · exact h (.inl hnode)
  · -- What is left over begins the digits of the number.
    rw [← hrest, List.append_assoc, List.append_cancel_left_eq] at heq
    have hdigits := Text.all_isDigit_toDigits (number + 1)
    rw [← heq, List.all_append, Bool.and_eq_true] at hdigits
    refine h (.inr ⟨rest, hrest.symm, hdigits.1, fun hzero => ?_⟩)
    have hhead := Text.head?_toDigits_ne (Nat.succ_pos number)
    rw [← heq, List.head?_append, hzero] at hhead
    exact hhead rfl

theorem namesApart_of_not_prefixesMeet (h : ¬PrefixesMeet config) {p : PatternGraph} {q : Query}
    (hq : compile config p = .ok q) : q.NamesApart := by
  intro name hnode hrelation
  obtain ⟨s, hs⟩ := name_of_mem_nodeNames hq hnode
  obtain ⟨number, hnumber⟩ := name_of_mem_relationNames hq hrelation
  exact append_ne_of_not_prefixesMeet h s number (hs.symm.trans hnumber)

/-! ### Prefixes that meet -/

/-- A single node with edges to itself. -/
def looped (id : NodeId) (edges : Nat) : PatternGraph :=
  { nodes := [{ id }], edges := List.replicate edges ⟨⟨id, "", id⟩, .empty⟩ }

theorem get?_nodePatterns_looped (config : MatchConfig) (id : NodeId) (edges : Nat) :
    (nodePatterns config (constraints config (looped id edges).nodes)).get? id =
      some (nodePattern config (config.nodePrefix ++ id.display) ⟨[], .empty⟩) := by
  have hm : constraints config (looped id edges).nodes =
      OrderedMap.insert .empty id ⟨[], .empty⟩ := by rfl
  have hkeys : (constraints config (looped id edges).nodes).keys = [id] := by
    rw [hm, OrderedMap.keys_insert]
    rfl
  have hvariable : variableOf (assignVariables config [id]) id =
      config.nodePrefix ++ id.display := by
    simp [assignVariables, assignFrom, freshName, variableOf]
  refine get?_nodePatterns.2 ⟨⟨[], .empty⟩, ?_, ?_⟩
  · rw [hm, OrderedMap.get?_insert, if_pos rfl]
  · rw [hkeys, hvariable]

/-- The node has the plain variable, and the last edge has the last number. -/
theorem exists_compile_looped (config : MatchConfig) (id : NodeId) (edges : Nat) :
    ∃ q, compile config (looped id (edges + 1)) = .ok q ∧
      config.nodePrefix ++ id.display ∈ q.nodeNames ∧
      config.relationPrefix ++ toString (edges + 1) ∈ q.relationNames := by
  let p := looped id (edges + 1)
  let patterns := nodePatterns config (constraints config p.nodes)
  let pattern := nodePattern config (config.nodePrefix ++ id.display) ⟨[], .empty⟩
  let loop : PatternEdge := ⟨⟨id, "", id⟩, .empty⟩
  have hpattern : patterns.get? id = some pattern := get?_nodePatterns_looped config id (edges + 1)
  let pathOf : PatternEdge × Nat → Fragment := fun e =>
    .path pattern (relationPattern config e.2 e.1) pattern
  have hpaths : paths config patterns 1 p.edges = .ok ((p.edges.zipIdx 1).map pathOf) := by
    rw [paths_eq_ok_iff, List.forall₂_map_right_iff]
    refine List.forall₂_same.2 fun e he => ?_
    obtain hloop : e.1 = loop := List.eq_of_mem_replicate (List.fst_mem_of_mem_zipIdx he)
    have hend : patterns.get? e.1.key.start = some pattern ∧
        patterns.get? e.1.key.finish = some pattern := by rw [hloop]; exact ⟨hpattern, hpattern⟩
    exact ⟨pattern, pattern, hend.1, hend.2, rfl⟩
  have hlast : (loop, edges + 1) ∈ p.edges.zipIdx 1 := by
    rw [List.mk_mem_zipIdx_iff_le_and_getElem?_sub]
    exact ⟨Nat.le_add_left 1 edges, List.getElem?_replicate_of_lt (Nat.lt_succ_self edges)⟩
  have hpath : pathOf (loop, edges + 1) ∈
      (p.edges.zipIdx 1).map pathOf ++ loneNodes patterns p.edges :=
    List.mem_append_left _ (List.mem_map_of_mem hlast)
  refine ⟨_, compile_eq_ok_iff.2 ⟨rfl, _, hpaths, rfl⟩, ?_, ?_⟩
  · refine List.mem_append_left _ (List.mem_map.2 ⟨pattern, ?_, rfl⟩)
    exact List.mem_flatMap.2 ⟨_, hpath, List.mem_cons_self⟩
  · refine List.mem_map.2 ⟨relationPattern config (edges + 1) loop, ?_, rfl⟩
    exact List.mem_flatMap.2 ⟨_, hpath, List.mem_cons_self⟩

theorem exists_not_namesApart (h : PrefixesMeet config) :
    ∃ p q, compile config p = .ok q ∧ ¬q.NamesApart := by
  -- It takes an id and a number whose texts make up for the rest of a prefix.
  suffices ∃ (id : NodeId) (edges : Nat), config.nodePrefix ++ id.display =
      config.relationPrefix ++ toString (edges + 1) by
    obtain ⟨id, edges, hsame⟩ := this
    obtain ⟨q, hq, hnode, hrelation⟩ := exists_compile_looped config id edges
    exact ⟨_, q, hq, fun hapart => hapart _ hnode (hsame ▸ hrelation)⟩
  have hlonger : config.nodePrefix.toList <+: config.relationPrefix.toList →
      ∃ (id : NodeId) (edges : Nat), config.nodePrefix ++ id.display =
        config.relationPrefix ++ toString (edges + 1) := by
    rintro ⟨rest, hrest⟩
    refine ⟨.text (String.ofList rest ++ "1"), 0, ?_⟩
    rw [← String.toList_inj, String.toList_append, String.toList_append, ← hrest,
      NodeId.display, String.toList_append, String.toList_ofList, List.append_assoc]
    rfl
  obtain hnode | ⟨digits, hdigits, hall, hzero⟩ := h
  · exact hlonger hnode
  · by_cases hne : digits = []
    · exact hlonger ⟨[], by rw [hdigits, hne, List.append_nil, List.append_nil]⟩
    · have hvalue := Text.toDigits_digitsValue hne hall hzero
      have hpos : Text.digitsValue 0 digits ≠ 0 := by
        intro h0
        rw [h0] at hvalue
        exact hzero (hvalue ▸ rfl)
      refine ⟨.text "", Text.digitsValue 0 digits - 1, ?_⟩
      rw [← String.toList_inj, String.toList_append, String.toList_append,
        Text.toList_toString_nat, Nat.sub_add_cancel (by omega), hvalue, hdigits]
      exact List.append_nil _

/-- **The variables of nodes and relationships are kept apart** in all queries,
exactly if the prefixes do not meet. -/
theorem namesApart_iff (config : MatchConfig) :
    (∀ p q, compile config p = .ok q → q.NamesApart) ↔ ¬PrefixesMeet config := by
  constructor
  · intro hapart hmeet
    obtain ⟨p, q, hq, hnot⟩ := exists_not_namesApart hmeet
    exact hnot (hapart p q hq)
  · exact fun h p q => namesApart_of_not_prefixesMeet h

/-- Prefixes that pass for different, though one begins with the other. -/
def numberedPrefix : Config := { matching := { relationPrefix := "n1" } }

/-- An id with the number of the edge at its end. -/
def likeAnEdge : PatternGraph :=
  { nodes := [{ id := .int 11 }], edges := [⟨⟨.int 11, "REL", .int 11⟩, .empty⟩] }

theorem not_namesApart_of_numberedPrefix :
    numberedPrefix.fault? = none ∧
      ∃ q, compile numberedPrefix.matching likeAnEdge = .ok q ∧
        q.text = "MATCH (n11)-[n11:REL]->(n11) RETURN *" ∧ ¬q.NamesApart := by
  refine ⟨by decide, _, rfl, by decide, by decide⟩

end PropertyGraph.Cypher
