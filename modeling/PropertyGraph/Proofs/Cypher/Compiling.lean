/-
What a compiled query consists of.

A query has one path for every edge, in order, between the patterns of its ends,
and then the pattern of every node that no edge names.  The variables of nodes
are the first prefix and something behind it, those of relationships the second
prefix and the number of their edge.

* **`compile_eq_ok_iff`**, **`paths_eq_ok_iff`** — when compiling succeeds, and
  with which query;
* **`variableOf_eq_append`** — the variable of a listed node;
* **`mem_nodes_of_compile`**, **`mem_relations_of_compile`** — where the patterns
  in a compiled query come from.
-/
import Mathlib.Data.List.Forall2
import PropertyGraph.Cypher.Matching

namespace PropertyGraph.Cypher

variable {config : MatchConfig}

/-! ### Success -/

theorem bind_eq_ok_iff {ε α β : Type} {x : Except ε α} {f : α → Except ε β} {b : β} :
    x >>= f = .ok b ↔ ∃ a, x = .ok a ∧ f a = .ok b := by
  cases x <;> simp [bind, Except.bind]

theorem endPattern_eq_ok_iff {patterns : OrderedMap NodeId NodePattern} {edge : EdgeKey}
    {id : NodeId} {p : NodePattern} :
    endPattern patterns edge id = .ok p ↔ patterns.get? id = some p := by
  rw [endPattern]
  cases patterns.get? id <;> simp

/-- A fragment is the path of a numbered edge between the patterns of its
ends. -/
def IsPath (config : MatchConfig) (patterns : OrderedMap NodeId NodePattern)
    (e : PatternEdge × Nat) (f : Fragment) : Prop :=
  ∃ source target, patterns.get? e.1.key.start = some source ∧
    patterns.get? e.1.key.finish = some target ∧
    f = .path source (relationPattern config e.2 e.1) target

/-- The paths of edges are one path for each, in order. -/
theorem paths_eq_ok_iff {patterns : OrderedMap NodeId NodePattern} {number : Nat}
    {edges : List PatternEdge} {fragments : List Fragment} :
    paths config patterns number edges = .ok fragments ↔
      List.Forall₂ (IsPath config patterns) (edges.zipIdx number) fragments := by
  induction edges generalizing number fragments with
  | nil => rw [paths, Except.ok.injEq, List.zipIdx_nil, List.forall₂_nil_left_iff, eq_comm]
  | cons e edges ih =>
    rw [paths, List.zipIdx_cons, List.forall₂_cons_left_iff]
    simp only [bind_eq_ok_iff, endPattern_eq_ok_iff, ih]
    constructor
    · rintro ⟨source, hsource, target, htarget, rest, hrest, h⟩
      cases h
      exact ⟨_, rest, ⟨source, target, hsource, htarget, rfl⟩, hrest, rfl⟩
    · rintro ⟨f, rest, ⟨source, target, hsource, htarget, rfl⟩, hrest, rfl⟩
      exact ⟨source, hsource, target, htarget, rest, hrest, rfl⟩

theorem compile_eq_ok_iff {p : PatternGraph} {q : Query} :
    let m := constraints config p.nodes
    let patterns := nodePatterns config m
    compile config p = .ok q ↔ m.isEmpty = false ∧
      ∃ edges, paths config patterns 1 p.edges = .ok edges ∧
        q = { fragments := edges ++ loneNodes patterns p.edges
              conditions := if config.useWhere then conditionsOf config m else []
              returns := config.returns } := by
  intro m patterns
  rw [compile]
  cases hm : (constraints config p.nodes).isEmpty with
  | true => simp [m, bind, Except.bind, throw, throwThe, MonadExceptOf.throw]
  | false =>
    simp only [m, true_and]
    refine bind_eq_ok_iff.trans (exists_congr fun edges => and_congr_right fun _ => ?_)
    exact ⟨fun h => (Except.ok.inj h).symm, fun h => congrArg Except.ok h.symm⟩

/-! ### The variables of nodes -/

theorem exists_freshName (taken : List String) (name : String) :
    ∃ s, freshName taken name = name ++ s := by
  rw [freshName]
  split
  · cases hfound : (((List.range taken.length).map fun i => name ++ "_" ++ toString (i + 2)).find?
        fun candidate => candidate ∉ taken) with
    | none => exact ⟨"", String.append_empty.symm⟩
    | some candidate =>
      obtain ⟨i, -, rfl⟩ := List.mem_map.1 (List.mem_of_find?_eq_some hfound)
      exact ⟨"_" ++ toString (i + 2), String.append_assoc⟩
  · exact ⟨"", String.append_empty.symm⟩

theorem map_fst_assignFrom (assigned : List (NodeId × String)) (ids : List NodeId) :
    (assignFrom config assigned ids).map Prod.fst = assigned.map Prod.fst ++ ids := by
  induction ids generalizing assigned with
  | nil => rw [assignFrom, List.append_nil]
  | cons id ids ih => rw [assignFrom, ih, List.map_append, List.append_assoc]; rfl

theorem mem_assignFrom {assigned : List (NodeId × String)} {ids : List NodeId}
    {e : NodeId × String} (he : e ∈ assignFrom config assigned ids) :
    e ∈ assigned ∨ ∃ s, e.2 = config.nodePrefix ++ e.1.display ++ s := by
  induction ids generalizing assigned with
  | nil => exact .inl he
  | cons id ids ih =>
    obtain hold | hnew := ih he
    · obtain h | h := List.mem_append.1 hold
      · exact .inl h
      · obtain rfl := List.mem_singleton.1 h
        exact .inr (exists_freshName _ _)
    · exact .inr hnew

/-- Every listed node is assigned its variable. -/
theorem mem_assignVariables (config : MatchConfig) {ids : List NodeId} {id : NodeId}
    (hid : id ∈ ids) :
    (id, variableOf (assignVariables config ids) id) ∈ assignVariables config ids := by
  have hkey : id ∈ (assignVariables config ids).map Prod.fst := by
    rw [assignVariables, map_fst_assignFrom]
    exact hid
  obtain ⟨e, hmem, rfl⟩ := List.mem_map.1 hkey
  obtain ⟨found, hfound⟩ := Option.isSome_iff_exists.1
    (List.find?_isSome.2 ⟨e, hmem, decide_eq_true rfl⟩ :
      ((assignVariables config ids).find? fun e' => e'.1 = e.1).isSome = true)
  have hname : found.1 = e.1 := by simpa using List.find?_some hfound
  rw [variableOf, hfound, Option.map_some, Option.getD_some, ← hname]
  exact List.mem_of_find?_eq_some hfound

/-- The variable of a listed node is the prefix, the id, and something that keeps
it apart. -/
theorem variableOf_eq_append (config : MatchConfig) {ids : List NodeId} {id : NodeId}
    (hid : id ∈ ids) :
    ∃ s, variableOf (assignVariables config ids) id = config.nodePrefix ++ id.display ++ s :=
  (mem_assignFrom (mem_assignVariables config hid)).resolve_left List.not_mem_nil

/-! ### The patterns in a query -/

/-- The node patterns in a fragment. -/
def Fragment.nodes : Fragment → List NodePattern
  | path source _ target => [source, target]
  | node p => [p]

/-- The relationship patterns in a fragment. -/
def Fragment.relations : Fragment → List RelationPattern
  | path _ relation _ => [relation]
  | node _ => []

theorem get?_nodePatterns {m : OrderedMap NodeId Constraint} {id : NodeId} {p : NodePattern} :
    (nodePatterns config m).get? id = some p ↔
      ∃ c, m.get? id = some c ∧
        nodePattern config (variableOf (assignVariables config m.keys) id) c = p := by
  rw [nodePatterns, OrderedMap.get?_mapValues, Option.map_eq_some_iff]

theorem exists_of_forall₂ {α β : Type} {R : α → β → Prop} {l : List α} {l' : List β}
    (h : List.Forall₂ R l l') {b : β} (hb : b ∈ l') : ∃ a ∈ l, R a b := by
  induction h with
  | nil => exact absurd hb List.not_mem_nil
  | cons hab _ ih =>
    obtain rfl | hb := List.mem_cons.1 hb
    · exact ⟨_, List.mem_cons_self, hab⟩
    · obtain ⟨a, ha, hab⟩ := ih hb
      exact ⟨a, List.mem_cons_of_mem _ ha, hab⟩

/-- Every node pattern in a compiled query is the one of a listed node. -/
theorem mem_nodes_of_compile {p : PatternGraph} {q : Query} (h : compile config p = .ok q)
    {f : Fragment} (hf : f ∈ q.fragments) {n : NodePattern} (hn : n ∈ f.nodes) :
    ∃ id, (nodePatterns config (constraints config p.nodes)).get? id = some n := by
  obtain ⟨-, edges, hedges, rfl⟩ := compile_eq_ok_iff.1 h
  obtain hf | hf := List.mem_append.1 hf
  · obtain ⟨e, -, source, target, hsource, htarget, rfl⟩ :=
      exists_of_forall₂ (paths_eq_ok_iff.1 hedges) hf
    obtain rfl | hn := List.mem_cons.1 hn
    · exact ⟨_, hsource⟩
    · obtain rfl := List.mem_singleton.1 hn
      exact ⟨_, htarget⟩
  · obtain ⟨e, he, rfl⟩ := List.mem_map.1 hf
    obtain rfl := List.mem_singleton.1 hn
    exact ⟨e.1, OrderedMap.get?_eq_some_iff.2 (List.mem_filter.1 he).1⟩

/-- Every relationship pattern in a compiled query is the one of an edge under
its number. -/
theorem mem_relations_of_compile {p : PatternGraph} {q : Query} (h : compile config p = .ok q)
    {f : Fragment} (hf : f ∈ q.fragments) {r : RelationPattern} (hr : r ∈ f.relations) :
    ∃ e ∈ p.edges.zipIdx 1, r = relationPattern config e.2 e.1 := by
  obtain ⟨-, edges, hedges, rfl⟩ := compile_eq_ok_iff.1 h
  obtain hf | hf := List.mem_append.1 hf
  · obtain ⟨e, he, source, target, -, -, rfl⟩ :=
      exists_of_forall₂ (paths_eq_ok_iff.1 hedges) hf
    exact ⟨e, he, List.mem_singleton.1 hr⟩
  · obtain ⟨e, -, rfl⟩ := List.mem_map.1 hf
    exact absurd hr List.not_mem_nil

end PropertyGraph.Cypher
