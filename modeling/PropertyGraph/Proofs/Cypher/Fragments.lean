/-
What compiling fails for, and what a compiled query is made of.

Compiling looks for the nodes first and then for the ends of the edges one after
the other, so it fails for the first end that is missing.  If it does not fail,
every fragment is made of the patterns of listed nodes, and there is one pattern
for each node, wherever it stands.

* **`FirstDangling`**, **`compile_eq_error_iff`** — what compiling fails for;
* **`matchedBy`** — the pattern of a node in the query for a pattern graph;
* **`fragments_of_compile`** — the fragments of a query, written out;
* **`compile_covers`** — all of it together: every listed node is matched, and all
  that has one variable is one pattern.
-/
import PropertyGraph.Proofs.Cypher.Listings
import PropertyGraph.Proofs.Cypher.Naming
import PropertyGraph.Proofs.Graph.Moves

namespace PropertyGraph

namespace EdgeKey

variable {ids : List NodeId} {edge : EdgeKey} {missing missing' : NodeId}

/-- Both ends of an edge are among nodes. -/
def EndsIn (ids : List NodeId) (edge : EdgeKey) : Prop := edge.start ∈ ids ∧ edge.finish ∈ ids

/-- An end of an edge is not among nodes, and is its start if neither is. -/
def Misses (ids : List NodeId) (edge : EdgeKey) (missing : NodeId) : Prop :=
  missing ∉ ids ∧ (missing = edge.start ∨ edge.start ∈ ids ∧ missing = edge.finish)

theorem endsIn_or_misses (ids : List NodeId) (edge : EdgeKey) :
    edge.EndsIn ids ∨ ∃ missing, edge.Misses ids missing := by
  by_cases hstart : edge.start ∈ ids
  · by_cases hfinish : edge.finish ∈ ids
    · exact .inl ⟨hstart, hfinish⟩
    · exact .inr ⟨_, hfinish, .inr ⟨hstart, rfl⟩⟩
  · exact .inr ⟨_, hstart, .inl rfl⟩

theorem Misses.not_endsIn (h : edge.Misses ids missing) : ¬edge.EndsIn ids := by
  rintro ⟨hstart, hfinish⟩
  obtain ⟨hmissing, rfl | ⟨-, rfl⟩⟩ := h
  · exact hmissing hstart
  · exact hmissing hfinish

theorem Misses.unique (h : edge.Misses ids missing) (h' : edge.Misses ids missing') :
    missing = missing' := by
  obtain ⟨hmissing, rfl | ⟨hstart, rfl⟩⟩ := h <;>
    obtain ⟨hmissing', rfl | ⟨hstart', rfl⟩⟩ := h'
  · rfl
  · exact absurd hstart' hmissing
  · exact absurd hstart hmissing'
  · rfl

end EdgeKey

namespace Cypher

variable {config : MatchConfig}

/-! ### The first missing end -/

/-- An edge is the first that has not both its ends among nodes. -/
def FirstDangling (ids : List NodeId) (edges : List PatternEdge) (edge : EdgeKey)
    (missing : NodeId) : Prop :=
  ∃ before e after, edges = before ++ e :: after ∧ (∀ e' ∈ before, e'.key.EndsIn ids) ∧
    e.key = edge ∧ edge.Misses ids missing

section

variable {ids : List NodeId} {e : PatternEdge} {edges : List PatternEdge} {edge : EdgeKey}
  {missing : NodeId}

/-- Which nodes there are counts, not how often. -/
theorem firstDangling_congr {ids' : List NodeId} (h : ∀ id, id ∈ ids ↔ id ∈ ids') :
    FirstDangling ids edges edge missing ↔ FirstDangling ids' edges edge missing := by
  simp only [FirstDangling, EdgeKey.EndsIn, EdgeKey.Misses, h]

theorem not_firstDangling_nil : ¬FirstDangling ids [] edge missing := by
  rintro ⟨before, e, after, heq, -⟩
  exact absurd heq.symm (List.append_ne_nil_of_right_ne_nil before (List.cons_ne_nil e after))

theorem firstDangling_cons_of_misses {missing' : NodeId} (h : e.key.Misses ids missing') :
    FirstDangling ids (e :: edges) edge missing ↔ edge = e.key ∧ missing = missing' := by
  constructor
  · rintro ⟨before, e', after, heq, hbefore, rfl, hmisses⟩
    cases before with
    | nil =>
      obtain ⟨rfl, -⟩ := List.cons.inj heq
      exact ⟨rfl, hmisses.unique h⟩
    | cons first before =>
      obtain ⟨rfl, -⟩ := List.cons.inj heq
      exact absurd (hbefore _ List.mem_cons_self) h.not_endsIn
  · rintro ⟨rfl, rfl⟩
    exact ⟨[], e, edges, rfl, List.forall_mem_nil _, rfl, h⟩

theorem firstDangling_cons_of_endsIn (h : e.key.EndsIn ids) :
    FirstDangling ids (e :: edges) edge missing ↔ FirstDangling ids edges edge missing := by
  constructor
  · rintro ⟨before, e', after, heq, hbefore, rfl, hmisses⟩
    cases before with
    | nil =>
      obtain ⟨rfl, -⟩ := List.cons.inj heq
      exact absurd h hmisses.not_endsIn
    | cons first before =>
      obtain ⟨-, rfl⟩ := List.cons.inj heq
      exact ⟨before, e', after, rfl, (List.forall_mem_cons.1 hbefore).2, rfl, hmisses⟩
  · rintro ⟨before, e', after, rfl, hbefore, hmisses⟩
    exact ⟨e :: before, e', after, rfl, List.forall_mem_cons.2 ⟨h, hbefore⟩, hmisses⟩

end

/-! ### Failure -/

theorem bind_eq_error_iff {ε α β : Type} {x : Except ε α} {f : α → Except ε β} {fault : ε} :
    x >>= f = .error fault ↔ x = .error fault ∨ ∃ a, x = .ok a ∧ f a = .error fault := by
  cases x <;> simp [bind, Except.bind]

section

variable {patterns : OrderedMap NodeId NodePattern} {number : Nat} {e : PatternEdge}
  {edges : List PatternEdge} {fault : MatchError}

theorem endPattern_of_notMem {edge : EdgeKey} {id : NodeId} (h : id ∉ patterns.keys) :
    endPattern patterns edge id = .error (.danglingEdge edge id) := by
  rw [endPattern, OrderedMap.get?_eq_none_iff.2 h]

theorem exists_endPattern (edge : EdgeKey) {id : NodeId} (h : id ∈ patterns.keys) :
    ∃ p, endPattern patterns edge id = .ok p := by
  obtain ⟨p, hp⟩ := OrderedMap.exists_get?_iff.2 h
  exact ⟨p, endPattern_eq_ok_iff.2 hp⟩

/-- The start of an edge is looked for before its finish, and both before what is behind
them. -/
theorem paths_cons_of_misses {missing : NodeId} (h : e.key.Misses patterns.keys missing) :
    paths config patterns number (e :: edges) = .error (.danglingEdge e.key missing) := by
  rw [paths]
  obtain ⟨hmissing, rfl | ⟨hstart, rfl⟩⟩ := h
  · rw [endPattern_of_notMem hmissing]
    rfl
  · obtain ⟨source, hsource⟩ := exists_endPattern e.key hstart
    rw [hsource, endPattern_of_notMem hmissing]
    rfl

theorem paths_cons_of_endsIn (h : e.key.EndsIn patterns.keys) :
    paths config patterns number (e :: edges) = .error fault ↔
      paths config patterns (number + 1) edges = .error fault := by
  obtain ⟨source, hsource⟩ := exists_endPattern e.key h.1
  obtain ⟨target, htarget⟩ := exists_endPattern e.key h.2
  rw [paths, hsource, htarget]
  show (do
    let rest ← paths config patterns (number + 1) edges
    return Fragment.path source (relationPattern config number e) target :: rest) = _ ↔ _
  refine bind_eq_error_iff.trans (or_iff_left ?_)
  rintro ⟨rest, -, hrest⟩
  cases hrest

/-- The paths of edges fail for the first missing end. -/
theorem paths_eq_error_iff : paths config patterns number edges = .error fault ↔
    ∃ edge missing, fault = .danglingEdge edge missing ∧
      FirstDangling patterns.keys edges edge missing := by
  induction edges generalizing number with
  | nil =>
    rw [paths]
    refine iff_of_false (fun h => by cases h) ?_
    rintro ⟨edge, missing, -, h⟩
    exact not_firstDangling_nil h
  | cons e edges ih =>
    -- Either the first edge decides, or it has both ends and the rest does.
    obtain h | ⟨missing, h⟩ := e.key.endsIn_or_misses patterns.keys
    · simp only [paths_cons_of_endsIn h, ih, firstDangling_cons_of_endsIn h]
    · simp only [paths_cons_of_misses h, firstDangling_cons_of_misses h, Except.error.injEq]
      constructor
      · rintro rfl
        exact ⟨_, _, rfl, rfl, rfl⟩
      · rintro ⟨_, _, rfl, rfl, rfl⟩
        rfl

end

/-- **Compiling fails for want of nodes, or else for the first end that is missing.** -/
theorem compile_eq_error_iff {p : PatternGraph} {fault : MatchError} :
    compile config p = .error fault ↔
      p.nodes = [] ∧ fault = .emptyPattern ∨
        p.nodes ≠ [] ∧ ∃ edge missing, fault = .danglingEdge edge missing ∧
          FirstDangling (p.nodes.map PatternNode.id) p.edges edge missing := by
  by_cases hnodes : p.nodes = []
  · rw [compile_of_nil hnodes]
    simp [hnodes, eq_comm]
  · have hsome : (constraints config p.nodes).isEmpty = false := by
      rw [isEmpty_constraints]
      exact List.isEmpty_eq_false_iff.2 hnodes
    have hkeys : ∀ id, id ∈ (nodePatterns config (constraints config p.nodes)).keys ↔
        id ∈ p.nodes.map PatternNode.id := by
      intro id
      rw [nodePatterns, OrderedMap.keys_mapValues, mem_keys_constraints]
    -- Behind the check for nodes, only the paths can fail.
    rw [compile]
    simp only [hsome, hnodes, false_and, false_or, ne_eq, not_false_eq_true, true_and]
    refine bind_eq_error_iff.trans ((or_iff_left ?_).trans ?_)
    · rintro ⟨edges, -, h⟩
      cases h
    · simp only [paths_eq_error_iff, firstDangling_congr hkeys]

/-! ### Fragments -/

/-- The pattern of a node in the query for a pattern graph. -/
def matchedBy (config : MatchConfig) (p : PatternGraph) (id : NodeId) : NodePattern :=
  nodePattern config (nodeName config p id) (constraintOf config p id)

section

variable {p : PatternGraph} {q : Query}

theorem entries_nodePatterns (config : MatchConfig) (p : PatternGraph) :
    (nodePatterns config (constraints config p.nodes)).entries =
      (appendNew [] (p.nodes.map PatternNode.id)).map fun id => (id, matchedBy config p id) := by
  show (constraints config p.nodes).entries.map _ = _
  rw [entries_constraints_eq_map, List.map_map]
  rfl

theorem get?_nodePatterns_eq_some_iff {id : NodeId} {n : NodePattern} :
    (nodePatterns config (constraints config p.nodes)).get? id = some n ↔
      id ∈ p.nodes.map PatternNode.id ∧ n = matchedBy config p id := by
  rw [OrderedMap.get?_eq_some_iff, entries_nodePatterns, List.mem_map]
  constructor
  · rintro ⟨id', hid', heq⟩
    cases heq
    exact ⟨(mem_appendNew.1 hid').resolve_left List.not_mem_nil, rfl⟩
  · rintro ⟨hid, rfl⟩
    exact ⟨id, mem_appendNew.2 (.inr hid), rfl⟩

/-- There is a query just if there are nodes, and both ends of every edge among them. -/
theorem exists_compile_iff :
    (∃ q, compile config p = .ok q) ↔
      p.nodes ≠ [] ∧ ∀ e ∈ p.edges, e.key.EndsIn (p.nodes.map PatternNode.id) := by
  constructor
  · rintro ⟨q, hq⟩
    obtain ⟨hsome, edges, hedges, -⟩ := compile_eq_ok_iff.1 hq
    rw [isEmpty_constraints, List.isEmpty_eq_false_iff] at hsome
    refine ⟨hsome, fun e he => ?_⟩
    rw [← List.zipIdx_map_fst 1 p.edges] at he
    obtain ⟨numbered, hnumbered, rfl⟩ := List.mem_map.1 he
    obtain ⟨f, -, source, target, hsource, htarget, -⟩ :=
      exists_of_forall₂ (paths_eq_ok_iff.1 hedges).flip hnumbered
    exact ⟨(get?_nodePatterns_eq_some_iff.1 hsource).1, (get?_nodePatterns_eq_some_iff.1 htarget).1⟩
  · rintro ⟨hnodes, hends⟩
    exact exists_compile hnodes hends

/-- The path of an edge under a number in the query for a pattern graph. -/
def pathOf (config : MatchConfig) (p : PatternGraph) (e : PatternEdge × Nat) : Fragment :=
  .path (matchedBy config p e.1.key.start) (relationPattern config e.2 e.1)
    (matchedBy config p e.1.key.finish)

/-- The listed nodes that no edge touches, first listed first. -/
def loneIds (p : PatternGraph) : List NodeId :=
  (appendNew [] (p.nodes.map PatternNode.id)).filter fun id =>
    !p.edges.any fun e => e.key.touches id

/-- The fragments of a query are the paths of the edges, in order, and behind them the
patterns of the nodes without edges. -/
theorem fragments_of_compile (h : compile config p = .ok q) :
    q.fragments = (p.edges.zipIdx 1).map (pathOf config p) ++
      (loneIds p).map fun id => .node (matchedBy config p id) := by
  obtain ⟨-, edges, hedges, rfl⟩ := compile_eq_ok_iff.1 h
  have hpaths : (p.edges.zipIdx 1).map (pathOf config p) = edges := by
    rw [← List.forall₂_eq_eq_eq, List.forall₂_map_left_iff]
    refine (paths_eq_ok_iff.1 hedges).imp fun e f hf => ?_
    obtain ⟨source, target, hsource, htarget, rfl⟩ := hf
    obtain ⟨-, rfl⟩ := get?_nodePatterns_eq_some_iff.1 hsource
    obtain ⟨-, rfl⟩ := get?_nodePatterns_eq_some_iff.1 htarget
    rfl
  show edges ++ loneNodes _ p.edges = _
  rw [hpaths, loneNodes, entries_nodePatterns, List.filter_map, List.map_map]
  rfl

/-- Every node pattern in a query is that of a listed node. -/
theorem exists_matchedBy_of_mem (h : compile config p = .ok q) {f : Fragment}
    (hf : f ∈ q.fragments) {n : NodePattern} (hn : n ∈ f.nodes) :
    ∃ id ∈ p.nodes.map PatternNode.id, n = matchedBy config p id := by
  obtain ⟨id, hid⟩ := mem_nodes_of_compile h hf hn
  exact ⟨id, get?_nodePatterns_eq_some_iff.1 hid⟩

/-- Every listed node is matched: by the path of an edge that it is an end of, or by
itself. -/
theorem exists_mem_fragments (h : compile config p = .ok q) {id : NodeId}
    (hid : id ∈ p.nodes.map PatternNode.id) :
    ∃ f ∈ q.fragments, matchedBy config p id ∈ f.nodes := by
  rw [fragments_of_compile h]
  cases htouched : p.edges.any fun e => e.key.touches id with
  | true =>
    obtain ⟨e, he, htouches⟩ := List.any_eq_true.1 htouched
    rw [← List.zipIdx_map_fst 1 p.edges] at he
    obtain ⟨numbered, hnumbered, rfl⟩ := List.mem_map.1 he
    refine ⟨_, List.mem_append_left _ (List.mem_map_of_mem hnumbered), ?_⟩
    obtain rfl | rfl := EdgeKey.touches_iff.1 htouches
    · exact List.mem_cons_self
    · exact List.mem_cons_of_mem _ List.mem_cons_self
  | false =>
    refine ⟨_, List.mem_append_right _ (List.mem_map_of_mem
      (List.mem_filter.2 ⟨mem_appendNew.2 (.inr hid), ?_⟩)), List.mem_cons_self⟩
    rw [htouched]
    rfl

/-- One variable is one pattern. -/
theorem eq_of_name_eq (h : compile config p = .ok q) {f f' : Fragment} (hf : f ∈ q.fragments)
    (hf' : f' ∈ q.fragments) {n n' : NodePattern} (hn : n ∈ f.nodes) (hn' : n' ∈ f'.nodes)
    (hname : n.name = n'.name) : n = n' := by
  obtain ⟨id, hid, rfl⟩ := exists_matchedBy_of_mem h hf hn
  obtain ⟨id', hid', rfl⟩ := exists_matchedBy_of_mem h hf' hn'
  rw [(nodeName_inj hid hid').1 hname]

end

/-- **Compiling succeeds for nodes with all ends of edges among them, and covers them.**
It fails where there is no node, whatever the edges, and else for the first edge with
a missing end, the start before the finish.  Otherwise the query has a path for each
edge, in order, between the patterns of its ends, and behind them one pattern for
each node that no edge touches, first listed first.  So every listed node is matched,
and patterns with one variable are the same all over. -/
theorem compile_covers (config : MatchConfig) (p : PatternGraph) :
    let ids := p.nodes.map PatternNode.id
    ((∃ q, compile config p = .ok q) ↔ p.nodes ≠ [] ∧ ∀ e ∈ p.edges, e.key.EndsIn ids) ∧
      (compile config p = .error .emptyPattern ↔ p.nodes = []) ∧
      (∀ edge missing, compile config p = .error (.danglingEdge edge missing) ↔
        p.nodes ≠ [] ∧ FirstDangling ids p.edges edge missing) ∧
      ∀ q, compile config p = .ok q →
        q.fragments = (p.edges.zipIdx 1).map (pathOf config p) ++
          ((loneIds p).map fun id => Fragment.node (matchedBy config p id)) ∧
        (∀ id ∈ ids, ∃ f ∈ q.fragments, matchedBy config p id ∈ f.nodes) ∧
        ∀ f ∈ q.fragments, ∀ f' ∈ q.fragments, ∀ n ∈ f.nodes, ∀ n' ∈ f'.nodes,
          n.name = n'.name → n = n' := by
  intro ids
  refine ⟨exists_compile_iff, ?_, fun edge missing => ?_, fun q hq => ⟨fragments_of_compile hq,
    fun id hid => exists_mem_fragments hq hid, fun f hf f' hf' n hn n' hn' hname =>
      eq_of_name_eq hq hf hf' hn hn' hname⟩⟩
  · rw [compile_eq_error_iff]
    simp
  · rw [compile_eq_error_iff]
    simp [ids]

/-- Where both ends are missing, the start is named. -/
example :
    let loop : PatternEdge := ⟨⟨.int 1, "R", .int 1⟩, .empty⟩
    let dangling : PatternEdge := ⟨⟨.int 2, "R", .text "1"⟩, .empty⟩
    compile {} { nodes := [{ id := .int 1 }], edges := [loop, dangling] } =
      .error (.danglingEdge dangling.key (.int 2)) := by rfl

end Cypher

end PropertyGraph
