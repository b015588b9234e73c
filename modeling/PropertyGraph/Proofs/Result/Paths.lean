/-
What a path shows of the walk that it was sent for.

A walk is sent as the nodes that it meets, each once in the order in which it is
first met, the relations that it takes, each once, and two indices for each step
(`SentWalk`).  The indices tell the whole walk, so its relations are found again,
with their ends.  What is shown as the end of the path, though, is the last node
sent, which is where the walk ends only if no node is met for the first time
after that.

* **`Walk.resolve_eq`** — the relations are those of the steps;
* **`meetsLast_iff`** — the last node sent is the one that is met for the first
  time last;
* **`showsEnds_iff`** — when a path shows where its walk starts and ends.
-/
import PropertyGraph.Proofs.FirstCome
import PropertyGraph.Proofs.Result.Rows
import PropertyGraph.Proofs.Text.Numeral

namespace PropertyGraph

theorem nodeReference_inj {a b : Int64} : nodeReference a = nodeReference b ↔ a = b := by
  rw [nodeReference, nodeReference, String.append_right_inj, Text.toString_int_inj, Int64.toInt_inj]

/-! ### Walks and how they are sent -/

/-- A node in the database. -/
structure HeldNode where
  id : Int64
  labels : List Cell
  properties : List (String × Cell)

namespace HeldNode

/-- The node as a cell. -/
def cell (n : HeldNode) : Cell := .node n.id n.labels n.properties

/-- The node in a row. -/
def found (n : HeldNode) : FoundNode :=
  ⟨n.id, n.labels.filterMap Cell.text?, Cell.propertyJsons n.properties⟩

theorem filterMap_node?_cell (nodes : List HeldNode) :
    (nodes.map cell).filterMap Cell.node? = nodes.map found := by
  rw [List.filterMap_map, ← List.filterMap_eq_map]
  rfl

end HeldNode

/-- A relation in the database. -/
structure HeldRelation where
  id : Int64
  start : Int64
  finish : Int64
  label : String
  properties : List (String × Cell)

namespace HeldRelation

/-- The relation as a cell of a path, which does not tell its ends. -/
def cell (r : HeldRelation) : Cell := .unbound r.id r.label r.properties

/-- The relation in a path. -/
def loose (r : HeldRelation) : LooseRelation := ⟨r.id, r.label, Cell.propertyJsons r.properties⟩

/-- The relation in a row. -/
def found (r : HeldRelation) : FoundRelation :=
  ⟨r.id, r.start, r.finish, r.label, Cell.propertyJsons r.properties⟩

theorem filterMap_loose?_cell (relations : List HeldRelation) :
    (relations.map cell).filterMap Cell.loose? = relations.map loose := by
  rw [List.filterMap_map, ← List.filterMap_eq_map]
  rfl

end HeldRelation

namespace Walk

/-- A step of a walk: the relation that it takes, whether it goes the way that the
relation points, and the node that it leads to. -/
structure Step where
  relation : HeldRelation
  forward : Bool
  node : HeldNode

/-- The relation of a step has its ends at the node that the step leaves and at
the node that it leads to. -/
def Step.Leaves (s : Step) (previous : Int64) : Prop :=
  if s.forward then s.relation.start = previous ∧ s.relation.finish = s.node.id
  else s.relation.start = s.node.id ∧ s.relation.finish = previous

/-- Each step leaves the node that the one before leads to, the first the given
one. -/
inductive Joined : Int64 → List Step → Prop
  | nil (previous : Int64) : Joined previous []
  | cons {previous : Int64} {s : Step} {steps : List Step} (leaves : s.Leaves previous)
      (rest : Joined s.node.id steps) : Joined previous (s :: steps)

/-- Indices that tell the steps of a walk by nodes and relations that are sent:
for each step the relation, counted from one and with a minus sign against its
direction, and the node, counted from zero. -/
inductive Encodes (nodes : List HeldNode) (relations : List HeldRelation) :
    List Step → List Int64 → Prop
  | nil : Encodes nodes relations [] []
  | cons {s : Step} {steps : List Step} {indices : List Int64} {i j : Nat} {r n : Int64}
      (relation : relations[i]? = some s.relation) (node : nodes[j]? = some s.node)
      (signed : r.toInt = if s.forward then (i : Int) + 1 else -((i : Int) + 1))
      (plain : n.toInt = j) (rest : Encodes nodes relations steps indices) :
      Encodes nodes relations (s :: steps) (r :: n :: indices)

theorem Step.between_eq {s : Step} {previous : Int64} (h : s.Leaves previous) :
    s.relation.loose.between s.forward previous s.node.id = s.relation.found := by
  rw [Step.Leaves] at h
  rw [LooseRelation.between]
  split at h
  · next hforward =>
    rw [if_pos hforward, ← h.1, ← h.2]
    rfl
  · next hback =>
    rw [if_neg hback, ← h.1, ← h.2]
    rfl

theorem atSigned?_eq {α : Type} {l : List α} {i : Nat} {r : Int} {forward : Bool}
    (h : r = if forward then (i : Int) + 1 else -((i : Int) + 1)) :
    atSigned? l r = l[i]? ∧ decide (0 < r) = forward := by
  cases forward
  · have hr : r = -((i : Int) + 1) := h
    have habs : r.natAbs - 1 = i := by omega
    rw [atSigned?, if_neg (by omega), habs]
    exact ⟨rfl, decide_eq_false (by omega)⟩
  · have hr : r = (i : Int) + 1 := h
    have habs : r.natAbs - 1 = i := by omega
    rw [atSigned?, if_neg (by omega), habs]
    exact ⟨rfl, decide_eq_true (by omega)⟩

theorem at?_natCast {α : Type} (l : List α) (j : Nat) : at? l (j : Int) = l[j]? := by
  rw [at?, if_neg (by omega), Int.toNat_natCast]

/-- **The relations of a walk are those of its steps**, with their ends, whichever
way they are taken.  The induction is on how the steps are encoded; the node that
the walk stands at moves along. -/
theorem resolve_eq {nodes : List HeldNode} {relations : List HeldRelation} {steps : List Step}
    {indices : List Int64} (h : Encodes nodes relations steps indices) {previous : Int64}
    (joined : Joined previous steps) :
    resolve (nodes.map HeldNode.id) (relations.map HeldRelation.loose) previous
      (indices.map Int64.toInt) = steps.map fun s => s.relation.found := by
  induction h generalizing previous with
  | nil => rfl
  | @cons s steps indices i j r n relation node signed plain _ ih =>
    obtain _ | ⟨leaves, rest⟩ := joined
    obtain ⟨hat, hforward⟩ := atSigned?_eq (l := relations.map HeldRelation.loose) signed
    have hrelation : atSigned? (relations.map HeldRelation.loose) r.toInt =
        some s.relation.loose := by rw [hat, List.getElem?_map, relation, Option.map_some]
    have hnode : at? (nodes.map HeldNode.id) n.toInt = some s.node.id := by
      rw [plain, at?_natCast, List.getElem?_map, node, Option.map_some]
    rw [List.map_cons, List.map_cons, resolve, hrelation, hnode]
    dsimp only
    rw [hforward, Step.between_eq leaves, ih rest, List.map_cons]

/-- A path as data: the nodes that are sent, and the relations of the walk that
the indices tell, step by step.  The nodes may come in any order behind the
first. -/
theorem datum_path {start : HeldNode} {steps : List Step} {nodes : List HeldNode}
    {relations : List HeldRelation} {indices : List Int64} (joined : Joined start.id steps)
    (starts : nodes.head? = some start) (encodes : Encodes nodes relations steps indices) :
    (Cell.path (nodes.map HeldNode.cell) (relations.map HeldRelation.cell)
      (indices.map Cell.integer)).datum =
      .path (nodes.map HeldNode.found) (steps.map fun s => s.relation.found) := by
  have hids : (nodes.map HeldNode.found).map FoundNode.id = nodes.map HeldNode.id := List.map_map
  have hintegers : (indices.map Cell.integer).filterMap Cell.integer? =
      indices.map Int64.toInt := by
    rw [List.filterMap_map, ← List.filterMap_eq_map]
    rfl
  have hfirst : nodes.map HeldNode.id = start.id :: (nodes.map HeldNode.id).tail := by
    obtain ⟨others, hnodes⟩ := List.head?_eq_some_iff.1 starts
    rw [hnodes]
    rfl
  have hrelations : Walk.relations (nodes.map HeldNode.id) (relations.map HeldRelation.loose)
      (indices.map Int64.toInt) = steps.map fun s => s.relation.found := by
    rw [Walk.relations.eq_def, hfirst]
    dsimp only
    rw [← hfirst, resolve_eq encodes joined]
  rw [Cell.datum, HeldNode.filterMap_node?_cell, HeldRelation.filterMap_loose?_cell, hintegers,
    hids, hrelations]

end Walk

/-- A walk with the parts of the path that it is sent as: the nodes it meets, in
the order of their first visits, the relations it takes, each once, and indices
into both. -/
structure SentWalk where
  start : HeldNode
  steps : List Walk.Step
  nodes : List HeldNode
  relations : List HeldRelation
  indices : List Int64
  joined : Walk.Joined start.id steps
  starts : nodes.head? = some start
  nodes_eq : nodes.map HeldNode.id = appendNew [] (start.id :: steps.map fun s => s.node.id)
  relations_nodup : (relations.map HeldRelation.id).Nodup
  relations_taken : ∀ r ∈ relations, ∃ s ∈ steps, s.relation = r
  encodes : Walk.Encodes nodes relations steps indices

namespace SentWalk

/-- The nodes of a walk by their names, as often as it comes to them. -/
def visited (w : SentWalk) : List Int64 := w.start.id :: w.steps.map fun s => s.node.id

/-- The name of the node that a walk ends at. -/
def finish (w : SentWalk) : Int64 := w.visited.getLast (List.cons_ne_nil _ _)

/-- The path that a walk is sent as. -/
def cell (w : SentWalk) : Cell :=
  .path (w.nodes.map HeldNode.cell) (w.relations.map HeldRelation.cell)
    (w.indices.map Cell.integer)

/-- The references to the relations of a walk, step by step. -/
def relationReferences (w : SentWalk) : List String :=
  w.steps.map fun s => relationReference s.relation.id

/-- The path shows the start of the walk, its relations and its end, whatever is
listed before. -/
def ShowsEnds (w : SentWalk) : Prop :=
  ∀ r : ResultSet, (w.cell.datum.render r).2 =
    .array [.text (nodeReference w.start.id), .texts w.relationReferences,
      .text (nodeReference w.finish)]

/-- The walk meets a node last: once it has come to that node, it comes to no
other for the first time. -/
def MeetsLast (w : SentWalk) (id : Int64) : Prop :=
  id ∈ w.visited ∧ ∀ other ∈ w.visited, w.visited.idxOf other ≤ w.visited.idxOf id

/-- The path as data: the nodes that are sent, and the relations step by step. -/
theorem datum_cell (w : SentWalk) :
    w.cell.datum = .path (w.nodes.map HeldNode.found) (w.steps.map fun s => s.relation.found) :=
  Walk.datum_path w.joined w.starts w.encodes

theorem meetsLast_iff {w : SentWalk} {id : Int64} :
    w.MeetsLast id ↔ w.nodes.getLast?.map HeldNode.id = some id := by
  rw [← List.getLast?_map, w.nodes_eq]
  exact getLast?_appendNew_iff.symm

/-- A path shows the last node that is sent as its end. -/
theorem render_cell (w : SentWalk) {n : HeldNode} (hn : w.nodes.getLast? = some n)
    (r : ResultSet) : (w.cell.datum.render r).2 =
      .array [.text (nodeReference w.start.id), .texts w.relationReferences,
        .text (nodeReference n.id)] := by
  rw [datum_cell, Datum.render_eq, Datum.toJson, List.head?_map, List.getLast?_map, w.starts,
    hn, List.map_map]
  rfl

/-- **What a path shows.**  Whatever is listed before, a path shows the node that
its walk starts at, its relations step by step and, as its end, the node that the
walk meets last.  So it shows the end of the walk exactly if no node is met for
the first time after that. -/
theorem showsEnds_iff (w : SentWalk) :
    (∃ last, w.MeetsLast last ∧ ∀ r : ResultSet, (w.cell.datum.render r).2 =
      .array [.text (nodeReference w.start.id), .texts w.relationReferences,
        .text (nodeReference last)]) ∧
    (w.ShowsEnds ↔ w.MeetsLast w.finish) := by
  obtain ⟨others, hnodes⟩ := List.head?_eq_some_iff.1 w.starts
  obtain ⟨n, hn⟩ : ∃ n, w.nodes.getLast? = some n := ⟨_, hnodes ▸ List.getLast?_cons⟩
  have hmap : w.nodes.getLast?.map HeldNode.id = some n.id := by rw [hn, Option.map_some]
  refine ⟨⟨n.id, meetsLast_iff.2 hmap, w.render_cell hn⟩, ?_⟩
  rw [meetsLast_iff, hmap, Option.some_inj, ← nodeReference_inj]
  constructor
  · intro h
    have hshown := (w.render_cell hn {}).symm.trans (h {})
    simpa using hshown
  · intro h r
    rw [w.render_cell hn, h]

/-- There and back again along one relation: the walk ends where it starts, and
the node between is the last one met. -/
def thereAndBack : SentWalk where
  start := ⟨1, [], []⟩
  steps := [⟨⟨7, 1, 2, "R", []⟩, true, ⟨2, [], []⟩⟩, ⟨⟨7, 1, 2, "R", []⟩, false, ⟨1, [], []⟩⟩]
  nodes := [⟨1, [], []⟩, ⟨2, [], []⟩]
  relations := [⟨7, 1, 2, "R", []⟩]
  indices := [1, 1, -1, 0]
  joined := .cons ⟨rfl, rfl⟩ (.cons ⟨rfl, rfl⟩ (.nil 1))
  starts := rfl
  nodes_eq := by decide
  relations_nodup := by decide
  relations_taken := fun _ hr => ⟨_, List.mem_cons_self, (List.mem_singleton.1 hr).symm⟩
  encodes :=
    .cons (i := 0) (j := 1) rfl rfl (by decide) (by decide)
      (.cons (i := 0) (j := 0) rfl rfl (by decide) (by decide) .nil)

/-- Its path shows the node between as the end. -/
theorem not_showsEnds_thereAndBack : ¬ thereAndBack.ShowsEnds := by
  intro h
  have hshown := (thereAndBack.render_cell (n := ⟨2, [], []⟩) rfl {}).symm.trans (h {})
  have hends : nodeReference 2 = nodeReference thereAndBack.finish := by simpa using hshown
  exact absurd (nodeReference_inj.1 hends) (by decide)

end SentWalk

end PropertyGraph
