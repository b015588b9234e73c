/-
Properties never show in the outline of a graph.

The outline is what is left without properties: which nodes and edges there are,
in which order, with which labels and counts.  Reading a record, and then the
outline, is reading the outline of the record, provided that the labels of
made-up ends are told from the edge alone.  So records that differ in their
properties only are read into graphs of one outline, and everything that does
not ask for properties is the same in both.

* **`outline_addRecord`**, **`outline_readRecords`** — one record, and all of them;
* **`connected_outline`** — the search for connected nodes goes by the outline;
* **`Sound.sameMembers_clusters`** — so do the clusters, but for the ranking;
* **`Record.exists_ofTree?_withMember`** — whatever can be read may stand as the
  properties of a record;
* **`readRecords_outline`** — all of it.
-/
import PropertyGraph.Graph.Endpoints
import PropertyGraph.Proofs.Graph.Partition
import PropertyGraph.Proofs.Mapped
import PropertyGraph.Proofs.Record.Growth

namespace PropertyGraph

/-! ### Maps -/

namespace OrderedMap

variable {κ ν μ : Type} [DecidableEq κ] (f : κ → ν → μ) (m : OrderedMap κ ν) (k : κ)

theorem contains_mapValues : (m.mapValues f).contains k = m.contains k := by
  rw [← get?_isSome, ← get?_isSome, get?_mapValues, Option.isSome_map]

theorem mapValues_insert (v : ν) :
    (m.insert k v).mapValues f = (m.mapValues f).insert k (f k v) := by
  refine eq_of_get?_eq ?_ fun k' => ?_
  · rw [keys_mapValues, keys_insert, keys_insert, keys_mapValues]
  · rw [get?_mapValues, get?_insert, get?_insert, get?_mapValues]
    split
    · next hk => rw [hk, Option.map_some]
    · rfl

theorem mapValues_modify (h : ν → ν) (h' : μ → μ) (hf : ∀ v, f k (h v) = h' (f k v)) :
    (m.modify k h).mapValues f = (m.mapValues f).modify k h' := by
  refine eq_of_get?_eq ?_ fun k' => ?_
  · rw [keys_mapValues, keys_modify, keys_modify, keys_mapValues]
  · rw [get?_mapValues, get?_modify, get?_modify, get?_mapValues]
    split
    · next hk =>
      subst hk
      cases m.get? k' with
      | none => rfl
      | some v => exact congrArg some (hf v)
    · rfl

end OrderedMap

/-! ### Outlines -/

/-- A record without its properties. -/
def Record.outline : Record → Record
  | node id labels _ => node id labels []
  | edge k _ => edge k []

/-- A node without its properties. -/
def Node.outline (n : Node) : Node := { n with properties := .empty }

/-- An edge without its properties. -/
def Edge.outline (e : Edge) : Edge := { e with properties := .empty }

/-- A strategy that tells labels only, and without looking at properties. -/
def EndpointStrategy.outline (strategy : EndpointStrategy) : EndpointStrategy := fun k _ =>
  ⟨(strategy k .empty).startLabels, (strategy k .empty).finishLabels, .empty, .empty⟩

/-- The labels of the ends that a strategy tells depend on the edge alone. -/
def EndpointStrategy.LabelsByEdge (strategy : EndpointStrategy) : Prop := ∀ k properties,
  (strategy k properties).startLabels = (strategy k .empty).startLabels ∧
    (strategy k properties).finishLabels = (strategy k .empty).finishLabels

theorem EndpointStrategy.labelsByEdge_default : LabelsByEdge .default := fun _ _ => ⟨rfl, rfl⟩

theorem EndpointConfig.labelsByEdge_strategy (c : EndpointConfig)
    (lexicon : OrderedMap NodeId String) : (c.strategy lexicon).LabelsByEdge := fun _ _ => ⟨rfl, rfl⟩

/-- Two clusters have the same members, however ranked. -/
def Cluster.SameMembers (c d : Cluster) : Prop := ∀ a, a ∈ c.ids ↔ a ∈ d.ids

namespace Graph

variable {strategy : EndpointStrategy} {g g' : Graph} {relations : List String}

/-- A graph without its properties. -/
def outline (g : Graph) : Graph where
  nodes := g.nodes.mapValues fun _ n => n.outline
  edges := g.edges.mapValues fun _ e => e.outline

theorem node?_outline (g : Graph) (id : NodeId) :
    g.outline.node? id = (g.node? id).map Node.outline :=
  OrderedMap.get?_mapValues _ _ _

theorem hasNode_outline (g : Graph) (id : NodeId) : g.outline.hasNode id = g.hasNode id :=
  OrderedMap.contains_mapValues _ _ _

theorem hasEdge_outline (g : Graph) (k : EdgeKey) : g.outline.hasEdge k = g.hasEdge k :=
  OrderedMap.contains_mapValues _ _ _

theorem nodeCount_outline (g : Graph) : g.outline.nodeCount = g.nodeCount := List.length_map _

/-! ### One record -/

theorem outline_addNode (g : Graph) (id : NodeId) (labels : List String) (properties : Properties) :
    (g.addNode id labels properties).outline = g.outline.addNode id labels .empty := by
  have hold : g.outline.nodes.get? id = (g.nodes.get? id).map Node.outline := g.node?_outline id
  rw [addNode, addNode, hold]
  cases g.nodes.get? id with
  | none => exact congrArg (Graph.mk · _) (OrderedMap.mapValues_insert _ _ _ _)
  | some n => exact congrArg (Graph.mk · _) (OrderedMap.mapValues_insert _ _ _ _)

/-- A node that is added only if it is missing. -/
theorem outline_addMissing (g : Graph) (id : NodeId) (labels : List String)
    (properties : Properties) :
    (if g.hasNode id then g else g.addNode id labels properties).outline =
      if g.outline.hasNode id then g.outline else g.outline.addNode id labels .empty := by
  rw [hasNode_outline]
  split
  · rfl
  · exact outline_addNode g id labels properties

theorem outline_addEndpoints (h : strategy.LabelsByEdge) (g : Graph) (k : EdgeKey)
    (properties : Properties) :
    (addEndpoints strategy g k properties).outline =
      addEndpoints strategy.outline g.outline k .empty := by
  obtain ⟨hstart, hfinish⟩ := h k properties
  rw [addEndpoints, addEndpoints]
  dsimp only [EndpointStrategy.outline]
  rw [outline_addMissing, outline_addMissing, hstart, hfinish]
  rfl

theorem outline_countEdge (g : Graph) (k : EdgeKey) :
    (g.countEdge k).outline = g.outline.countEdge k := by
  rw [countEdge, countEdge, outline, outline,
    OrderedMap.mapValues_modify _ _ _ _ (Node.countIn · k.start) fun _ => rfl,
    OrderedMap.mapValues_modify _ _ _ _ (Node.countOut · k.finish) fun _ => rfl]

theorem outline_addEdge (h : strategy.LabelsByEdge) (g : Graph) (k : EdgeKey)
    (properties : Properties) :
    (g.addEdge strategy k properties).outline = g.outline.addEdge strategy.outline k .empty := by
  have hsubmitted : g.outline.submitted k .empty = (g.submitted k properties).outline := by
    have hold : g.outline.edges.get? k = (g.edges.get? k).map Edge.outline :=
      OrderedMap.get?_mapValues _ _ _
    rw [submitted, submitted, hold]
    cases g.edges.get? k <;> rfl
  have hends : (if g.hasEdge k then g else addEndpoints strategy g k properties).outline =
      if g.outline.hasEdge k then g.outline
        else addEndpoints strategy.outline g.outline k .empty := by
    rw [hasEdge_outline]
    split
    · rfl
    · exact outline_addEndpoints h g k properties
  rw [addEdge_eq, addEdge_eq, outline_countEdge, hsubmitted, ← hends]
  exact congrArg (fun edges => countEdge ⟨_, edges⟩ k) (OrderedMap.mapValues_insert _ _ _ _)

/-- The outline of a graph with a record more is the outline of the graph with the
outline of the record more. -/
theorem outline_addRecord (h : strategy.LabelsByEdge) (g : Graph) (r : Record) :
    (g.addRecord strategy r).outline = g.outline.addRecord strategy.outline r.outline := by
  cases r with
  | node id labels properties => exact outline_addNode g id labels _
  | edge k properties => exact outline_addEdge h g k _

theorem countRecord_outline (g : Graph) (s : ReadSummary) (r : Record) :
    g.outline.countRecord s r.outline = g.countRecord s r := by
  cases r with
  | node id labels properties => rfl
  | edge k properties =>
    rw [Record.outline, countRecord, hasEdge_outline]
    rfl

theorem readRecords_concat (strategy : EndpointStrategy) (records : List Record) (r : Record) :
    readRecords strategy (records ++ [r]) = readRecord strategy (readRecords strategy records) r :=
  List.foldl_concat _ _ _ _

/-- Reading records shows in the outline as reading their outlines. -/
theorem outline_readRecords (h : strategy.LabelsByEdge) (records : List Record) :
    readRecords strategy.outline (records.map Record.outline) =
      ((readRecords strategy records).1.outline, (readRecords strategy records).2) := by
  induction records using List.reverseRecOn with
  | nil => rfl
  | append_singleton records r ih =>
    rw [List.map_append, List.map_singleton, readRecords_concat, ih, readRecords_concat, readRecord,
      readRecord, outline_addRecord h, countRecord_outline]

/-! ### Connectivity -/

theorem linkedNeighbours_outline (g : Graph) (relations : List String) (id : NodeId) :
    g.outline.linkedNeighbours relations id = g.linkedNeighbours relations id := by
  rw [linkedNeighbours, linkedNeighbours, node?_outline]
  simp only [isLinked, hasEdge_outline]
  cases g.node? id <;> rfl

theorem extend_outline (g : Graph) (relations : List String) (found ring : List NodeId) :
    g.outline.extend relations found ring = g.extend relations found ring := by
  rw [extend, extend, funext (g.linkedNeighbours_outline relations)]

theorem rings_outline (g : Graph) (relations : List String) (n : Nat) (found ring : List NodeId) :
    g.outline.rings relations n found ring = g.rings relations n found ring := by
  induction n generalizing found ring with
  | zero => rfl
  | succ n ih =>
    rw [rings, rings, extend_outline]
    split
    · rfl
    · exact ih _ _

theorem connected_outline (g : Graph) (id : NodeId) (relations : List String) :
    g.outline.connected id relations = g.connected id relations := by
  rw [connected, connected, hasNode_outline, nodeCount_outline, rings_outline]

theorem connected_of_outline_eq (h : g.outline = g'.outline) (id : NodeId)
    (relations : List String) : g.connected id relations = g'.connected id relations := by
  rw [← connected_outline, h, connected_outline]

/-- What is connected to a node, if that is more than itself, makes a cluster. -/
theorem Sound.exists_cluster_connected (hg : g.Sound) (rankProperty : String) {a : NodeId}
    (hlen : 1 < (g.connected a relations).length) :
    ∃ c, Cluster.ofList? ((g.connected a relations).filterMap (g.member? rankProperty)) = some c ∧
      ∀ b, b ∈ c.ids ↔ b ∈ g.connected a relations := by
  obtain ⟨c, hsome, hcluster, hreaches⟩ := hg.exists_cluster rankProperty hlen
  have ha : g.hasNode a = true := hcluster.hasNode ((hreaches a).2 .refl)
  refine ⟨c, hsome, fun b => ?_⟩
  rw [hreaches, mem_connected hg, and_iff_right ha]

/-- Graphs in which the same nodes are connected have the same clusters, but for
the ranking of their members. -/
theorem Sound.sameMembers_clustersOf (hg : g.Sound) (hg' : g'.Sound)
    (hconnected : ∀ id, g.connected id relations = g'.connected id relations)
    (rankProperty rankProperty' : String) (handled ids : List NodeId) :
    List.Forall₂ Cluster.SameMembers (g.clustersOf relations rankProperty handled ids)
      (g'.clustersOf relations rankProperty' handled ids) := by
  induction ids generalizing handled with
  | nil => exact .nil
  | cons a ids ih =>
    rw [clustersOf, clustersOf]
    dsimp only
    split
    · exact ih handled
    · rw [← hconnected a]
      split
      · exact ih handled
      · next hlen =>
        have hlen : 1 < (g.connected a relations).length := Nat.lt_of_not_le hlen
        obtain ⟨c, hc, hmem⟩ := hg.exists_cluster_connected rankProperty hlen
        obtain ⟨d, hd, hmem'⟩ :=
          hg'.exists_cluster_connected rankProperty' (a := a) (hconnected a ▸ hlen)
        rw [← hconnected a] at hd hmem'
        rw [hc, hd]
        exact .cons (fun b => (hmem b).trans (hmem' b).symm) (ih _)

/-- Graphs of one outline have the same clusters, but for the ranking of their
members. -/
theorem Sound.sameMembers_clusters (hg : g.Sound) (hg' : g'.Sound) (h : g.outline = g'.outline)
    (relations : List String) (rankProperty rankProperty' : String) :
    List.Forall₂ Cluster.SameMembers (g.clusters relations rankProperty)
      (g'.clusters relations rankProperty') := by
  have hkeys : g.nodes.keys = g'.nodes.keys := by
    have hnodes := congrArg (fun g : Graph => g.nodes.keys) h
    simpa only [outline, OrderedMap.keys_mapValues] using hnodes
  rw [clusters, clusters, ← hkeys]
  exact hg.sameMembers_clustersOf hg' (fun id => connected_of_outline_eq h id relations) _ _ _ _

end Graph

/-! ### What may stand as properties -/

namespace Json

/-- A member with another tree in its place, if it has the name. -/
def replaceMember (name : String) (t : Tree) (m : String × Tree) : String × Tree :=
  (m.1, if m.1 = name then t else m.2)

/-- An object with another tree under a name, wherever that stands; any other tree
as it is. -/
def Tree.withMember (u : Tree) (name : String) (t : Tree) : Tree :=
  match u with
  | .object members => .object (members.map (replaceMember name t))
  | _ => u

variable {name : String} {t : Tree} {members : List (String × Tree)}

theorem isSome_memberValues? (members : List (String × Tree)) :
    (Tree.memberValues? members).isSome = members.all fun m => m.2.value?.isSome := by
  induction members with
  | nil => rfl
  | cons m members ih =>
    rw [Tree.memberValues?, List.all_cons, ← ih]
    cases m.2.value? with
    | none => rfl
    | some v => cases Tree.memberValues? members <;> rfl

/-- An object can be read if all its members can. -/
theorem isSome_value?_replaced (name : String) (ht : t.value?.isSome = true)
    (h : (Tree.object members).value?.isSome = true) :
    (Tree.object (members.map (replaceMember name t))).value?.isSome = true := by
  rw [Tree.value?, Option.isSome_map, isSome_memberValues?, List.all_eq_true] at h ⊢
  refine List.forall_mem_map.2 fun m hm => ?_
  rw [replaceMember]
  split
  · exact ht
  · exact h m hm

/-- The member that is a field of one name: none if it is absent, refused if it is
repeated. -/
def field? (members : List (String × Tree)) (field : String) : Option (List (String × Tree)) :=
  match members.filter fun m => [field].contains m.1 with
  | [] => some []
  | [m] => some [(field, m.2)]
  | _ => none

theorem record?_object (declared : List String) :
    (Tree.object members).record? declared =
      (declared.mapM (field? members)).map fun found => ⟨found.flatten⟩ := by
  rw [Tree.record?, Tree.fields?, List.mapM_map]
  exact Option.map_eq_bind.symm

theorem field?_replaced (field : String) :
    field? (members.map (replaceMember name t)) field =
      (field? members field).map (List.map (replaceMember name t)) := by
  rw [field?, field?, List.filter_map]
  show (match (members.filter fun m => [field].contains m.1).map (replaceMember name t) with
    | [] => some [] | [m] => some [(field, m.2)] | _ => none) = _
  have hnames : ∀ m ∈ members.filter fun m => [field].contains m.1, m.1 = field := fun m hm => by
    simpa using (List.mem_filter.1 hm).2
  generalize (members.filter fun m => [field].contains m.1) = found at hnames
  match found with
  | [] => rfl
  | [m] =>
    obtain rfl := hnames m (List.mem_singleton_self m)
    rfl
  | _ :: _ :: _ => rfl

/-- The fields of an object with another tree in place of a member are its fields
with that tree in place of the field. -/
theorem record?_replaced (declared : List String) :
    (Tree.object (members.map (replaceMember name t))).record? declared =
      ((Tree.object members).record? declared).map fun f =>
        ⟨f.present.map (replaceMember name t)⟩ := by
  rw [record?_object, record?_object, mapM_eq_map_mapM fun field _ => field?_replaced field,
    Option.map_map, Option.map_map]
  refine congrArg (Option.map · _) (funext fun found => ?_)
  exact congrArg Fields.mk List.map_flatten.symm

theorem Fields.get?_replaced (f : Fields) (field : String) :
    Fields.get? ⟨f.present.map (replaceMember name t)⟩ field =
      (f.get? field).map fun u => if field = name then t else u := by
  rw [get?, get?, List.find?_map, Option.map_map, Option.map_map]
  show ((f.present.find? fun m => m.1 = field).map _) = _
  cases hfind : f.present.find? fun m => m.1 = field with
  | none => rfl
  | some m =>
    have hname : m.1 = field := by simpa using List.find?_some hfind
    subst hname
    rfl

section OtherField

variable {α : Type} {field : String} (h : field ≠ name) (f : Fields) (decode : Tree → Option α)

include h

theorem Fields.required_replaced :
    Fields.required ⟨f.present.map (replaceMember name t)⟩ field decode =
      f.required field decode := by
  rw [required, required, get?_replaced, Option.map_congr fun _ _ => if_neg h, Option.map_id']

theorem Fields.withDefault_replaced (default : α) :
    Fields.withDefault ⟨f.present.map (replaceMember name t)⟩ field default decode =
      f.withDefault field default decode := by
  rw [withDefault, withDefault, get?_replaced, Option.map_congr fun _ _ => if_neg h, Option.map_id']

end OtherField

end Json

namespace Record

open Json

variable {p : Tree} {members : List (String × Tree)}

/-- Any tree that can be read does as the field of properties. -/
theorem exists_properties (hp : p.value?.isSome = true) (f : Fields) :
    ∃ properties, Fields.withDefault ⟨f.present.map (replaceMember "properties" p)⟩ "properties" []
      objectMembers? = some properties := by
  have hread : (objectMembers? p).isSome = true := by rwa [objectMembers?, Option.isSome_map]
  rw [Fields.withDefault, Fields.get?_replaced]
  cases f.get? "properties" with
  | none => exact ⟨[], rfl⟩
  | some t => exact Option.isSome_iff_exists.1 hread

theorem exists_nodeOfTree?_replaced (hp : p.value?.isSome = true) {r : Record}
    (h : nodeOfTree? (.object members) = some r) :
    ∃ r', nodeOfTree? (.object (members.map (replaceMember "properties" p))) = some r' ∧
      r'.outline = r.outline := by
  obtain ⟨f, hf, h⟩ := Option.bind_eq_some_iff.1 h
  obtain ⟨id, hid, h⟩ := Option.bind_eq_some_iff.1 h
  obtain ⟨labels, hlabels, h⟩ := Option.bind_eq_some_iff.1 h
  obtain ⟨_, -, h⟩ := Option.bind_eq_some_iff.1 h
  cases h
  obtain ⟨properties, hproperties⟩ := exists_properties hp f
  refine ⟨.node id labels properties, ?_, rfl⟩
  rw [nodeOfTree?, record?_replaced, hf, Option.map_some]
  show (Fields.required _ "id" _).bind _ = _
  rw [Fields.required_replaced (by decide), hid]
  show (Fields.withDefault _ "labels" _ _).bind _ = _
  rw [Fields.withDefault_replaced (by decide), hlabels]
  show (Fields.withDefault _ "properties" _ _).bind _ = _
  rw [hproperties]
  rfl

theorem exists_edgeOfTree?_replaced (hp : p.value?.isSome = true) {r : Record}
    (h : edgeOfTree? (.object members) = some r) :
    ∃ r', edgeOfTree? (.object (members.map (replaceMember "properties" p))) = some r' ∧
      r'.outline = r.outline := by
  obtain ⟨f, hf, h⟩ := Option.bind_eq_some_iff.1 h
  obtain ⟨label, hlabel, h⟩ := Option.bind_eq_some_iff.1 h
  obtain ⟨start, hstart, h⟩ := Option.bind_eq_some_iff.1 h
  obtain ⟨finish, hfinish, h⟩ := Option.bind_eq_some_iff.1 h
  obtain ⟨_, -, h⟩ := Option.bind_eq_some_iff.1 h
  cases h
  obtain ⟨properties, hproperties⟩ := exists_properties hp f
  refine ⟨.edge ⟨start, label, finish⟩ properties, ?_, rfl⟩
  rw [edgeOfTree?, record?_replaced, hf, Option.map_some]
  show (Fields.required _ "label" _).bind _ = _
  rw [Fields.required_replaced (by decide), hlabel]
  show (Fields.required _ "start" _).bind _ = _
  rw [Fields.required_replaced (by decide), hstart]
  show (Fields.required _ "end" _).bind _ = _
  rw [Fields.required_replaced (by decide), hfinish]
  show (Fields.withDefault _ "properties" _ _).bind _ = _
  rw [hproperties]
  rfl

theorem exists_ofTagged?_replaced (hp : p.value?.isSome = true) {tag : String} {r : Record}
    (h : ofTagged? tag (.object members) = some r) :
    ∃ r', ofTagged? tag (.object (members.map (replaceMember "properties" p))) = some r' ∧
      r'.outline = r.outline := by
  rw [ofTagged?] at h ⊢
  split_ifs at h ⊢
  · exact exists_nodeOfTree?_replaced hp h
  · exact exists_edgeOfTree?_replaced hp h

/-- Whatever can be read may stand as the properties of a record, and nothing else
of the record changes with it. -/
theorem exists_ofTree?_withMember (hp : p.value?.isSome = true) {t : Tree} {r : Record}
    (h : ofTree? t = some r) :
    ∃ r', ofTree? (t.withMember "properties" p) = some r' ∧ r'.outline = r.outline := by
  cases t with
  | object members =>
    obtain ⟨v, hv, h⟩ := Option.bind_eq_some_iff.1 h
    obtain ⟨f, hf, h⟩ := Option.bind_eq_some_iff.1 h
    obtain ⟨tag, htag, h⟩ := Option.bind_eq_some_iff.1 h
    obtain ⟨v', hv'⟩ := Option.isSome_iff_exists.1
      (isSome_value?_replaced "properties" hp (Option.isSome_iff_exists.2 ⟨v, hv⟩))
    obtain ⟨r', hr', houtline⟩ := exists_ofTagged?_replaced hp h
    refine ⟨r', ?_, houtline⟩
    rw [Tree.withMember, ofTree?, hv', Option.bind_eq_bind, Option.bind_some,
      record?_replaced, hf, Option.map_some, Option.bind_eq_bind, Option.bind_some,
      Fields.required_replaced (by decide), htag]
    exact hr'
  | _ => exact ⟨r, h, rfl⟩

end Record

/-! ### Records that differ in their properties only -/

namespace Graph

theorem labelsByEdge_of_library {strategy : EndpointStrategy}
    (h : strategy = .default ∨ ∃ c lexicon, strategy = EndpointConfig.strategy c lexicon) :
    strategy.LabelsByEdge := by
  obtain rfl | ⟨c, lexicon, rfl⟩ := h
  · exact EndpointStrategy.labelsByEdge_default
  · exact c.labelsByEdge_strategy lexicon

/-- An outline is read off the nodes and edges one by one. -/
theorem entries_of_outline_eq {g g' : Graph} (h : g.outline = g'.outline) :
    g.nodes.entries.map (fun e => (e.1, e.2.outline)) =
        g'.nodes.entries.map (fun e => (e.1, e.2.outline)) ∧
      g.edges.keys = g'.edges.keys := by
  refine ⟨congrArg (fun g => g.nodes.entries) h, ?_⟩
  have hedges := congrArg (fun g : Graph => g.edges.keys) h
  simpa only [outline, OrderedMap.keys_mapValues] using hedges

/-- **Properties never influence the outline of a graph.**  Records that differ in
their properties only, read into the empty graph with one of the strategies of
the library, are summed up alike; they give the same nodes in the same order with
the same labels and counts, the same edges in the same order, the same connected
nodes, and clusters of the same members.  Texts that hold just such records are
read to their end.  Of a record, whatever can be read may stand as properties,
and nothing else changes with it. -/
theorem readRecords_outline {strategy : EndpointStrategy}
    (hstrategy : strategy = .default ∨ ∃ c lexicon, strategy = EndpointConfig.strategy c lexicon)
    {records records' : List Record}
    (h : records.map Record.outline = records'.map Record.outline) :
    let read := readRecords strategy records
    let read' := readRecords strategy records'
    (∀ text, recordsOf? (textLines text) = some records →
        empty.readText strategy text = (read.1, .ok read.2)) ∧
      (∀ text, recordsOf? (textLines text) = some records' →
        empty.readText strategy text = (read'.1, .ok read'.2)) ∧
      (∀ (t p : Json.Tree) (r : Record), Record.ofTree? t = some r → p.value?.isSome = true →
        ∃ r', Record.ofTree? (t.withMember "properties" p) = some r' ∧
          r'.outline = r.outline) ∧
      read.2 = read'.2 ∧
      read.1.nodes.entries.map (fun e => (e.1, e.2.labels, e.2.incoming, e.2.outgoing)) =
        read'.1.nodes.entries.map (fun e => (e.1, e.2.labels, e.2.incoming, e.2.outgoing)) ∧
      read.1.edges.keys = read'.1.edges.keys ∧
      (∀ id relations, read.1.connected id relations = read'.1.connected id relations) ∧
      ∀ relations rankProperty, List.Forall₂ Cluster.SameMembers
        (read.1.clusters relations rankProperty) (read'.1.clusters relations rankProperty) := by
  intro read read'
  have hlabels : strategy.LabelsByEdge := labelsByEdge_of_library hstrategy
  have hread : (read.1.outline, read.2) = (read'.1.outline, read'.2) := by
    rw [← outline_readRecords hlabels, h, outline_readRecords hlabels]
  obtain ⟨houtline, hsummary⟩ := Prod.mk.inj hread
  obtain ⟨hnodes, hedges⟩ := entries_of_outline_eq houtline
  have hsound : ∀ records, (readRecords strategy records).1.Sound := fun records =>
    (sound_empty.grown strategy records).sound
  refine ⟨fun text htext => readLines_eq_readRecords htext,
    fun text htext => readLines_eq_readRecords htext,
    fun t p r hr hp => Record.exists_ofTree?_withMember hp hr, hsummary, ?_, hedges,
    connected_of_outline_eq houtline, fun relations rankProperty =>
      (hsound records).sameMembers_clusters (hsound records') houtline relations _ _⟩
  have hparts := congrArg
    (List.map fun e : NodeId × Node => (e.1, e.2.labels, e.2.incoming, e.2.outgoing)) hnodes
  rwa [List.map_map, List.map_map] at hparts

/-- An edge with a made-up end, to which its properties are handed on, and again. -/
def handingOn : List Record :=
  [.node (.int 1) ["DRUG"] [("lemma", .text "ksheera"), ("line_id", .int 3)],
    .edge ⟨.int 1, "PACIFIES", .int 2⟩ [("line_id", .array [.int 3, .int 4]), ("no", .null)],
    .edge ⟨.int 1, "PACIFIES", .int 2⟩ [("line_id", .int 5)]]

/-- The same records, with hardly any properties. -/
def handingNothingOn : List Record :=
  [.node (.int 1) ["DRUG"] [], .edge ⟨.int 1, "PACIFIES", .int 2⟩ [],
    .edge ⟨.int 1, "PACIFIES", .int 2⟩ [("auto", .bool false)]]

/-- Rules for one relation, with a lexicon. -/
def pacifying : EndpointStrategy :=
  EndpointConfig.strategy
    { rules := [{ relation := "PACIFIES", source := ["DRUG"], target := ["DOSHA"] }] }
    (.ofList [(.int 2, "vata")])

theorem readRecords_outline_handingOn :
    let read := readRecords pacifying handingOn
    let read' := readRecords pacifying handingNothingOn
    read.1 ≠ read'.1 ∧ read.2 = read'.2 ∧ read.1.edges.keys = read'.1.edges.keys ∧
      read.1.connected (.int 2) ["PACIFIES"] = read'.1.connected (.int 2) ["PACIFIES"] ∧
      List.Forall₂ Cluster.SameMembers (read.1.clusters ["PACIFIES"] "line_id")
        (read'.1.clusters ["PACIFIES"] "line_id") := by
  have hstrategy : pacifying = .default ∨
      ∃ c lexicon, pacifying = EndpointConfig.strategy c lexicon := .inr ⟨_, _, rfl⟩
  have hrecords : handingOn.map Record.outline = handingNothingOn.map Record.outline := rfl
  obtain ⟨-, -, -, hsummary, -, hedges, hconnected, hclusters⟩ :=
    readRecords_outline hstrategy hrecords
  exact ⟨by decide +kernel, hsummary, hedges, hconnected _ _, hclusters _ _⟩

end Graph

end PropertyGraph
