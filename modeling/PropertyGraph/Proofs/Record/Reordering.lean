/-
The order of records does not matter.

Reading records makes a graph and a summary of which everything but the order is
told by the records one by one: a node is there if a record names it, a label or
a value if a record gives it, and a count is the number of the records that
count.  None of that depends on which record comes first, though a node that an
edge names too early is made up and marked.

* **`readLines_eq_readRecords`** — reading lines is reading their records;
* **`told_readRecords`** — what the records tell of graph and summary;
* **`Told.sameContent`** — records in another order tell the same;
* **`readRecords_perm`** — so the order makes no difference but for the mark.
-/
import Mathlib.Data.List.Induction
import PropertyGraph.Proofs.Graph.Moves
import PropertyGraph.Proofs.Record.Reading

namespace PropertyGraph

/-! ### What a record tells -/

namespace Record

/-- A record of a node, or of an edge at one of its ends. -/
def Names (id : NodeId) : Record → Prop
  | node id' _ _ => id = id'
  | edge k _ => id = k.start ∨ id = k.finish

/-- A record of a node whose content meets a condition. -/
def NodeGives (P : List String → Properties → Prop) (id : NodeId) : Record → Prop
  | node id' labels properties => id = id' ∧ P labels (.ofMembers properties)
  | edge _ _ => False

/-- A record of an edge whose properties meet a condition. -/
def EdgeGives (P : Properties → Prop) (k : EdgeKey) : Record → Prop
  | node _ _ _ => False
  | edge k' properties => k = k' ∧ P (.ofMembers properties)

/-- Whether an edge from `a` to `b` is recorded. -/
def links (a b : NodeId) : Record → Bool
  | node _ _ _ => false
  | edge k _ => a = k.start ∧ b = k.finish

end Record

namespace Graph

variable {g : Graph}

/-! ### Reading records one by one -/

/-- Adds a record and counts it. -/
def readRecord (strategy : EndpointStrategy) (state : Graph × ReadSummary) (r : Record) :
    Graph × ReadSummary :=
  (state.1.addRecord strategy r, state.1.countRecord state.2 r)

/-- Reads records into the empty graph. -/
def readRecords (strategy : EndpointStrategy) (records : List Record) : Graph × ReadSummary :=
  records.foldl (readRecord strategy) (empty, {})

/-- The records of lines that are records or blank. -/
def recordsOf? (lines : List String) : Option (List Record) :=
  (lines.filter fun line => !line.toList.all Text.isBlank).mapM Record.parse?

theorem recordsOf?_cons_of_blank {line : String} (h : line.toList.all Text.isBlank = true)
    (lines : List String) : recordsOf? (line :: lines) = recordsOf? lines := by
  rw [recordsOf?, List.filter_cons_of_neg (by simp [h])]
  rfl

theorem recordsOf?_cons_of_not_blank {line : String} (h : ¬line.toList.all Text.isBlank = true)
    (lines : List String) : recordsOf? (line :: lines) =
      (Record.parse? line).bind fun r => (recordsOf? lines).map (r :: ·) := by
  rw [recordsOf?, List.filter_cons_of_pos (by simp [h]), List.mapM_cons]
  simp only [recordsOf?, Option.map_eq_bind]
  rfl

theorem readLines_eq_foldl {strategy : EndpointStrategy} {lines : List String}
    {records : List Record} (h : recordsOf? lines = some records) (state : Graph × ReadSummary)
    (number : Nat) :
    readLines strategy state.1 state.2 number lines =
      ((records.foldl (readRecord strategy) state).1,
        .ok (records.foldl (readRecord strategy) state).2) := by
  induction lines generalizing records state number with
  | nil =>
    cases h
    rfl
  | cons line lines ih =>
    rw [readLines]
    by_cases hblank : line.toList.all Text.isBlank = true
    · rw [if_pos hblank]
      rw [recordsOf?_cons_of_blank hblank] at h
      exact ih h state (number + 1)
    · rw [if_neg hblank]
      rw [recordsOf?_cons_of_not_blank hblank] at h
      obtain ⟨r, hr, h⟩ := Option.bind_eq_some_iff.1 h
      obtain ⟨rest, hrest, rfl⟩ := Option.map_eq_some_iff.1 h
      rw [hr]
      exact ih hrest (readRecord strategy state r) (number + 1)

/-- Reading lines is reading their records. -/
theorem readLines_eq_readRecords {strategy : EndpointStrategy} {lines : List String}
    {records : List Record} (h : recordsOf? lines = some records) :
    readLines strategy empty {} 1 lines =
      ((readRecords strategy records).1, .ok (readRecords strategy records).2) :=
  readLines_eq_foldl h (empty, {}) 1

/-! ### The content of a node -/

/-- A node is stored with labels and properties that meet a condition. -/
def NodeHas (g : Graph) (P : List String → Properties → Prop) (id : NodeId) : Prop :=
  ∃ n, g.node? id = some n ∧ P n.labels n.properties

/-- A condition on the content of a node that an update meets exactly if it was
met or the submitted content meets it. -/
structure AdditiveContent (P : List String → Properties → Prop) : Prop where
  create : ∀ labels properties, P (appendNew [] labels) properties ↔ P labels properties
  update : ∀ labels labels' properties properties',
    P (appendNew labels labels') (properties.merge properties') ↔
      P labels properties ∨ P labels' properties'

theorem additiveContent_label (l : String) : AdditiveContent fun labels _ => l ∈ labels where
  create labels _ := by simp
  update labels labels' _ _ := mem_appendNew

theorem additiveContent_properties {P : Properties → Prop} (hP : Properties.Additive P) :
    AdditiveContent fun _ properties => P properties where
  create _ _ := Iff.rfl
  update _ _ properties properties' := hP properties properties'

variable {P : List String → Properties → Prop}

theorem nodeHas_addNode (hP : AdditiveContent P) {id other : NodeId} {labels : List String}
    {properties : Properties} :
    (g.addNode id labels properties).NodeHas P other ↔
      g.NodeHas P other ∨ other = id ∧ P labels properties := by
  rw [NodeHas, node?_addNode]
  by_cases h : other = id
  · subst h
    cases hold : g.node? other with
    | none => simp [NodeHas, hold, Node.create, hP.create]
    | some n => simp [NodeHas, hold, Node.update, hP.update]
  · simp [NodeHas, h]

theorem nodeHas_countEdge {k : EdgeKey} {id : NodeId} :
    (g.countEdge k).NodeHas P id ↔ g.NodeHas P id := by
  rw [NodeHas, node?_countEdge, NodeHas]
  cases g.node? id <;> simp

/-- What the graph makes up has no label and no property but the mark. -/
theorem nodeHas_addEndpoints (hP : AdditiveContent P) (hmark : ¬P [] autoProperties)
    {k : EdgeKey} {properties : Properties} {id : NodeId} :
    (addEndpoints .default g k properties).NodeHas P id ↔ g.NodeHas P id := by
  have hnew : ∀ (h : Graph) (new : NodeId),
      (h.addNode new [] autoProperties).NodeHas P id ↔ h.NodeHas P id := fun h new => by
    rw [nodeHas_addNode hP]
    exact or_iff_left fun hgiven => hmark hgiven.2
  simp only [addEndpoints, EndpointStrategy.default]
  split <;> split <;> simp only [hnew]

theorem nodeHas_addEdge (hP : AdditiveContent P) (hmark : ¬P [] autoProperties)
    {k : EdgeKey} {properties : Properties} {id : NodeId} :
    (g.addEdge .default k properties).NodeHas P id ↔ g.NodeHas P id := by
  rw [addEdge_eq, nodeHas_countEdge]
  have hnodes : ∀ (h : Graph) (edges : OrderedMap EdgeKey Edge),
      NodeHas { h with edges } P id ↔ h.NodeHas P id := fun _ _ => Iff.rfl
  rw [hnodes]
  split
  · exact Iff.rfl
  · exact nodeHas_addEndpoints hP hmark

/-! ### One record -/

theorem Sound.addRecord (hg : g.Sound) (strategy : EndpointStrategy) (r : Record) :
    (g.addRecord strategy r).Sound :=
  (invariant_sound strategy).addRecord hg trivial

/-- A record brings in the nodes that it names and no others. -/
theorem Sound.hasNode_addRecord (hg : g.Sound) {strategy : EndpointStrategy} {r : Record}
    {id : NodeId} : (g.addRecord strategy r).hasNode id = true ↔ g.hasNode id = true ∨ r.Names id := by
  cases r with
  | node => exact hasNode_addNode.trans or_comm
  | edge => exact hasNode_addEdge hg

theorem nodeHas_addRecord (hP : AdditiveContent P) (hmark : ¬P [] autoProperties) {r : Record}
    {id : NodeId} :
    (g.addRecord .default r).NodeHas P id ↔ g.NodeHas P id ∨ r.NodeGives P id := by
  cases r with
  | node => exact nodeHas_addNode hP
  | edge => exact (nodeHas_addEdge hP hmark).trans (or_iff_left not_false).symm

theorem edgeHas_addRecord {strategy : EndpointStrategy} {P : Properties → Prop}
    (hP : Properties.Additive P) {r : Record} {k : EdgeKey} :
    (g.addRecord strategy r).EdgeHas P k ↔ g.EdgeHas P k ∨ r.EdgeGives P k := by
  cases r with
  | node => exact (or_iff_left not_false).symm
  | edge => exact edgeHas_addEdge hP

theorem Sound.outCount_addRecord (hg : g.Sound) (strategy : EndpointStrategy) (r : Record)
    (a b : NodeId) : (g.addRecord strategy r).outCount a b =
      g.outCount a b + [r].countP (Record.links a b) := by
  cases r with
  | node => exact outCount_addNode ..
  | edge =>
    rw [Graph.addRecord, outCount_addEdge hg]
    simp [Record.links, List.countP_singleton]

theorem lines_countRecord (g : Graph) (s : ReadSummary) (r : Record) :
    (g.countRecord s r).lines = s.lines + 1 := by
  cases r <;> rfl

theorem nodes_countRecord (g : Graph) (s : ReadSummary) (r : Record) :
    (g.countRecord s r).nodes = s.nodes + [r].countP (!·.isEdge) := by
  cases r <;> rfl

theorem edges_countRecord (g : Graph) (s : ReadSummary) (r : Record) :
    (g.countRecord s r).edges = s.edges + [r].countP Record.isEdge := by
  cases r <;> rfl

/-! ### What records tell -/

/-- A graph and a summary are what records tell, one by one. -/
structure Told (records : List Record) (g : Graph) (s : ReadSummary) : Prop where
  sound : g.Sound
  hasNode : ∀ id, g.hasNode id = true ↔ ∃ r ∈ records, r.Names id
  nodeHas : ∀ P, AdditiveContent P → ¬P [] autoProperties →
    ∀ id, g.NodeHas P id ↔ ∃ r ∈ records, r.NodeGives P id
  edgeHas : ∀ P, Properties.Additive P → ∀ k, g.EdgeHas P k ↔ ∃ r ∈ records, r.EdgeGives P k
  outCount : ∀ a b, g.outCount a b = records.countP (Record.links a b)
  lines : s.lines = records.length
  nodes : s.nodes = records.countP (!·.isEdge)
  edges : s.edges = records.countP Record.isEdge
  mergedEdges : s.mergedEdges + g.edgeCount = s.edges

theorem exists_mem_concat {P : Record → Prop} {records : List Record} {r : Record} :
    (∃ r' ∈ records ++ [r], P r') ↔ (∃ r' ∈ records, P r') ∨ P r := by
  simp only [List.mem_append, List.mem_singleton, or_and_right, exists_or, exists_eq_left]

theorem told_empty : Told [] empty {} where
  sound := sound_empty
  hasNode id := by simp [Graph.hasNode, empty, OrderedMap.contains, OrderedMap.empty]
  nodeHas P hP hmark id := by simp [NodeHas, node?, empty]
  edgeHas P hP k := by simp [EdgeHas, empty]
  outCount a b := rfl
  lines := rfl
  nodes := rfl
  edges := rfl
  mergedEdges := rfl

variable {records records' : List Record} {s s' : ReadSummary}

theorem Told.addRecord (h : Told records g s) (r : Record) :
    Told (records ++ [r]) (g.addRecord .default r) (g.countRecord s r) where
  sound := h.sound.addRecord .default r
  hasNode id := by
    rw [exists_mem_concat, ← h.hasNode]
    exact h.sound.hasNode_addRecord
  nodeHas P hP hmark id := by
    rw [exists_mem_concat, ← h.nodeHas P hP hmark]
    exact nodeHas_addRecord hP hmark
  edgeHas P hP k := by
    rw [exists_mem_concat, ← h.edgeHas P hP]
    exact edgeHas_addRecord hP
  outCount a b := by rw [h.sound.outCount_addRecord, h.outCount, List.countP_append]
  lines := by rw [lines_countRecord, h.lines, List.length_append, List.length_singleton]
  nodes := by rw [nodes_countRecord, h.nodes, List.countP_append]
  edges := by rw [edges_countRecord, h.edges, List.countP_append]
  mergedEdges := by
    have hstep := mergedEdges_countRecord .default g s r
    have hmerged := h.mergedEdges
    omega

theorem told_readRecords (records : List Record) :
    Told records (readRecords .default records).1 (readRecords .default records).2 := by
  induction records using List.reverseRecOn with
  | nil => exact told_empty
  | append_singleton records r ih =>
    rw [readRecords, List.foldl_append]
    exact ih.addRecord r

/-! ### Records in another order -/

/-- The labels of a node, none if it is not stored. -/
def labelsOf (g : Graph) (id : NodeId) : List String := ((g.node? id).map Node.labels).getD []

/-- The properties of a node, none if it is not stored. -/
def propertiesOf (g : Graph) (id : NodeId) : Properties :=
  ((g.node? id).map Node.properties).getD .empty

/-- The properties of an edge, none if it is not stored. -/
def edgePropertiesOf (g : Graph) (k : EdgeKey) : Properties :=
  ((g.edge? k).map Edge.properties).getD .empty

/-- Two graphs have the same nodes, edges, counts, labels and values, in whatever
order.  Values are told apart as values of properties are, and what nodes have
under the mark does not matter. -/
structure SameContent (g g' : Graph) : Prop where
  hasNode : ∀ id, g.hasNode id = g'.hasNode id
  hasEdge : ∀ k, g.hasEdge k = g'.hasEdge k
  outCount : ∀ a b, g.outCount a b = g'.outCount a b
  inCount : ∀ a b, g.inCount a b = g'.inCount a b
  labels : ∀ id l, l ∈ g.labelsOf id ↔ l ∈ g'.labelsOf id
  nodeValues : ∀ id key, key ≠ autoKey → ∀ v : Value,
    v.isIn ((g.propertiesOf id).valuesAt key) = v.isIn ((g'.propertiesOf id).valuesAt key)
  edgeValues : ∀ k key, ∀ v : Value,
    v.isIn ((g.edgePropertiesOf k).valuesAt key) = v.isIn ((g'.edgePropertiesOf k).valuesAt key)

theorem mem_labelsOf {id : NodeId} {l : String} :
    l ∈ g.labelsOf id ↔ g.NodeHas (fun labels _ => l ∈ labels) id := by
  rw [labelsOf, NodeHas]
  cases g.node? id <;> simp

theorem isIn_propertiesOf_iff {id : NodeId} {key : String} {v : Value} :
    v.isIn ((g.propertiesOf id).valuesAt key) = true ↔
      g.NodeHas (fun _ m => ∃ w ∈ m.valuesAt key, w.same v = true) id := by
  rw [Value.isIn_eq_true_iff, propertiesOf, NodeHas]
  cases g.node? id <;> simp [Properties.valuesAt]

theorem isIn_edgePropertiesOf_iff {k : EdgeKey} {key : String} {v : Value} :
    v.isIn ((g.edgePropertiesOf k).valuesAt key) = true ↔
      g.EdgeHas (fun m => ∃ w ∈ m.valuesAt key, w.same v = true) k := by
  rw [Value.isIn_eq_true_iff, edgePropertiesOf, edge?, EdgeHas]
  cases g.edges.get? k <;> simp [Properties.valuesAt]

/-- Under any other key, what the graph makes up has no value. -/
theorem valuesAt_autoProperties {key : String} (hkey : key ≠ autoKey) :
    autoProperties.valuesAt key = [] := by
  rw [Properties.valuesAt, autoProperties, Properties.set, OrderedMap.get?_insert, if_neg hkey]
  rfl

variable {g' : Graph}

/-- **Records in another order tell the same.** -/
theorem Told.sameContent (h : Told records g s) (h' : Told records' g' s')
    (hperm : records.Perm records') : g.SameContent g' := by
  have hexists : ∀ P : Record → Prop, (∃ r ∈ records, P r) ↔ ∃ r ∈ records', P r := fun P =>
    exists_congr fun r => and_congr_left' hperm.mem_iff
  have hnode : ∀ P, AdditiveContent P → ¬P [] autoProperties →
      ∀ id, g.NodeHas P id ↔ g'.NodeHas P id := fun P hP hmark id => by
    rw [h.nodeHas P hP hmark, h'.nodeHas P hP hmark, hexists]
  have hedge : ∀ P, Properties.Additive P → ∀ k, g.EdgeHas P k ↔ g'.EdgeHas P k := fun P hP k => by
    rw [h.edgeHas P hP, h'.edgeHas P hP, hexists]
  have hout : ∀ a b, g.outCount a b = g'.outCount a b := fun a b => by
    rw [h.outCount, h'.outCount, hperm.countP_eq]
  have hadditive : ∀ (v : Value) (key : String), Properties.Additive fun m =>
      ∃ w ∈ m.valuesAt key, w.same v = true := fun v key =>
    Properties.additive_exists_valuesAt (Value.respected_same v) key
  constructor
  case hasNode =>
    intro id
    rw [Bool.eq_iff_iff, h.hasNode, h'.hasNode, hexists]
  case hasEdge =>
    intro k
    rw [Bool.eq_iff_iff, ← edgeHas_true, ← edgeHas_true]
    exact hedge _ Properties.additive_true k
  case outCount => exact hout
  case inCount =>
    intro a b
    rw [← h.sound.outCount_eq_inCount, ← h'.sound.outCount_eq_inCount, hout]
  case labels =>
    intro id l
    rw [mem_labelsOf, mem_labelsOf]
    exact hnode _ (additiveContent_label l) List.not_mem_nil id
  case nodeValues =>
    intro id key hkey v
    rw [Bool.eq_iff_iff, isIn_propertiesOf_iff, isIn_propertiesOf_iff]
    refine hnode _ (additiveContent_properties (hadditive v key)) ?_ id
    rw [valuesAt_autoProperties hkey]
    simp
  case edgeValues =>
    intro k key v
    rw [Bool.eq_iff_iff, isIn_edgePropertiesOf_iff, isIn_edgePropertiesOf_iff]
    exact hedge _ (hadditive v key) k

theorem edgeCount_eq_of_hasEdge_eq (h : ∀ k, g.hasEdge k = g'.hasEdge k) :
    g.edgeCount = g'.edgeCount := by
  have hperm : g.edges.keys.Perm g'.edges.keys := by
    refine (List.perm_ext_iff_of_nodup g.edges.nodup g'.edges.nodup).2 fun k => ?_
    exact OrderedMap.contains_eq_true_iff.symm.trans
      ((Bool.eq_iff_iff.1 (h k)).trans OrderedMap.contains_eq_true_iff)
  rw [edgeCount_eq_length_keys, edgeCount_eq_length_keys, hperm.length_eq]

/-- They are summed up alike as well. -/
theorem Told.summary_eq (h : Told records g s) (h' : Told records' g' s')
    (hperm : records.Perm records') : s = s' := by
  have hlines : s.lines = s'.lines := by rw [h.lines, h'.lines, hperm.length_eq]
  have hnodes : s.nodes = s'.nodes := by rw [h.nodes, h'.nodes, hperm.countP_eq]
  have hedges : s.edges = s'.edges := by rw [h.edges, h'.edges, hperm.countP_eq]
  have hmerged : s.mergedEdges = s'.mergedEdges := by
    have hcount := edgeCount_eq_of_hasEdge_eq (h.sameContent h' hperm).hasEdge
    have hsum := h.mergedEdges
    have hsum' := h'.mergedEdges
    omega
  cases s
  cases s'
  simp_all

/-- **The order in which records are read makes no difference** to the summary,
to the nodes, edges and counts, to the labels and, but for the mark on what the
graph has made up, to the values of properties.  Reading lines is reading the
records in them. -/
theorem readRecords_perm {records records' : List Record} (h : records.Perm records') :
    let read := readRecords .default records
    let read' := readRecords .default records'
    read.2 = read'.2 ∧ read.1.SameContent read'.1 ∧
      (∀ lines, recordsOf? lines = some records →
        empty.readLines .default {} 1 lines = (read.1, .ok read.2)) ∧
      ∀ lines, recordsOf? lines = some records' →
        empty.readLines .default {} 1 lines = (read'.1, .ok read'.2) :=
  ⟨(told_readRecords records).summary_eq (told_readRecords records') h,
    (told_readRecords records).sameContent (told_readRecords records') h,
    fun _ => readLines_eq_readRecords, fun _ => readLines_eq_readRecords⟩

/-- An edge whose start is recorded twice, once before it and once behind it, and
whose end is not recorded. -/
def straggling : List Record :=
  [.node (.int 1) ["SUBSTANCE"] [("lemma", .text "ksheera")],
    .edge ⟨.int 1, "PACIFIES", .int 2⟩ [("line_id", .int 3)],
    .node (.int 1) ["DRAVYA"] [("lemma", .text "payas"), ("line_id", .array [.int 3, .int 4])],
    .edge ⟨.int 1, "PACIFIES", .int 2⟩ [("line_id", .array [.int 5, .int 3])]]

theorem readRecords_perm_reverse :
    straggling.Perm straggling.reverse ∧
      (readRecords .default straggling).1 ≠ (readRecords .default straggling.reverse).1 ∧
      (readRecords .default straggling).2 = (readRecords .default straggling.reverse).2 ∧
      (readRecords .default straggling).1.SameContent
        (readRecords .default straggling.reverse).1 := by
  have hperm : straggling.Perm straggling.reverse := straggling.reverse_perm.symm
  obtain ⟨hsummary, hcontent, -⟩ := readRecords_perm hperm
  exact ⟨hperm, by decide, hsummary, hcontent⟩

end Graph

end PropertyGraph
