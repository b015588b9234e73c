/-
What a summary tells of the growth of a graph.

A stream of which no line is refused is read as the records in it, into whatever
graph is there.  Each of them is counted by its type, and an edge as merged also
if it was there before it.  So the summary, which is kept beside the graph, tells
how the graph has grown: by how many edges, and by how much the degrees, for an
edge is counted at both its ends each time it is read.

* **`exists_recordsOf?`** — what is read has a record on each line but the blank;
* **`Grown`** — what records have made of a graph and a summary;
* **`Grown.addRecord`**, **`Sound.grown`** — one record more, and all of them;
* **`readText_accounts`** — the same of texts and of graphs that updates build.
-/
import PropertyGraph.Proofs.Graph.Degrees
import PropertyGraph.Proofs.Record.Reordering

namespace PropertyGraph.Graph

variable {strategy : EndpointStrategy} {g g' : Graph} {s : ReadSummary} {records : List Record}

/-! ### The records of a stream -/

/-- A line that is neither blank nor a record would have been refused. -/
theorem exists_recordsOf? {lines : List String} {t : ReadSummary} {number : Nat}
    (h : g.readLines strategy s number lines = (g', .ok t)) :
    ∃ records, recordsOf? lines = some records := by
  induction lines generalizing g s number with
  | nil => exact ⟨[], rfl⟩
  | cons line lines ih =>
    rw [readLines] at h
    by_cases hblank : line.toList.all Text.isBlank = true
    · rw [if_pos hblank] at h
      rw [recordsOf?_cons_of_blank hblank]
      exact ih h
    · rw [if_neg hblank] at h
      rw [recordsOf?_cons_of_not_blank hblank]
      cases hr : Record.parse? line with
      | none =>
        rw [hr] at h
        cases h
      | some r =>
        rw [hr] at h
        obtain ⟨records, hrecords⟩ := ih h
        exact ⟨r :: records, by rw [hrecords]; rfl⟩

theorem length_of_recordsOf? {lines : List String} (h : recordsOf? lines = some records) :
    records.length = lines.countP fun line => !line.toList.all Text.isBlank := by
  induction lines generalizing records with
  | nil =>
    cases h
    rfl
  | cons line lines ih =>
    by_cases hblank : line.toList.all Text.isBlank = true
    · rw [recordsOf?_cons_of_blank hblank] at h
      rw [ih h, List.countP_cons_of_neg (by simp [hblank])]
    · rw [recordsOf?_cons_of_not_blank hblank] at h
      obtain ⟨r, -, h⟩ := Option.bind_eq_some_iff.1 h
      obtain ⟨rest, hrest, rfl⟩ := Option.map_eq_some_iff.1 h
      rw [List.length_cons, ih hrest, List.countP_cons_of_pos (by simp [hblank])]

/-! ### One record -/

theorem hasEdge_addRecord {r : Record} {k : EdgeKey} :
    (g.addRecord strategy r).hasEdge k = true ↔
      g.hasEdge k = true ∨ ∃ properties, r = .edge k properties := by
  rw [← edgeHas_true, edgeHas_addRecord Properties.additive_true, edgeHas_true]
  refine or_congr_right ?_
  cases r with
  | node => simp [Record.EdgeGives]
  | edge => simp [Record.EdgeGives, eq_comm]

/-- A node that is read leaves all degrees alone, also where it is updated. -/
theorem Sound.degreeSum_addRecord (hg : g.Sound) (strategy : EndpointStrategy) (r : Record) :
    (g.addRecord strategy r).degreeSum = g.degreeSum + 2 * [r].countP Record.isEdge := by
  cases r with
  | node id labels properties => exact degreeSum_addNode g id labels _
  | edge k properties => exact hg.degreeSum_addEdge strategy k _

/-! ### The growth of a graph -/

/-- A graph and a summary are what records have made of a graph `g`. -/
structure Grown (g : Graph) (records : List Record) (g' : Graph) (s : ReadSummary) : Prop where
  sound : g'.Sound
  hasNode : ∀ id, g'.hasNode id = true ↔ g.hasNode id = true ∨ ∃ r ∈ records, r.Names id
  hasEdge : ∀ k, g'.hasEdge k = true ↔
    g.hasEdge k = true ∨ ∃ r ∈ records, ∃ properties, r = .edge k properties
  degreeSum : g'.degreeSum = g.degreeSum + 2 * s.edges
  lines : s.lines = records.length
  nodes : s.nodes = records.countP (!·.isEdge)
  edges : s.edges = records.countP Record.isEdge

theorem Sound.grown_nil (hg : g.Sound) : Grown g [] g {} where
  sound := hg
  hasNode id := by simp
  hasEdge k := by simp
  degreeSum := rfl
  lines := rfl
  nodes := rfl
  edges := rfl

theorem Grown.addRecord (h : Grown g records g' s) (strategy : EndpointStrategy) (r : Record) :
    Grown g (records ++ [r]) (g'.addRecord strategy r) (g'.countRecord s r) where
  sound := h.sound.addRecord strategy r
  hasNode id := by
    rw [exists_mem_concat, ← or_assoc, ← h.hasNode]
    exact h.sound.hasNode_addRecord
  hasEdge k := by
    rw [exists_mem_concat, ← or_assoc, ← h.hasEdge]
    exact hasEdge_addRecord
  degreeSum := by
    rw [h.sound.degreeSum_addRecord, h.degreeSum, edges_countRecord]
    omega
  lines := by rw [lines_countRecord, h.lines, List.length_append, List.length_singleton]
  nodes := by rw [nodes_countRecord, h.nodes, List.countP_append]
  edges := by rw [edges_countRecord, h.edges, List.countP_append]

theorem Sound.grown (hg : g.Sound) (strategy : EndpointStrategy) (records : List Record) :
    let read := records.foldl (readRecord strategy) (g, {})
    Grown g records read.1 read.2 := by
  induction records using List.reverseRecOn with
  | nil => exact hg.grown_nil
  | append_singleton records r ih =>
    rw [List.foldl_append]
    exact ih.addRecord strategy r

/-- **The summary of a stream accounts for the growth of the graph.**  The lines
that it counts are those that are not blank; each is a record, of a node or of an
edge, and the records are counted by their type.  The edges that it counts and
does not call merged are those by which the graph has more edges than before.  The
sum of all degrees has grown by two for each edge that it counts, merged or not.
Nodes and edges that were there still are; what is new is exactly the edges that
are recorded, and the nodes that are recorded or named by such an edge. -/
theorem readText_accounts (updates : List (EndpointStrategy × Update))
    (strategy : EndpointStrategy) (text : String) {g' : Graph} {s : ReadSummary}
    (h : (run updates).readText strategy text = (g', .ok s)) :
    let g := run updates
    ∃ records, recordsOf? (textLines text) = some records ∧
      s.lines = s.nodes + s.edges ∧
      s.lines = (textLines text).countP (fun line => !line.toList.all Text.isBlank) ∧
      s.nodes = records.countP (!·.isEdge) ∧ s.edges = records.countP Record.isEdge ∧
      (s.edges : Int) - s.mergedEdges = g'.edgeCount - g.edgeCount ∧
      g'.degreeSum = g.degreeSum + 2 * s.edges ∧
      (∀ id, g'.hasNode id = true ↔ g.hasNode id = true ∨ ∃ r ∈ records, r.Names id) ∧
      ∀ k, g'.hasEdge k = true ↔
        g.hasEdge k = true ∨ ∃ properties, .edge k properties ∈ records := by
  intro g
  obtain ⟨records, hrecords⟩ := exists_recordsOf? h
  have hread : g.readText strategy text = _ := readLines_eq_foldl hrecords (g, {}) 1
  obtain ⟨hgraph, hsummary⟩ := Prod.mk.inj (hread.symm.trans h)
  have hgrown := (run_sound updates).grown strategy records
  dsimp only at hgrown
  rw [hgraph, Except.ok.inj hsummary] at hgrown
  refine ⟨records, hrecords, ?_, ?_, hgrown.nodes, hgrown.edges, ?_, hgrown.degreeSum,
    hgrown.hasNode, fun k => ?_⟩
  · have hsplit := List.length_eq_countP_add_countP Record.isEdge (l := records)
    simp only [Bool.not_eq_true, Bool.decide_eq_false] at hsplit
    rw [hgrown.lines, hgrown.nodes, hgrown.edges, hsplit, Nat.add_comm]
  · exact hgrown.lines.trans (length_of_recordsOf? hrecords)
  · have hmerged : s.mergedEdges + g'.edgeCount + 0 = s.edges + 0 + g.edgeCount :=
      mergedEdges_readLines h
    omega
  · rw [hgrown.hasEdge]
    refine or_congr_right ⟨?_, ?_⟩
    · rintro ⟨_, hr, properties, rfl⟩
      exact ⟨properties, hr⟩
    · rintro ⟨properties, hr⟩
      exact ⟨_, hr, properties, rfl⟩

/-- An edge that was there before, a node that was too, and an edge at one node. -/
theorem readText_accounts_loop :
    let updates : List (EndpointStrategy × Update) :=
      [(.default, .addEdge ⟨.int 1, "PACIFIES", .int 2⟩ .empty)]
    let text := "[\"edge\",\"PACIFIES\",[1],[2]]\n \n[\"node\",1]\n" ++
      "[\"edge\",\"PACIFIES\",[3],[3]]\n"
    let g := run updates
    ∃ g', g.readText .default text = (g', .ok ⟨3, 1, 2, 1⟩) ∧
      g'.edgeCount = g.edgeCount + 1 ∧ g'.degreeSum = g.degreeSum + 4 ∧
      g'.hasNode (.int 2) = true := by
  intro updates text g
  let g' := (g.readText .default text).1
  have hread : g.readText .default text = (g', .ok ⟨3, 1, 2, 1⟩) :=
    Prod.ext rfl (by decide +kernel)
  obtain ⟨_, -, -, -, -, -, hcount, hdegrees, hnode, -⟩ :=
    readText_accounts updates .default text hread
  have hcount : (2 : Int) - 1 = g'.edgeCount - g.edgeCount := hcount
  exact ⟨g', hread, by omega, hdegrees, (hnode (.int 2)).2 (.inl (by decide))⟩

end PropertyGraph.Graph
