/-
A graph written as lines and read again.

Nodes are written before edges, so every edge finds both its ends, and nothing
is made up; no two records name the same node or edge, so nothing is merged.
What is read is the graph that was written, but for its counters: each edge is
counted once, however often it had been submitted.

* **`readLines_records`** — the lines of readable records add the records;
* **`textLines_toClosedLines`** — the lines that a graph is written as;
* **`addRecords_nodes`**, **`addRecords_edges`** — what adding new nodes, and
  then new edges between them, makes of a graph;
* **`reread_toLines`** — the whole round trip.
-/
import PropertyGraph.Proofs.Graph.Stored
import PropertyGraph.Proofs.Record.Splitting

namespace PropertyGraph

open Json

/-! ### Lines -/

/-- Records are objects, so their lines are not blank. -/
theorem Record.not_blank_line (r : Record) : r.line.toList.all Text.isBlank = false := by
  have hbrace : Text.isBlank '{' = false := by decide
  cases r <;> simp [Record.line, Record.toJson, compact, hbrace]

theorem Record.newline_notMem_line (r : Record) : '\n' ∉ r.line.toList := fun hmem =>
  not_control_compact r.toJson '\n' hmem (by decide)

namespace Graph

variable {strategy : EndpointStrategy} {g : Graph}

/-- The lines of readable records add the records. -/
theorem readLines_records {records : List Record}
    (h : ∀ r ∈ records, Readable Tree.maxDepth r.toJson) (g : Graph) (s : ReadSummary)
    (number : Nat) :
    ∃ s', g.readLines strategy s number (records.map Record.line) =
      (records.foldl (addRecord strategy) g, .ok s') := by
  induction records generalizing g s number with
  | nil => exact ⟨s, rfl⟩
  | cons r records ih =>
    obtain ⟨hr, hrest⟩ := List.forall_mem_cons.1 h
    rw [List.map_cons, readLines, r.not_blank_line, if_neg Bool.false_ne_true,
      Record.parse?_line hr]
    exact ih hrest _ _ _

/-- The lines of a text are those that it has been joined from. -/
theorem textLines_intercalate {lines : List String} (hlines : ∀ l ∈ lines, '\n' ∉ l.toList)
    (hne : lines ≠ []) : textLines ("\n".intercalate lines) = lines := by
  have hsplit : (['\n'].intercalate (lines.map String.toList)).splitOn '\n' =
      lines.map String.toList :=
    List.splitOn_intercalate '\n' (by simpa using hlines) (by simpa using hne)
  have hnewline : "\n".toList = ['\n'] := by decide
  rw [textLines, String.toList_intercalate, hnewline, hsplit, List.map_map]
  simp [Function.comp_def]

/-- The text of readable records is read by adding them to the empty graph. -/
theorem ofLines_records {records : List Record}
    (h : ∀ r ∈ records, Readable Tree.maxDepth r.toJson) :
    ofLines ("\n".intercalate (records.map Record.line)) =
      .ok (records.foldl (addRecord .default) empty) := by
  by_cases hne : records = []
  · subst hne
    rfl
  · have hlines : ∀ l ∈ records.map Record.line, '\n' ∉ l.toList := by
      intro l hl
      obtain ⟨r, hr, rfl⟩ := List.mem_map.1 hl
      exact r.newline_notMem_line
    obtain ⟨s, hs⟩ : ∃ s, empty.readLines .default {} 1 (records.map Record.line) =
        (records.foldl (addRecord .default) empty, .ok s) := readLines_records h empty {} 1
    rw [ofLines, readText, textLines_intercalate hlines (by simpa using hne), hs]

/-- What `writeLines` writes, and how many lines that are. -/
theorem writeLines_eq (g : Graph) :
    g.writeLines = (String.join (g.records.map fun r => r.line ++ "\n"), g.records.length) := by
  suffices hfold : ∀ (records : List Record) (text : String) (written : Nat),
      records.foldl Record.write (text, written) =
        (text ++ String.join (records.map fun r => r.line ++ "\n"), written + records.length) by
    rw [writeLines, hfold, String.empty_append, Nat.zero_add]
  intro records
  induction records with
  | nil => simp
  | cons r records ih =>
    intro text written
    rw [List.foldl_cons, Record.write, ih, List.map_cons, String.join_cons, List.length_cons]
    simp only [String.append_assoc, Nat.add_assoc, Nat.add_comm 1]

/-- The records stand on a line each, and nothing stands behind the last line end. -/
theorem textLines_toClosedLines (g : Graph) :
    textLines g.toClosedLines = g.records.map Record.line ++ [""] := by
  have hlines : ∀ l ∈ g.records.map Record.line, '\n' ∉ l.toList := by
    rw [List.forall_mem_map]
    exact fun r _ => r.newline_notMem_line
  have htext : g.toClosedLines = closedText (g.records.map Record.line) := by
    rw [toClosedLines, writeLines_eq, closedText, List.map_map]
    rfl
  rw [htext, textLines_closedText hlines]

theorem length_records (g : Graph) : g.records.length = g.nodeCount + g.edgeCount := by
  simp only [records, List.length_append, List.length_map, OrderedMap.length_values]
  rfl

/-! ### Nodes -/

theorem keys_addNode_of_new {id : NodeId} (hid : id ∉ g.nodes.keys) (labels : List String)
    (properties : Properties) :
    (g.addNode id labels properties).nodes.keys = g.nodes.keys ++ [id] := by
  have hnone : g.nodes.get? id = none := OrderedMap.get?_eq_none_iff.2 hid
  rw [addNode, hnone]
  exact (OrderedMap.keys_insert _ _ _).trans (if_neg hid)

theorem contents_addNode_of_new {id : NodeId} (hid : id ∉ g.nodes.keys) {labels : List String}
    (hlabels : labels.Nodup) (properties : Properties) :
    (g.addNode id labels properties).contents = g.contents ++ [(id, labels, properties)] := by
  have hmissing : g.hasNode id = false :=
    hasNode_eq_false_iff.2 (OrderedMap.get?_eq_none_iff.2 hid)
  have hkept : appendNew [] labels = labels := appendNew_eq_append hlabels
  rw [contents_addNode_of_missing hmissing, hkept]

/-- New nodes are appended with all that they hold, and count nothing. -/
theorem addRecords_nodes {nodes : List Node}
    (hnodes : ∀ n ∈ nodes, n.properties.Recordable ∧ n.labels.Nodup) {g : Graph}
    (hnew : (g.nodes.keys ++ nodes.map Node.id).Nodup) :
    let g' := (nodes.map Record.ofNode).foldl (addRecord strategy) g
    g'.contents = g.contents ++ nodes.map (fun n => (n.id, n.labels, n.properties)) ∧
      g'.edges = g.edges ∧ ∀ a b, g'.outCount a b = g.outCount a b := by
  induction nodes generalizing g with
  | nil => exact ⟨(List.append_nil _).symm, rfl, fun _ _ => rfl⟩
  | cons n nodes ih =>
    obtain ⟨⟨hrecordable, hlabels⟩, hrest⟩ := List.forall_mem_cons.1 hnodes
    have hid : n.id ∉ g.nodes.keys := fun h =>
      (List.nodup_append.1 hnew).2.2 n.id h n.id List.mem_cons_self rfl
    have hadd : g.addRecord strategy (Record.ofNode n) = g.addNode n.id n.labels n.properties := by
      rw [Record.ofNode, addRecord, Properties.ofMembers_toJson hrecordable]
    have hnew' : ((g.addNode n.id n.labels n.properties).nodes.keys ++
        nodes.map Node.id).Nodup := by
      rw [keys_addNode_of_new hid, List.append_assoc]
      exact hnew
    obtain ⟨hcontents, hedges, hcounts⟩ := ih hrest hnew'
    rw [List.map_cons, List.foldl_cons, hadd]
    refine ⟨?_, hedges, fun a b => (hcounts a b).trans (outCount_addNode g n.id _ _ a b)⟩
    rw [hcontents, contents_addNode_of_new hid hlabels, List.append_assoc]
    rfl

/-! ### Edges -/

theorem addEdge_of_new {k : EdgeKey} (hs : g.hasNode k.start = true)
    (hf : g.hasNode k.finish = true) (hk : k ∉ g.edges.keys) (properties : Properties) :
    g.addEdge strategy k properties =
      countEdge { g with edges := g.edges.insert k ⟨k, properties⟩ } k := by
  have hnone : g.edges.get? k = none := OrderedMap.get?_eq_none_iff.2 hk
  have hends : addEndpoints strategy g k properties = g := by
    simp only [addEndpoints, hs, hf, if_true]
  rw [addEdge, hnone]
  simp only [hends]

/-- A new edge between stored nodes is counted as the one edge that it is. -/
theorem outCount_addEdge_of_new {k : EdgeKey} (hs : g.hasNode k.start = true)
    (hf : g.hasNode k.finish = true) (hk : k ∉ g.edges.keys) (properties : Properties)
    (hcount : ∀ a b, g.outCount a b = (g.edgesBetween a b).length) (a b : NodeId) :
    (g.addEdge strategy k properties).outCount a b =
      ((g.addEdge strategy k properties).edgesBetween a b).length := by
  have hnew : ¬g.hasEdge k = true := fun h => hk (OrderedMap.contains_eq_true_iff.1 h)
  rw [addEdge_of_new hs hf hk, outCount_countEdge _ _ (by exact hs)]
  calc g.outCount a b + _ = (g.edgesBetween a b).length + _ := by rw [hcount]
    _ = _ := (length_edgesBetween_insert_of_new hnew ⟨k, properties⟩ a b).symm

/-- New edges between stored nodes are appended, and each is counted once. -/
theorem addRecords_edges {edges : List Edge}
    (hrecordable : ∀ e ∈ edges, e.properties.Recordable) {g : Graph}
    (hends : ∀ e ∈ edges, g.hasNode e.key.start = true ∧ g.hasNode e.key.finish = true)
    (hnew : (g.edges.keys ++ edges.map Edge.key).Nodup)
    (hcount : ∀ a b, g.outCount a b = (g.edgesBetween a b).length) :
    let g' := (edges.map Record.ofEdge).foldl (addRecord strategy) g
    g'.contents = g.contents ∧
      g'.edges.entries = g.edges.entries ++ edges.map (fun e => (e.key, e)) ∧
      ∀ a b, g'.outCount a b = (g'.edgesBetween a b).length := by
  induction edges generalizing g with
  | nil => exact ⟨rfl, (List.append_nil _).symm, hcount⟩
  | cons e edges ih =>
    obtain ⟨hp, hrest⟩ := List.forall_mem_cons.1 hrecordable
    obtain ⟨⟨hs, hf⟩, hendsRest⟩ := List.forall_mem_cons.1 hends
    have hk : e.key ∉ g.edges.keys := fun h =>
      (List.nodup_append.1 hnew).2.2 e.key h e.key List.mem_cons_self rfl
    have hadd : g.addRecord strategy (Record.ofEdge e) =
        g.addEdge strategy e.key e.properties := by
      rw [Record.ofEdge, addRecord, Properties.ofMembers_toJson hp]
    have hedges : (g.addEdge strategy e.key e.properties).edges = g.edges.insert e.key e := by
      rw [addEdge_of_new hs hf hk, edges_countEdge]
    have hcontents : (g.addEdge strategy e.key e.properties).contents = g.contents :=
      contents_addEdge hs hf e.properties
    have hends' : ∀ e' ∈ edges,
        (g.addEdge strategy e.key e.properties).hasNode e'.key.start = true ∧
          (g.addEdge strategy e.key e.properties).hasNode e'.key.finish = true := fun e' he' => by
      rw [hasNode_of_contents_eq hcontents, hasNode_of_contents_eq hcontents]
      exact hendsRest e' he'
    have hnew' : ((g.addEdge strategy e.key e.properties).edges.keys ++
        edges.map Edge.key).Nodup := by
      rw [hedges, OrderedMap.keys_insert, if_neg hk, List.append_assoc]
      exact hnew
    have hcount' : ∀ a b, (g.addEdge strategy e.key e.properties).outCount a b =
        ((g.addEdge strategy e.key e.properties).edgesBetween a b).length :=
      outCount_addEdge_of_new hs hf hk e.properties hcount
    obtain ⟨hc, he, hn⟩ := ih hrest hends' hnew' hcount'
    rw [List.map_cons, List.foldl_cons, hadd]
    refine ⟨hc.trans hcontents, ?_, hn⟩
    rw [he, hedges, OrderedMap.entries_insert_of_notMem hk, List.append_assoc]
    rfl

/-! ### The round trip -/

/-- The doubles among all stored properties. -/
def floats (g : Graph) : List Double :=
  (g.nodes.values.flatMap fun n => n.properties.floats) ++
    g.edges.values.flatMap fun e => e.properties.floats

/-- The records of a graph tell no more than its contents and its edges. -/
theorem records_congr {g' : Graph} (hg : g.Keyed) (hg' : g'.Keyed)
    (hcontents : g'.contents = g.contents) (hedges : g'.edges = g.edges) :
    g'.records = g.records := by
  have hrecords : ∀ {h : Graph}, h.Keyed → h.records =
      (h.contents.map fun c =>
        Record.node c.1 c.2.1 (c.2.2.entries.map fun e => (e.1, e.2.toJson))) ++
        h.edges.values.map Record.ofEdge := fun hh => by
    rw [records, hh.contents_eq, List.map_map]
    rfl
  rw [hrecords hg', hrecords hg, hcontents, hedges]

/-- The records of a graph can be read back, if its doubles can. -/
theorem Holds.readable_records (hg : g.Holds Properties.Recordable)
    (hread : ∀ x ∈ g.floats, ReadsBack x) {depth : Nat} :
    ∀ r ∈ g.records, Readable (depth + 3) r.toJson := by
  intro r hr
  rcases List.mem_append.1 hr with hr | hr
  · obtain ⟨n, hn, rfl⟩ := List.mem_map.1 hr
    obtain ⟨id, hid⟩ := OrderedMap.mem_values_iff.1 hn
    refine Record.readable_ofNode (hg.node id n hid) fun x hx => ?_
    exact hread x (List.mem_append_left _ (List.mem_flatMap.2 ⟨n, hn, hx⟩))
  · obtain ⟨e, he, rfl⟩ := List.mem_map.1 hr
    obtain ⟨k, hk⟩ := OrderedMap.mem_values_iff.1 he
    refine Record.readable_ofEdge (hg.edge k e hk) fun x hx => ?_
    exact hread x (List.mem_append_right _ (List.mem_flatMap.2 ⟨e, he, hx⟩))

/-- A double that is stored can be written. -/
theorem Holds.isFinite_of_mem_floats (hg : g.Holds Properties.Recordable) {x : Double}
    (hx : x ∈ g.floats) : x.isFinite = true := by
  have hmap : ∀ m : Properties, m.Recordable → x ∈ m.floats → x.isFinite = true := by
    intro m hm hx
    obtain ⟨p, hp, hx⟩ := List.mem_flatMap.1 hx
    obtain ⟨e, he, rfl⟩ := List.mem_map.1 hp
    obtain ⟨v, hv, hx⟩ := List.mem_filterMap.1 hx
    have hfinite := (hm e he).finite v hv
    cases v <;> cases hx
    exact hfinite
  rcases List.mem_append.1 hx with hx | hx
  · obtain ⟨n, hn, hx⟩ := List.mem_flatMap.1 hx
    obtain ⟨id, hid⟩ := OrderedMap.mem_values_iff.1 hn
    exact hmap _ (hg.node id n hid) hx
  · obtain ⟨e, he, hx⟩ := List.mem_flatMap.1 hx
    obtain ⟨k, hk⟩ := OrderedMap.mem_values_iff.1 he
    exact hmap _ (hg.edge k e hk) hx

/-- Adding the records of a graph to the empty one makes a graph with the same
contents and edges, in which every edge is counted once. -/
theorem Sound.addRecords (hg : g.Sound) (hkeyed : g.Keyed)
    (hrecordable : g.Holds Properties.Recordable) (strategy : EndpointStrategy) :
    let g' := g.records.foldl (Graph.addRecord strategy) empty
    g'.contents = g.contents ∧ g'.edges = g.edges ∧
      ∀ a b, g'.outCount a b = (g'.edgesBetween a b).length := by
  have hnodes : ∀ n ∈ g.nodes.values, n.properties.Recordable ∧ n.labels.Nodup := fun n hn => by
    obtain ⟨id, hid⟩ := OrderedMap.mem_values_iff.1 hn
    exact ⟨hrecordable.node id n hid, (hg.node id n hid).labels_nodup⟩
  let read := (g.nodes.values.map Record.ofNode).foldl (Graph.addRecord strategy) empty
  obtain ⟨hcontents, hnone, hzero⟩ : read.contents = g.contents ∧ read.edges = .empty ∧
      ∀ a b, read.outCount a b = 0 := by
    rw [hkeyed.contents_eq]
    exact addRecords_nodes hnodes (hkeyed.keys_nodes ▸ g.nodes.nodup)
  have hkeys : read.edges.keys = [] := by
    rw [hnone]
    rfl
  have hrecorded : ∀ e ∈ g.edges.values, e.properties.Recordable := fun e he => by
    obtain ⟨k, hk⟩ := OrderedMap.mem_values_iff.1 he
    exact hrecordable.edge k e hk
  have hends : ∀ e ∈ g.edges.values,
      read.hasNode e.key.start = true ∧ read.hasNode e.key.finish = true := fun e he => by
    have hk : g.hasEdge e.key = true := by
      rw [hasEdge, OrderedMap.contains_eq_true_iff, ← hkeyed.keys_edges]
      exact List.mem_map_of_mem he
    rw [hasNode_of_contents_eq hcontents, hasNode_of_contents_eq hcontents]
    exact ⟨hg.hasNode_start e.key hk, hg.hasNode_finish e.key hk⟩
  have hnew : (read.edges.keys ++ g.edges.values.map Edge.key).Nodup := by
    rw [hkeys, hkeyed.keys_edges]
    exact g.edges.nodup
  have hcount : ∀ a b, read.outCount a b = (read.edgesBetween a b).length := fun a b => by
    rw [hzero, edgesBetween, hkeys]
    rfl
  intro g'
  have hg' : g' = (g.edges.values.map Record.ofEdge).foldl (Graph.addRecord strategy) read :=
    List.foldl_append
  obtain ⟨hc, he, hn⟩ : g'.contents = read.contents ∧
      g'.edges.entries = read.edges.entries ++ g.edges.values.map (fun e => (e.key, e)) ∧
        ∀ a b, g'.outCount a b = (g'.edgesBetween a b).length := by
    rw [hg']
    exact addRecords_edges hrecorded hends hnew hcount
  refine ⟨hc.trans hcontents, OrderedMap.ext ?_, hn⟩
  rw [he, hnone, hkeyed.entries_edges]
  rfl

/-- **A graph that is written as lines reads back.**  If the properties of a run
are given as JSON, and the doubles among them read back from their own texts,
then the lines of its graph are read as a graph with the same nodes and edges in
the same order, and so with the same lines, in which each edge is counted once.
The lines can be written closed instead of apart, one for every node and edge.

That doubles read back is an assumption on the reader of numerals, whose fast
rule does not keep it for all of them. -/
theorem reread_toLines (updates : List (EndpointStrategy × Update))
    (hgiven : ∀ u ∈ updates, u.1.Keeps Properties.Recordable ∧ u.2.Supplies Properties.IsGiven)
    (hread : ∀ x ∈ (run updates).floats, x.isFinite = true → ReadsBack x) :
    let g := run updates
    let lines := g.records.map Record.line
    g.Holds Properties.Recordable ∧
      (∃ g', ofLines g.toLines = .ok g' ∧ g'.contents = g.contents ∧ g'.edges = g.edges ∧
        g'.records = g.records ∧ g'.toLines = g.toLines ∧
        ∀ a b, g'.outCount a b = (g'.edgesBetween a b).length) ∧
      (∀ l ∈ lines, '\n' ∉ l.toList) ∧ g.toLines = "\n".intercalate lines ∧
      g.writeLines = (String.join (lines.map (· ++ "\n")), g.nodeCount + g.edgeCount) := by
  intro g lines
  have hholds : g.Holds Properties.Recordable := run_recordable hgiven
  have hreadable : ∀ r ∈ g.records, Readable Tree.maxDepth r.toJson :=
    hholds.readable_records fun x hx => hread x hx (hholds.isFinite_of_mem_floats hx)
  have hreread : ofLines g.toLines = .ok (g.records.foldl (addRecord .default) empty) :=
    ofLines_records hreadable
  have hkeyed : g.Keyed := run_keyed updates
  obtain ⟨hcontents, hedges, hcounts⟩ := (run_sound updates).addRecords hkeyed hholds .default
  have hreadKeyed : (g.records.foldl (addRecord .default) empty).Keyed :=
    (invariant_keyed .default).addRecords keyed_empty fun _ _ => trivial
  have hrecords := records_congr hkeyed hreadKeyed hcontents hedges
  refine ⟨hholds, ⟨_, hreread, hcontents, hedges, hrecords, ?_, hcounts⟩, ?_, rfl, ?_⟩
  · rw [toLines, hrecords, toLines]
  · intro l hl
    obtain ⟨r, hr, rfl⟩ := List.mem_map.1 hl
    exact r.newline_notMem_line
  · rw [writeLines_eq, length_records, List.map_map]
    rfl

/-- One half, as a word of sixty-four bits. -/
def half : Double := ⟨0x3fe0000000000000⟩

theorem readsBack_half : ReadsBack half := by
  have htext : (compact (.float half)).toList = ['0', '.', '5'] := by
    rw [compact]
    decide +kernel
  have hnumeral : Numeral.ofText? ['0', '.', '5'] = some ⟨false, ['0'], ['5'], none⟩ := by decide
  have hdouble : Numeral.double? ⟨false, ['0'], ['5'], none⟩ = some half := by decide +kernel
  refine readsBack_of_ofText? (by decide) (htext ▸ hnumeral) ?_
  rw [Numeral.value?, if_neg (by decide), hdouble]
  rfl

/-- A node with an id that is a number, with a property of two values and one
that is a double, and an edge from it to a text that looks like its id. -/
def scored : List (EndpointStrategy × Update) :=
  [(.default, .addNode (.int 1) ["SUBSTANCE"]
      (.ofJson (.object [("line_id", .array [.int 3, .int 4]), ("score", .float half)]))),
    (.default, .addEdge ⟨.int 1, "PACIFIES", .text "1"⟩ (.ofJson (.object [("line_id", .int 3)])))]

theorem reread_toLines_scored :
    ((run scored).nodeCount = 2 ∧ (run scored).edgeCount = 1 ∧ (run scored).floats = [half]) ∧
      ∃ g', ofLines (run scored).toLines = .ok g' ∧ g'.toLines = (run scored).toLines ∧
        g'.outCount (.int 1) (.text "1") = 1 := by
  have hgiven : ∀ u ∈ scored,
      u.1.Keeps Properties.Recordable ∧ u.2.Supplies Properties.IsGiven := by
    have hint : ∀ n ∈ [3, 4], Legal (.int n) := by
      intro n hn
      refine .int ?_ ?_ <;> revert n <;> decide
    have hlines : Legal (.array [.int 3, .int 4]) := .array (by simpa using hint)
    have hnode : Legal (.object [("line_id", .array [.int 3, .int 4]), ("score", .float half)]) :=
      .object (by simpa using ⟨hlines, .float (by decide)⟩)
    have hedge : Legal (.object [("line_id", .int 3)]) := .object (by simpa using hint 3 (by simp))
    have hkeeps := keeps_default Properties.recordable_autoProperties
    exact List.forall_mem_cons.2 ⟨⟨hkeeps, _, hnode, rfl⟩, List.forall_mem_singleton.2
      ⟨hkeeps, _, hedge, rfl⟩⟩
  have hfloats : (run scored).floats = [half] := by decide
  have hread : ∀ x ∈ (run scored).floats, x.isFinite = true → ReadsBack x := by
    rw [hfloats]
    exact List.forall_mem_singleton.2 fun _ => readsBack_half
  obtain ⟨-, ⟨g', hreread, -, hedges, -, hlines, hcounts⟩, -⟩ := reread_toLines scored hgiven hread
  refine ⟨⟨by decide, by decide, hfloats⟩, g', hreread, hlines, ?_⟩
  rw [hcounts, edgesBetween, hedges]
  decide

end Graph

end PropertyGraph
