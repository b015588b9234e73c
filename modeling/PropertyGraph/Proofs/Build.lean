/-
What a build reports, and what it leaves on the disk.

A build reads its records as a whole before it writes anything, so a malformed
line leaves the disk as it was.  Otherwise the graph is written in up to three
forms, each of which counts nodes and edges on its own, by lines or by rows; they
agree with each other and with the report.

* **`run_bind_of_ok`**, **`run_mapM_writeOrFail`** — actions on a disk;
* **`BuildPlan.Fits.run_writeGraph`** — what is written, if the outputs fit;
* **`holdsRecords`**, **`holdsTables`** — what the files hold;
* **`run_build`**, **`run_build_of_malformed`** — the two ends of a build;
* **`build_accounts`** — what a build reports and leaves, from one end to the
  other.
-/
import PropertyGraph.Build
import PropertyGraph.Proofs.Graph.Accounting
import PropertyGraph.Proofs.Record.Reading
import PropertyGraph.Proofs.Record.Rereading
import PropertyGraph.Proofs.Storage.Disk
import PropertyGraph.Proofs.Table.Partition
import PropertyGraph.Proofs.Table.Reading

namespace PropertyGraph

/-! ### Actions on a disk -/

section Actions

variable {α β ε : Type} {d d' : Disk}

/-- What an action that can fail does on a disk. -/
def Disk.run (action : ExceptT ε (StateM Disk) α) (d : Disk) : Except ε α × Disk :=
  action.run.run d

theorem run_lift (action : StateM Disk α) (d : Disk) :
    d.run (liftM action : ExceptT ε (StateM Disk) α) =
      (.ok (action.run d).1, (action.run d).2) := rfl

theorem run_bind_of_ok {action : ExceptT ε (StateM Disk) α} {a : α}
    (h : d.run action = (.ok a, d')) (next : α → ExceptT ε (StateM Disk) β) :
    d.run (action >>= next) = d'.run (next a) := by
  show ExceptT.bindCont next (d.run action).1 (d.run action).2 = _
  rw [h]
  rfl

theorem storage_write (path content : String) (d : Disk) :
    (Disk.storage.write path content).run d =
      ((d.write? path content).isSome, (d.write? path content).getD d) := by
  simp only [Disk.storage, StateT.run_bind, StateT.run_get, pure_bind]
  cases d.write? path content <;> rfl

theorem run_writeOrFail {path content : String} (h : d.write? path content = some d') :
    d.run (writeOrFail Disk.storage path content) = (.ok path, d') := by
  have hwrite : d.run (liftM (Disk.storage.write path content) :
      ExceptT BuildError (StateM Disk) Bool) = (.ok true, d') := by
    rw [run_lift, storage_write, h]
    rfl
  rw [writeOrFail, run_bind_of_ok hwrite]
  rfl

theorem run_read? {path : String} {text? : Option String} (h : d.read? path = text?) :
    d.run (liftM (Disk.storage.read? path) : ExceptT ε (StateM Disk) (Option String)) =
      (.ok text?, d) := by
  rw [run_lift]
  show (Except.ok (d.read? path), d) = _
  rw [h]

theorem run_makeFolder {folder : String} {made : Bool} (h : d.makeFolder folder = (d', made)) :
    d.run (liftM (Disk.storage.makeFolder folder) : ExceptT ε (StateM Disk) Bool) =
      (.ok made, d') := by
  rw [run_lift]
  show (Except.ok (d.makeFolder folder).2, (d.makeFolder folder).1) = _
  rw [h]

/-- Files that can be written are written one by one. -/
theorem run_mapM_writeOrFail (path content : α → String) {l : List α}
    (h : d.writeAll? (l.map fun a => (path a, content a)) = some d') :
    d.run (l.mapM fun a => writeOrFail Disk.storage (path a) (content a)) =
      (.ok (l.map path), d') := by
  induction l generalizing d with
  | nil =>
    cases h
    rfl
  | cons a l ih =>
    obtain ⟨next, hnext, hrest⟩ := Option.bind_eq_some_iff.1 h
    rw [List.mapM_cons, run_bind_of_ok (run_writeOrFail hnext), run_bind_of_ok (ih hrest)]
    rfl

end Actions

/-! ### Outputs -/

/-- The files of the tables of items, with their names. -/
def Table.files (name : String) (columns : List String) (partitioned : Bool)
    (items : List TableItem) : List (String × String) :=
  if partitioned then
    (partition items).zipIdx.map fun t =>
      (name ++ "_" ++ toString t.2 ++ ".csv", t.1.text columns)
  else [(name ++ ".csv", (ofItems items).text columns)]

/-- The files of the tables of the nodes. -/
def Graph.nodeFiles (g : Graph) (partitioned : Bool) : List (String × String) :=
  Table.files "nodes" nodeHeading partitioned g.nodeItems

/-- The files of the tables of the edges. -/
def Graph.edgeFiles (g : Graph) (partitioned : Bool) : List (String × String) :=
  Table.files "edges" edgeHeading partitioned g.edgeItems

theorem Graph.tableFiles_eq (g : Graph) (partitioned : Bool) :
    g.tableFiles partitioned = g.nodeFiles partitioned ++ g.edgeFiles partitioned := by
  cases partitioned <;> rfl

namespace BuildPlan

/-- The graph that a plan makes of a text of records: the graph that is read,
merged if the plan says so. -/
def exported (plan : BuildPlan) (config : Config) (text : String) : Graph :=
  let strategy := config.endpoints.strategy .empty
  let read := (Graph.empty.readText strategy text).1
  if plan.merge then (read.unifySynonyms strategy config.synonyms).1 else read

/-- The file of the records, if the plan asks for it. -/
def recordFiles (plan : BuildPlan) (g : Graph) : List (String × String) :=
  plan.records.toList.map fun path => (path, g.toClosedLines)

/-- The files in a folder, by their paths. -/
def inFolder (folder : String) (files : List (String × String)) : List (String × String) :=
  files.map fun f => (joinPath folder f.1, f.2)

/-- All files that a plan asks for, in the order in which they are written. -/
def files (plan : BuildPlan) (g : Graph) : List (String × String) :=
  plan.recordFiles g ++
    plan.tables.toList.flatMap fun folder => inFolder folder (g.tableFiles plan.partitioned)

/-- The disk with the folder for the tables made, and whether that was possible. -/
def prepared (plan : BuildPlan) (d : Disk) : Disk × Bool :=
  plan.tables.elim (d, true) d.makeFolder

/-- The outputs of a plan fit on a disk: the records can be written, the folder for
the tables can be made, and then all files can be written, each at a place of its
own. -/
structure Fits (plan : BuildPlan) (g : Graph) (d : Disk) : Prop where
  records : ∀ f ∈ plan.recordFiles g, d.canWrite f.1 = true
  folder : (plan.prepared d).2 = true
  writable : ∀ f ∈ plan.files g, (plan.prepared d).1.canWrite f.1 = true
  distinct : ((plan.files g).map fun f => (plan.prepared d).1.resolve? f.1).Nodup

variable {plan : BuildPlan} {g : Graph} {d : Disk}

/-- The folder for the tables is made after the records are written, but it comes to
the same as writing everything once it is made. -/
theorem Fits.run_writeGraph (h : plan.Fits g d) :
    ∃ d', d.run (writeGraph Disk.storage plan g) = (.ok ((plan.files g).map Prod.fst), d') ∧
      (plan.prepared d).1.writeAll? (plan.files g) = some d' := by
  obtain ⟨written, hwritten⟩ := Disk.writeAll?_of_canWrite h.records
  have hrecords : d.run (plan.records.toList.mapM fun path =>
      writeOrFail Disk.storage path g.toClosedLines) =
        (.ok ((plan.recordFiles g).map Prod.fst), written) := by
    have hrun := run_mapM_writeOrFail (fun path => path) (fun _ => g.toClosedLines) hwritten
    rw [recordFiles, List.map_map]
    exact hrun
  obtain ⟨-, hfolder, hwritable, -⟩ := h
  rw [prepared] at hfolder hwritable ⊢
  rw [files] at hwritable ⊢
  rw [writeGraph, run_bind_of_ok hrecords]
  cases htables : plan.tables with
  | none =>
    simp only [Option.toList_none, List.flatMap_nil, List.append_nil, Option.elim_none]
    refine ⟨written, ?_, hwritten⟩
    show (Except.ok ((plan.recordFiles g).map Prod.fst ++ []), written) = _
    rw [List.append_nil]
  | some folder =>
    -- The folder that is made after the records has the files of one made before.
    simp only [htables, Option.toList_some, List.flatMap_singleton, Option.elim_some,
      List.forall_mem_append] at hfolder hwritable ⊢
    obtain ⟨hafter, hsame⟩ := Disk.makeFolder_writeAll? hwritten hwritable.1
    have hmade : written.makeFolder folder = ((written.makeFolder folder).1, true) :=
      Prod.ext rfl (hsame.trans hfolder)
    obtain ⟨d', hd'⟩ := Disk.writeAll?_of_canWrite fun f hf =>
      (Disk.canWrite_congr (Disk.folders_writeAll? hafter)).trans (hwritable.2 f hf)
    have htablesRun := run_mapM_writeOrFail (fun f : String × String => joinPath folder f.1)
      (fun f => f.2) hd'
    refine ⟨d', ?_, ?_⟩
    · rw [run_bind_of_ok (run_makeFolder hmade), if_neg (by decide), run_bind_of_ok htablesRun,
        List.map_append, inFolder, List.map_map]
      rfl
    · rw [Disk.writeAll?_append, hafter, Option.bind_some, hd']

end BuildPlan

/-! ### What files hold -/

/-- A file holds the records of a graph: a line for each of so many nodes, then a
line for each of so many edges, and nothing behind them. -/
def Disk.HoldsRecords (d : Disk) (path : String) (g : Graph) (nodes edges : Nat) : Prop :=
  ∃ nodeRecords edgeRecords : List Record,
    nodeRecords ++ edgeRecords = g.records ∧
    nodeRecords.length = nodes ∧ (∀ r ∈ nodeRecords, r.isEdge = false) ∧
    edgeRecords.length = edges ∧ (∀ r ∈ edgeRecords, r.isEdge = true) ∧
    (d.read? path).map Graph.textLines =
      some ((nodeRecords ++ edgeRecords).map Record.line ++ [""])

/-- Files hold tables: each a heading that begins with fixed columns, and rows under
it, which are so many in all. -/
def Disk.HoldsTables (d : Disk) (paths columns : List String) (rows : Nat) : Prop :=
  ∃ tables : List (List String × List (List String)),
    (paths.map fun path => (d.read? path).map Csv.rows) =
      tables.map (fun t => some (t.1 :: t.2)) ∧
    (∀ t ∈ tables, columns <+: t.1) ∧
    (tables.map fun t => t.2.length).sum = rows

theorem Disk.holdsRecords {d : Disk} {path : String} {g : Graph}
    (hread : d.read? path = some g.toClosedLines) :
    d.HoldsRecords path g g.nodeCount g.edgeCount := by
  refine ⟨g.nodes.values.map Record.ofNode, g.edges.values.map Record.ofEdge, rfl,
    (List.length_map _).trans g.nodes.length_values, ?_,
    (List.length_map _).trans g.edges.length_values, ?_, ?_⟩
  · exact List.forall_mem_map.2 fun _ _ => rfl
  · exact List.forall_mem_map.2 fun _ _ => rfl
  · rw [hread, Option.map_some, g.textLines_toClosedLines]
    rfl

theorem Table.map_snd_files (name : String) (columns : List String) (partitioned : Bool)
    (items : List TableItem) :
    (files name columns partitioned items).map Prod.snd =
      (split partitioned items).map (text · columns) := by
  cases partitioned
  · rfl
  · have hmap : ∀ tables : List Table,
        (tables.zipIdx.map fun t => t.1.text columns) = tables.map (text · columns) := by
      intro tables
      have hfst := congrArg (List.map (text · columns)) (List.zipIdx_map_fst 0 tables)
      rwa [List.map_map] at hfst
    rw [files, if_pos rfl, List.map_map]
    exact hmap _

theorem Disk.holdsTables {d : Disk} {folder name : String} {columns : List String}
    {partitioned : Bool} {items : List TableItem} (hcolumns : columns ≠ [])
    (hitems : ∀ i ∈ items, i.cells ≠ [])
    (hread : ∀ f ∈ BuildPlan.inFolder folder (Table.files name columns partitioned items),
      d.read? f.1 = some f.2) :
    d.HoldsTables
      ((BuildPlan.inFolder folder (Table.files name columns partitioned items)).map Prod.fst)
      columns items.length := by
  refine ⟨(Table.split partitioned items).map fun t =>
    (columns ++ t.keys, t.items.map (TableItem.row · t.keys)), ?_, ?_, ?_⟩
  · have hrows : ∀ t ∈ Table.split partitioned items,
        some (Csv.rows (t.text columns)) = some (t.rows columns) := fun t ht =>
      congrArg some (Table.rows_text hcolumns fun i hi => hitems i (Table.mem_of_mem_split ht hi))
    calc _ = (BuildPlan.inFolder folder (Table.files name columns partitioned items)).map
          fun f => some (Csv.rows f.2) := by
          rw [List.map_map]
          refine List.map_congr_left fun f hf => ?_
          show (d.read? f.1).map Csv.rows = _
          rw [hread f hf, Option.map_some]
      _ = ((Table.files name columns partitioned items).map Prod.snd).map
          fun text => some (Csv.rows text) := by
          rw [BuildPlan.inFolder, List.map_map, List.map_map]
          rfl
      _ = (Table.split partitioned items).map fun t => some (t.rows columns) := by
          rw [Table.map_snd_files, List.map_map]
          exact List.map_congr_left hrows
      _ = _ := by
          rw [List.map_map]
          rfl
  · exact List.forall_mem_map.2 fun t _ => List.prefix_append _ _
  · rw [List.map_map, ← Table.sum_length_split partitioned items]
    simp only [Function.comp_def, List.length_map]

theorem Graph.length_nodeItems (g : Graph) : g.nodeItems.length = g.nodeCount :=
  (List.length_map _).trans g.nodes.length_values

theorem Graph.length_edgeItems (g : Graph) : g.edgeItems.length = g.edgeCount :=
  (List.length_map _).trans g.edges.length_values

namespace BuildPlan

variable {plan : BuildPlan} {g : Graph} {d : Disk}

theorem holdsRecords (hheld : ∀ f ∈ plan.files g, d.read? f.1 = some f.2) {path : String}
    (hpath : plan.records = some path) : d.HoldsRecords path g g.nodeCount g.edgeCount := by
  refine Disk.holdsRecords (hheld (path, g.toClosedLines) (List.mem_append_left _ ?_))
  simp [recordFiles, hpath]

theorem holdsTables (hheld : ∀ f ∈ plan.files g, d.read? f.1 = some f.2) {folder : String}
    (hfolder : plan.tables = some folder) :
    d.HoldsTables ((inFolder folder (g.nodeFiles plan.partitioned)).map Prod.fst) nodeHeading
        g.nodeCount ∧
      d.HoldsTables ((inFolder folder (g.edgeFiles plan.partitioned)).map Prod.fst) edgeHeading
        g.edgeCount := by
  have htables : ∀ f ∈ inFolder folder (g.nodeFiles plan.partitioned) ++
      inFolder folder (g.edgeFiles plan.partitioned), d.read? f.1 = some f.2 := by
    intro f hf
    refine hheld f (List.mem_append_right _ ?_)
    rw [hfolder, Option.toList_some, List.flatMap_singleton, g.tableFiles_eq, inFolder,
      List.map_append]
    exact hf
  obtain ⟨hnodes, hedges⟩ := List.forall_mem_append.1 htables
  rw [← g.length_nodeItems, ← g.length_edgeItems]
  exact ⟨Disk.holdsTables (by decide) (List.forall_mem_map.2 fun _ _ => List.cons_ne_nil _ _) hnodes,
    Disk.holdsTables (by decide) (List.forall_mem_map.2 fun _ _ => List.cons_ne_nil _ _) hedges⟩

end BuildPlan

/-! ### Builds -/

section Build

variable {config : Config} {plan : BuildPlan} {d : Disk} {text : String}

/-- A build that meets a malformed line stops there and has written nothing. -/
theorem run_build_of_malformed {e : MalformedLine} (hinput : d.read? plan.input = some text)
    (h : (Graph.empty.readText (config.endpoints.strategy .empty) text).2 = .error e) :
    d.run (build Disk.storage config plan) = (.error (.malformed e), d) := by
  obtain ⟨g, hg⟩ : ∃ g, Graph.empty.readText (config.endpoints.strategy .empty) text =
      (g, .error e) := ⟨_, Prod.ext rfl h⟩
  rw [build, run_bind_of_ok (run_read? hinput)]
  dsimp only
  rw [hg]
  rfl

theorem run_build {read : Graph} {reading : ReadSummary} {files : List String} {d' : Disk}
    (hinput : d.read? plan.input = some text)
    (hread : Graph.empty.readText (config.endpoints.strategy .empty) text = (read, .ok reading))
    (hwrite : d.run (writeGraph Disk.storage plan (plan.exported config text)) =
      (.ok files, d')) :
    ∃ report, d.run (build Disk.storage config plan) = (.ok report, d') ∧
      report.reading = reading ∧ report.nodes = (plan.exported config text).nodeCount ∧
      report.edges = (plan.exported config text).edgeCount ∧ report.files = files := by
  rw [BuildPlan.exported, hread] at hwrite ⊢
  dsimp only at hwrite ⊢
  rw [build, run_bind_of_ok (run_read? hinput)]
  dsimp only
  rw [hread]
  dsimp only
  rw [run_bind_of_ok hwrite]
  exact ⟨_, rfl, rfl, rfl, rfl, rfl⟩

/-- Merging leaves the number of nodes as it is. -/
theorem BuildPlan.nodeCount_exported (plan : BuildPlan) (config : Config) (text : String) :
    (plan.exported config text).nodeCount =
      (Graph.empty.readText (config.endpoints.strategy .empty) text).1.nodeCount := by
  rw [exported]
  split
  · have hsound : (Graph.empty.readText (config.endpoints.strategy .empty) text).1.Sound :=
      Graph.sound_empty.readText text
    exact Graph.nodeCount_of_contents_eq (hsound.unified_unifySynonyms _ config.synonyms).contents
  · rfl

/-- **What a build reports and leaves.**  If a line is malformed, a build fails with
the number of the first such line, and the disk is as it was.  Otherwise, and if
its outputs fit, it succeeds and reports the counts of the graph that it has
written: the file of the records holds a line for each node and then a line for
each edge, and the tables of the nodes and of the edges, in one file each or in
several, hold a row for each of them.  Without merging, the edges are those that
were read and not merged; with merging, there are as many nodes as without. -/
theorem build_accounts (config : Config) (plan : BuildPlan) (d : Disk) (text : String)
    (hinput : d.read? plan.input = some text) :
    let g := plan.exported config text
    let lines := Graph.textLines text
    (lines.any Record.isMalformed = true → ∃ before line after,
      lines = before ++ line :: after ∧ Record.isMalformed line = true ∧
        d.run (build Disk.storage config plan) =
          (.error (.malformed ⟨before.length + 1⟩), d)) ∧
    (lines.any Record.isMalformed = false → plan.Fits g d → ∃ report d',
      d.run (build Disk.storage config plan) = (.ok report, d') ∧
      report.nodes = g.nodeCount ∧ report.edges = g.edgeCount ∧
      report.files = (plan.files g).map Prod.fst ∧
      (∀ path, plan.records = some path → d'.HoldsRecords path g report.nodes report.edges) ∧
      (∀ folder, plan.tables = some folder →
        d'.HoldsTables ((BuildPlan.inFolder folder (g.nodeFiles plan.partitioned)).map Prod.fst)
          nodeHeading report.nodes ∧
        d'.HoldsTables ((BuildPlan.inFolder folder (g.edgeFiles plan.partitioned)).map Prod.fst)
          edgeHeading report.edges) ∧
      (plan.merge = false →
        report.edges + report.reading.mergedEdges = report.reading.edges) ∧
      report.nodes = ({ plan with merge := false }.exported config text).nodeCount) := by
  intro g lines
  refine ⟨fun hmalformed => ?_, fun hwell hfits => ?_⟩
  · obtain ⟨before, line, after, hlines, hbefore, hline⟩ := Graph.exists_first_malformed hmalformed
    refine ⟨before, line, after, hlines, hline, run_build_of_malformed hinput ?_⟩
    show (Graph.empty.readLines _ {} 1 lines).2 = _
    rw [hlines, Graph.readLines_malformed hbefore hline, Nat.add_comm]
  · -- Everything is read, everything is written, and what is written can be read.
    have hlines : ∀ line ∈ lines, Record.isMalformed line = false := by simpa using hwell
    obtain ⟨read, reading, hread⟩ : ∃ read reading,
        Graph.empty.readText (config.endpoints.strategy .empty) text = (read, .ok reading) :=
      Graph.readLines_of_wellFormed _ hlines _ _ _
    obtain ⟨d', hwrite, hall⟩ := hfits.run_writeGraph
    obtain ⟨report, hrun, hreading, hnodes, hedges, hfiles⟩ := run_build hinput hread hwrite
    have hheld : ∀ f ∈ plan.files g, d'.read? f.1 = some f.2 :=
      Disk.read?_of_writeAll? hall hfits.distinct
    refine ⟨report, d', hrun, hnodes, hedges, hfiles, fun path hpath => ?_,
      fun folder hfolder => ?_, fun hmerge => ?_, ?_⟩
    · rw [hnodes, hedges]
      exact BuildPlan.holdsRecords hheld hpath
    · rw [hnodes, hedges]
      exact BuildPlan.holdsTables hheld hfolder
    · -- The empty graph has no edges, so those that are there have all been read.
      have hcount := Graph.mergedEdges_readLines hread
      have hexported : plan.exported config text = read := by
        rw [BuildPlan.exported, hread, hmerge]
        rfl
      have hempty : Graph.empty.edgeCount = 0 := rfl
      rw [hedges, hreading, hexported]
      dsimp only at hcount
      omega
    · rw [hnodes, BuildPlan.nodeCount_exported, BuildPlan.nodeCount_exported]

end Build

/-- Two edges, the second of which makes synonyms of the ends of the first. -/
def twoEdges : String :=
  "[\"edge\",\"R\",[1],[2]]\n\n[\"edge\",\"IS_SYNONYM_OF\",[2],[1]]\n"

/-- A plan to merge them and to write the graph in both forms, the tables into
folders that are not there yet. -/
def twoEdgesPlan : BuildPlan :=
  { input := "records", merge := true, records := some "graph", tables := some "tables/new" }

/-- The disk with the two edges. -/
def twoEdgesDisk : Disk := { files := OrderedMap.insert .empty ["records"] twoEdges }

theorem build_accounts_twoEdges :
    (twoEdgesDisk.read? twoEdgesPlan.input = some twoEdges ∧
      (Graph.textLines twoEdges).any Record.isMalformed = false ∧
      twoEdgesPlan.Fits (twoEdgesPlan.exported {} twoEdges) twoEdgesDisk) ∧
    ∃ report d', twoEdgesDisk.run (build Disk.storage {} twoEdgesPlan) = (.ok report, d') ∧
      report.nodes = 2 ∧
      report.files = ["graph", "tables/new/nodes.csv", "tables/new/edges.csv"] ∧
      d'.HoldsRecords "graph" (twoEdgesPlan.exported {} twoEdges) report.nodes report.edges := by
  have hinput : twoEdgesDisk.read? twoEdgesPlan.input = some twoEdges := by decide +kernel
  have hwell : (Graph.textLines twoEdges).any Record.isMalformed = false := by decide +kernel
  have hfits : twoEdgesPlan.Fits (twoEdgesPlan.exported {} twoEdges) twoEdgesDisk :=
    ⟨by decide +kernel, by decide +kernel, by decide +kernel, by decide +kernel⟩
  have hfiles : (twoEdgesPlan.files (twoEdgesPlan.exported {} twoEdges)).map Prod.fst =
      ["graph", "tables/new/nodes.csv", "tables/new/edges.csv"] := by decide +kernel
  have hnodes : ({ twoEdgesPlan with merge := false }.exported {} twoEdges).nodeCount = 2 := by
    decide +kernel
  obtain ⟨report, d', hrun, -, -, hpaths, hrecords, -, -, hcount⟩ :=
    (build_accounts {} twoEdgesPlan twoEdgesDisk twoEdges hinput).2 hwell hfits
  exact ⟨⟨hinput, hwell, hfits⟩, report, d', hrun, hcount.trans hnodes, hpaths.trans hfiles,
    hrecords "graph" rfl⟩

end PropertyGraph
