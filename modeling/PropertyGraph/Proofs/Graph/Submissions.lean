/-
What nodes hold after a run, told from the updates alone.

Nothing enters a node but what is submitted for it: what an edge tells of it, if
the edge comes before all else and the node has to be made up as its end, and
what is added under its name.  `Graph.submissions` reads these off the updates
without building a graph.  Removing and moving edges and merging synonyms submit
nothing, and no update submits anything for a node that it does not name.

* **`Logged.addNode`**, **`Logged.addEdge`**, **`Logged.apply`** — every update
  leaves the node with what has been submitted for it;
* **`logged_run`** — so does every run;
* **`Gathered.snoc`** — what one more submission adds to the content;
* **`run_gathers`** — the content of a node in closed form: of all labels, keys
  and values that have been submitted, each where it first came.
-/
import Mathlib.Data.List.Induction
import PropertyGraph.Proofs.Graph.Synonyms
import PropertyGraph.Proofs.Property.NormalForm

namespace PropertyGraph

/-! ### Submissions -/

/-- Labels and properties that are submitted for a node. -/
structure Submission where
  labels : List String
  properties : Properties
deriving DecidableEq

/-- The labels and properties of a node, if there is one, after a submission. -/
def Submission.into (content : Option (List String × Properties)) (s : Submission) :
    Option (List String × Properties) :=
  match content with
  | none => some (appendNew [] s.labels, s.properties)
  | some c => some (appendNew c.1 s.labels, c.2.merge s.properties)

/-- What an edge tells of a node: that of a start, if it is both ends. -/
def EndpointStrategy.told? (strategy : EndpointStrategy) (k : EdgeKey) (properties : Properties)
    (id : NodeId) : Option Submission :=
  let told := strategy k properties
  if k.start = id then some ⟨told.startLabels, told.startProperties⟩
  else if k.finish = id then some ⟨told.finishLabels, told.finishProperties⟩
  else none

section Log

variable (strategy : EndpointStrategy) (id : NodeId)

/-- What has been submitted for a node once some node is added. -/
def logNode (log : List Submission) (other : NodeId) (labels : List String)
    (properties : Properties) : List Submission :=
  if other = id then log ++ [⟨labels, properties⟩] else log

/-- What has been submitted for a node once an edge is added, which tells of it
only while it is missing. -/
def logEdge (log : List Submission) (k : EdgeKey) (properties : Properties) : List Submission :=
  if log.isEmpty then (strategy.told? k properties id).toList else log

/-- What has been submitted for a node once a record is added. -/
def logRecord (log : List Submission) : Record → List Submission
  | .node other labels properties => logNode id log other labels (.ofMembers properties)
  | .edge k properties => logEdge strategy id log k (.ofMembers properties)

/-- What has been submitted for a node once an update is made. -/
def Update.log (log : List Submission) : Update → List Submission
  | addNode other labels properties => logNode id log other labels properties
  | addEdge k properties => logEdge strategy id log k properties
  | readText text => (Graph.recordsRead (Graph.textLines text)).foldl (logRecord strategy id) log
  | removeEdge .. | moveEdge .. | unifySynonyms .. => log

end Log

/-- All that a run submits for a node. -/
def Graph.submissions (updates : List (EndpointStrategy × Update)) (id : NodeId) :
    List Submission :=
  updates.foldl (fun log u => u.2.log u.1 id log) []

theorem Submission.foldl_into_eq_none_iff {log : List Submission} :
    log.foldl Submission.into none = none ↔ log = [] := by
  rcases List.eq_nil_or_concat log with rfl | ⟨log, s, rfl⟩
  · exact iff_of_true rfl rfl
  · refine iff_of_false (fun h => ?_) (by simp)
    rw [List.concat_eq_append, List.foldl_append, List.foldl_cons, List.foldl_nil, into.eq_def] at h
    split at h <;> cases h

namespace Graph

variable {strategy : EndpointStrategy} {g : Graph} {id : NodeId} {log : List Submission}

/-! ### One node -/

/-- The labels and the properties of a node. -/
def content? (g : Graph) (id : NodeId) : Option (List String × Properties) :=
  (g.node? id).map fun n => (n.labels, n.properties)

theorem content?_eq_none_iff : g.content? id = none ↔ ¬g.hasNode id = true := by
  rw [content?, Option.map_eq_none_iff, hasNode, ← OrderedMap.get?_isSome, node?]
  cases g.nodes.get? id <;> simp

theorem content?_of_contents_eq {g' : Graph} (h : g'.contents = g.contents) (id : NodeId) :
    g'.content? id = g.content? id := by
  have hnodes : (g'.nodes.mapValues fun _ n => (n.labels, n.properties)) =
      g.nodes.mapValues fun _ n => (n.labels, n.properties) := OrderedMap.ext h
  have hlookup := congrArg (·.get? id) hnodes
  rwa [OrderedMap.get?_mapValues, OrderedMap.get?_mapValues] at hlookup

theorem content?_addNode (g : Graph) (other : NodeId) (labels : List String)
    (properties : Properties) (id : NodeId) :
    (g.addNode other labels properties).content? id =
      if other = id then Submission.into (g.content? id) ⟨labels, properties⟩
      else g.content? id := by
  rw [content?, node?_addNode]
  by_cases h : other = id
  · subst h
    rw [if_pos rfl, if_pos rfl, content?]
    cases g.node? other <;> rfl
  · rw [if_neg fun heq => h heq.symm, if_neg h]
    rfl

/-- A node that is added only if it is missing. -/
theorem content?_addMissing (g : Graph) (other : NodeId) (labels : List String)
    (properties : Properties) (id : NodeId) :
    (if g.hasNode other then g else g.addNode other labels properties).content? id =
      (g.content? id).or
        (if other = id then Submission.into none ⟨labels, properties⟩ else none) := by
  by_cases h : other = id
  · subst h
    rw [if_pos rfl]
    by_cases hother : g.hasNode other = true
    · obtain ⟨c, hc⟩ := Option.ne_none_iff_exists'.1 (mt content?_eq_none_iff.1 (not_not.2 hother))
      rw [if_pos hother, hc, Option.some_or]
    · rw [if_neg hother, content?_addNode, if_pos rfl, content?_eq_none_iff.2 hother, Option.none_or]
  · rw [if_neg h, Option.or_none]
    split
    · rfl
    · rw [content?_addNode, if_neg h]

/-- The ends of an edge that are missing get what it tells of them; nothing else
changes. -/
theorem content?_addEndpoints (g : Graph) (k : EdgeKey) (properties : Properties) (id : NodeId) :
    (addEndpoints strategy g k properties).content? id =
      (g.content? id).or ((strategy.told? k properties id).bind (Submission.into none)) := by
  let told := strategy k properties
  let g₁ := if g.hasNode k.start then g else g.addNode k.start told.startLabels told.startProperties
  have hstart : g₁.content? id = (g.content? id).or (if k.start = id then
      Submission.into none ⟨told.startLabels, told.startProperties⟩ else none) :=
    content?_addMissing g _ _ _ id
  have hfinish : (addEndpoints strategy g k properties).content? id =
      (g₁.content? id).or (if k.finish = id then
        Submission.into none ⟨told.finishLabels, told.finishProperties⟩ else none) :=
    content?_addMissing g₁ _ _ _ id
  rw [hfinish, hstart, Option.or_assoc, EndpointStrategy.told?]
  by_cases hs : k.start = id
  · rw [if_pos hs, if_pos hs]
    rfl
  · rw [if_neg hs, if_neg hs, Option.none_or]
    by_cases hf : k.finish = id
    · rw [if_pos hf, if_pos hf]
      rfl
    · rw [if_neg hf, if_neg hf]
      rfl

theorem Sound.content?_addEdge (hg : g.Sound) (k : EdgeKey) (properties : Properties)
    (id : NodeId) :
    (g.addEdge strategy k properties).content? id =
      (g.content? id).or ((strategy.told? k properties id).bind (Submission.into none)) := by
  rw [addEdge_eq, content?_of_contents_eq (contents_countEdge _ _)]
  by_cases hk : g.hasEdge k = true
  · -- Both ends of a stored edge are stored, so a missing node is neither.
    rw [if_pos hk]
    show g.content? id = _
    cases hc : g.content? id with
    | some c => rfl
    | none =>
      have hid : ¬g.hasNode id = true := content?_eq_none_iff.1 hc
      have hs : k.start ≠ id := fun h => hid (h ▸ hg.hasNode_start k hk)
      have hf : k.finish ≠ id := fun h => hid (h ▸ hg.hasNode_finish k hk)
      rw [EndpointStrategy.told?, if_neg hs, if_neg hf]
      rfl
  · rw [if_neg hk]
    exact content?_addEndpoints g k properties id

/-! ### Updates -/

/-- A sound graph that holds of a node what has been submitted for it. -/
structure Logged (id : NodeId) (g : Graph) (log : List Submission) : Prop where
  sound : g.Sound
  content : g.content? id = log.foldl Submission.into none

theorem logged_empty (id : NodeId) : Logged id empty [] := ⟨sound_empty, rfl⟩

/-- A node is stored exactly if something has been submitted for it. -/
theorem Logged.hasNode_iff (h : Logged id g log) : g.hasNode id = true ↔ log ≠ [] := by
  rw [← not_iff_not, ← content?_eq_none_iff, h.content, Submission.foldl_into_eq_none_iff, not_not]

theorem Logged.of_contents_eq (h : Logged id g log) {g' : Graph} (hg' : g'.Sound)
    (hcontents : g'.contents = g.contents) : Logged id g' log :=
  ⟨hg', (content?_of_contents_eq hcontents id).trans h.content⟩

theorem Logged.addNode (h : Logged id g log) (other : NodeId) (labels : List String)
    (properties : Properties) :
    Logged id (g.addNode other labels properties) (logNode id log other labels properties) := by
  refine ⟨h.sound.addNode other labels properties, ?_⟩
  rw [content?_addNode, logNode, h.content]
  split
  · rw [List.foldl_append, List.foldl_cons, List.foldl_nil]
  · rfl

theorem Logged.addEdge (h : Logged id g log) (k : EdgeKey) (properties : Properties) :
    Logged id (g.addEdge strategy k properties) (logEdge strategy id log k properties) := by
  refine ⟨h.sound.addEdge k properties, ?_⟩
  rw [h.sound.content?_addEdge, logEdge, h.content]
  by_cases hlog : log = []
  · rw [if_pos (List.isEmpty_iff.2 hlog), Submission.foldl_into_eq_none_iff.2 hlog, Option.none_or]
    cases strategy.told? k properties id <;> rfl
  · obtain ⟨c, hc⟩ :=
      Option.ne_none_iff_exists'.1 (mt Submission.foldl_into_eq_none_iff.1 hlog)
    rw [if_neg fun hempty => hlog (List.isEmpty_iff.1 hempty), hc, Option.some_or]

theorem Logged.addRecord (h : Logged id g log) (r : Record) :
    Logged id (g.addRecord strategy r) (logRecord strategy id log r) := by
  cases r with
  | node other labels properties => exact h.addNode other labels _
  | edge k properties => exact h.addEdge k _

theorem Logged.addRecords (h : Logged id g log) (records : List Record) :
    Logged id (records.foldl (Graph.addRecord strategy) g)
      (records.foldl (logRecord strategy id) log) := by
  induction records generalizing g log with
  | nil => exact h
  | cons r records ih => exact ih (h.addRecord r)

theorem Logged.apply (h : Logged id g log) (u : Update) :
    Logged id (u.apply strategy g) (u.log strategy id log) := by
  cases u with
  | addNode other labels properties => exact h.addNode other labels properties
  | addEdge k properties => exact h.addEdge k properties
  | removeEdge k => exact h.of_contents_eq (h.sound.removeEdge k) (contents_removeEdge g k)
  | moveEdge k newStart newFinish =>
    exact h.of_contents_eq (h.sound.moveEdge k _ _) (h.sound.contents_moveEdge k _ _)
  | readText text =>
    -- What comes after a malformed line is neither read nor submitted.
    show Logged id (g.readText strategy text).1
      ((recordsRead (textLines text)).foldl (logRecord strategy id) log)
    rw [readText, fst_readLines]
    exact h.addRecords (recordsRead (textLines text))
  | unifySynonyms config =>
    exact h.of_contents_eq (h.sound.unifySynonyms config)
      (h.sound.unified_unifySynonyms strategy config).contents

/-- Every node of a run holds what the run has submitted for it. -/
theorem logged_run (updates : List (EndpointStrategy × Update)) (id : NodeId) :
    Logged id (run updates) (submissions updates id) := by
  suffices hfold : ∀ (g : Graph) (log : List Submission), Logged id g log →
      Logged id (updates.foldl (fun g u => u.2.apply u.1 g) g)
        (updates.foldl (fun log u => u.2.log u.1 id log) log) from
    hfold empty [] (logged_empty id)
  induction updates with
  | nil => exact fun _ _ h => h
  | cons u updates ih => exact fun g log h => ih _ _ (h.apply u.2)

/-! ### The closed form -/

/-- Content that is gathered from submissions: each label, each key and, under a
key, each value where it first came. -/
structure Gathered (log : List Submission) (c : List String × Properties) : Prop where
  labels : c.1 = appendNew [] (log.flatMap Submission.labels)
  keys : c.2.keys = appendNew [] (log.flatMap fun s => s.properties.keys)
  values : ∀ key, c.2.valuesAt key =
    Value.addDistinct [] (log.flatMap fun s => s.properties.valuesAt key)
  normal : c.2.Normal

theorem gathered_singleton {s : Submission} (hs : s.properties.Normal) :
    Gathered [s] (appendNew [] s.labels, s.properties) where
  labels := by rw [List.flatMap_singleton]
  keys := by
    have hkept : appendNew [] s.properties.keys = s.properties.keys :=
      appendNew_eq_append s.properties.nodup
    rw [List.flatMap_singleton, hkept]
  values key := by
    have hkept : Value.addDistinct [] (s.properties.valuesAt key) = s.properties.valuesAt key :=
      Value.addDistinct_eq_append (hs.distinct key)
    rw [List.flatMap_singleton, hkept]
  normal := hs

theorem Gathered.snoc {c : List String × Properties} (h : Gathered log c) {s : Submission}
    (hs : s.properties.Normal) :
    Gathered (log ++ [s]) (appendNew c.1 s.labels, c.2.merge s.properties) where
  labels := by
    rw [h.labels, List.flatMap_append, List.flatMap_singleton, appendNew_append]
  keys := by
    rw [Properties.keys_merge, h.keys, List.flatMap_append, List.flatMap_singleton,
      appendNew_append]
  values key := by
    rw [Properties.valuesAt_merge _ hs, h.values, List.flatMap_append, List.flatMap_singleton,
      Value.addDistinct_append]
  normal := h.normal.merge hs

theorem gathered_foldl_into (hlog : ∀ s ∈ log, s.properties.Normal)
    {c : List String × Properties} (hc : log.foldl Submission.into none = some c) :
    Gathered log c := by
  induction log using List.reverseRecOn generalizing c with
  | nil => cases hc
  | append_singleton log s ih =>
    obtain ⟨hrest, hs⟩ := List.forall_mem_append.1 hlog
    have hs : s.properties.Normal := hs s List.mem_cons_self
    rw [List.foldl_append, List.foldl_cons, List.foldl_nil] at hc
    cases hold : log.foldl Submission.into none with
    | none =>
      rw [hold] at hc
      cases hc
      rw [Submission.foldl_into_eq_none_iff.1 hold]
      exact gathered_singleton hs
    | some old =>
      rw [hold] at hc
      cases hc
      exact (ih hrest hold).snoc hs

/-- **The content of a node is gathered from its own submissions.**  It is stored
exactly if there are any; then its labels and its keys are all that have been
submitted, each where it first came, and under each key it has the values that
have been submitted under it, each where it first came: one alone is single,
several are a list. -/
theorem run_gathers (updates : List (EndpointStrategy × Update)) (id : NodeId)
    (hnormal : ∀ s ∈ submissions updates id, s.properties.Normal) :
    let log := submissions updates id
    ((run updates).hasNode id = true ↔ log ≠ []) ∧
    ∀ n, (run updates).node? id = some n →
      n.labels = appendNew [] (log.flatMap Submission.labels) ∧
      n.properties.keys = appendNew [] (log.flatMap fun s => s.properties.keys) ∧
      ∀ key, n.properties.get? key =
        Property.ofDistinct?
          (Value.addDistinct [] (log.flatMap fun s => s.properties.valuesAt key)) := by
  intro log
  have hlogged : Logged id (run updates) log := logged_run updates id
  refine ⟨hlogged.hasNode_iff, fun n hn => ?_⟩
  have hcontent : log.foldl Submission.into none = some (n.labels, n.properties) := by
    rw [← hlogged.content, content?, hn]
    rfl
  have hgathered : Gathered log (n.labels, n.properties) := gathered_foldl_into hnormal hcontent
  refine ⟨hgathered.labels, hgathered.keys, fun key => ?_⟩
  rw [← hgathered.values key]
  exact Properties.get?_eq_ofDistinct? hgathered.normal key

/-- A node that is made up as the end of an edge and added twice later on, while
the edge goes. -/
def madeUpFirst : List (EndpointStrategy × Update) :=
  [(.default, .addEdge ⟨.int 1, "YIELDS", .int 2⟩ .empty),
    (.default, .addNode (.int 2) ["SEED"] (Properties.set .empty "line_id" (.integer 3))),
    (.default, .removeEdge ⟨.int 1, "YIELDS", .int 2⟩),
    (.default, .addNode (.int 1) ["PLANT"] (Properties.set .empty "line_id" (.integer 5))),
    (.default, .addNode (.int 2) ["CROP", "SEED"]
      (Properties.set (Properties.set .empty "line_id" (.integer 4)) autoKey (.boolean true))),
    (.default, .unifySynonyms {})]

theorem run_gathers_madeUpFirst :
    (∀ s ∈ submissions madeUpFirst (.int 2), s.properties.Normal) ∧
      ∃ n, (run madeUpFirst).node? (.int 2) = some n ∧ n.labels = ["SEED", "CROP"] ∧
        n.properties.keys = [autoKey, "line_id"] ∧
        n.properties.get? "line_id" = some (.several [.integer 3, .integer 4]) ∧
        n.properties.get? autoKey = some (.single (.boolean true)) := by
  have hnormal : ∀ s ∈ submissions madeUpFirst (.int 2), s.properties.Normal := by decide
  obtain ⟨hstored, hcontent⟩ := run_gathers madeUpFirst (.int 2) hnormal
  obtain ⟨n, hn⟩ := Graph.hasNode_iff.1 (hstored.2 (by decide))
  obtain ⟨hlabels, hkeys, hvalues⟩ := hcontent n hn
  exact ⟨hnormal, n, hn, hlabels.trans (by decide), hkeys.trans (by decide),
    (hvalues "line_id").trans (by decide), (hvalues autoKey).trans (by decide)⟩

end Graph

end PropertyGraph
