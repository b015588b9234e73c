/-
The ends that an edge makes up, and what becomes of them.

An edge whose ends are missing adds them first: each from its own half of what
the strategy tells, a node that is both ends from that of the start.  Nothing
else about the nodes changes, and no later edge adds to a node that is there.  So
a node without a record of its own holds what the first edge that names it tells,
and the strategies of the library always tell the mark.

* **`Sound.contents_addEdge`** — the nodes after an edge has been added;
* **`foldl_logRecord`** — of a node without a record, the first edge that names
  it tells, and no other;
* **`EndpointConfig.get?_endProperties`** — what the rules tell, key by key;
* **`addEdge_makesUp`** — adding an edge, and the made-up nodes of a reading.
-/
import PropertyGraph.Graph.Endpoints
import PropertyGraph.Proofs.Graph.Submissions
import PropertyGraph.Proofs.Record.Reordering

namespace PropertyGraph

namespace Graph

variable {strategy : EndpointStrategy} {g : Graph}

/-! ### Adding an edge -/

/-- The ends that an edge lacks, with the labels and properties that they are
made up with. -/
def madeUpEnds (strategy : EndpointStrategy) (g : Graph) (k : EdgeKey) (properties : Properties) :
    List (NodeId × List String × Properties) :=
  let told := strategy k properties
  (if g.hasNode k.start then []
    else [(k.start, appendNew [] told.startLabels, told.startProperties)]) ++
  if g.hasNode k.finish ∨ k.finish = k.start then []
    else [(k.finish, appendNew [] told.finishLabels, told.finishProperties)]

/-- A node that is added only if it is missing. -/
theorem contents_addMissing (g : Graph) (id : NodeId) (labels : List String)
    (properties : Properties) :
    (if g.hasNode id then g else g.addNode id labels properties).contents =
      g.contents ++ if g.hasNode id then [] else [(id, appendNew [] labels, properties)] := by
  by_cases hid : g.hasNode id = true
  · rw [if_pos hid, if_pos hid, List.append_nil]
  · rw [if_neg hid, if_neg hid]
    exact contents_addNode_of_missing (Bool.eq_false_iff.2 hid) labels properties

theorem contents_addEndpoints (g : Graph) (k : EdgeKey) (properties : Properties) :
    (addEndpoints strategy g k properties).contents =
      g.contents ++ g.madeUpEnds strategy k properties := by
  let told := strategy k properties
  let g₁ := if g.hasNode k.start then g else g.addNode k.start told.startLabels told.startProperties
  have hstart : g₁.contents = g.contents ++ if g.hasNode k.start then [] else
      [(k.start, appendNew [] told.startLabels, told.startProperties)] :=
    contents_addMissing g _ _ _
  have hfinish : (addEndpoints strategy g k properties).contents =
      g₁.contents ++ if g₁.hasNode k.finish then [] else
        [(k.finish, appendNew [] told.finishLabels, told.finishProperties)] :=
    contents_addMissing g₁ _ _ _
  -- By now the end is also there if it is the start.
  have hthere : g₁.hasNode k.finish = true ↔ g.hasNode k.finish = true ∨ k.finish = k.start := by
    show (if g.hasNode k.start then g else _).hasNode k.finish = true ↔ _
    split
    · next hs =>
      refine ⟨.inl, ?_⟩
      rintro (hf | hself)
      · exact hf
      · rwa [hself]
    · rw [hasNode_addNode, or_comm]
  rw [hfinish, hstart, List.append_assoc, madeUpEnds]
  simp only [hthere, told]

/-- A stored edge lacks no end. -/
theorem Sound.madeUpEnds_eq_nil (hg : g.Sound) {k : EdgeKey} (hk : g.hasEdge k = true)
    (strategy : EndpointStrategy) (properties : Properties) :
    g.madeUpEnds strategy k properties = [] := by
  rw [madeUpEnds, if_pos (hg.hasNode_start k hk), if_pos (.inl (hg.hasNode_finish k hk))]
  rfl

theorem Sound.contents_addEdge (hg : g.Sound) (strategy : EndpointStrategy) (k : EdgeKey)
    (properties : Properties) :
    (g.addEdge strategy k properties).contents =
      g.contents ++ g.madeUpEnds strategy k properties := by
  rw [addEdge_eq, contents_countEdge]
  by_cases hk : g.hasEdge k = true
  · rw [if_pos hk, hg.madeUpEnds_eq_nil hk, List.append_nil]
    rfl
  · rw [if_neg hk]
    exact contents_addEndpoints g k properties

theorem Sound.content?_addEdge_of_stored (hg : g.Sound) (strategy : EndpointStrategy) (k : EdgeKey)
    (properties : Properties) {id : NodeId} (hid : g.hasNode id = true) :
    (g.addEdge strategy k properties).content? id = g.content? id := by
  obtain ⟨c, hc⟩ := Option.ne_none_iff_exists'.1 (mt content?_eq_none_iff.1 (not_not.2 hid))
  rw [hg.content?_addEdge, hc, Option.some_or]

end Graph

/-! ### Nodes without a record -/

theorem EndpointStrategy.told?_eq_none_iff {strategy : EndpointStrategy} {k : EdgeKey}
    {properties : Properties} {id : NodeId} :
    strategy.told? k properties id = none ↔ ¬(id = k.start ∨ id = k.finish) := by
  rw [told?, not_or, eq_comm (a := id), eq_comm (a := id)]
  by_cases hs : k.start = id <;> by_cases hf : k.finish = id <;> simp [hs, hf]

/-- What a record tells of a node that it is not the record of. -/
def Record.told? (strategy : EndpointStrategy) (id : NodeId) : Record → Option Submission
  | node .. => none
  | edge k properties => strategy.told? k (.ofMembers properties) id

variable {strategy : EndpointStrategy} {id : NodeId} {records : List Record}

theorem logRecord_eq {r : Record} (hr : ∀ labels properties, r ≠ .node id labels properties)
    (log : List Submission) :
    logRecord strategy id log r =
      if log.isEmpty then (r.told? strategy id).toList else log := by
  cases r with
  | node other labels properties =>
    have hother : other ≠ id := fun h => hr labels properties (h ▸ rfl)
    show logNode id log other labels _ = if log.isEmpty then [] else log
    rw [logNode, if_neg hother]
    cases log <;> rfl
  | edge k properties => rfl

/-- Once something has been told of the node, nothing is added. -/
theorem foldl_logRecord_singleton (h : ∀ labels properties, .node id labels properties ∉ records)
    (s : Submission) : records.foldl (logRecord strategy id) [s] = [s] := by
  induction records with
  | nil => rfl
  | cons r rest ih =>
    have hr : ∀ labels properties, r ≠ .node id labels properties := fun labels properties heq =>
      h labels properties (heq ▸ List.mem_cons_self)
    rw [List.foldl_cons, logRecord_eq hr]
    exact ih fun labels properties => mt (List.mem_cons_of_mem r) (h labels properties)

/-- Of a node without a record of its own, the first edge that names it tells, and
no other. -/
theorem foldl_logRecord (h : ∀ labels properties, .node id labels properties ∉ records) :
    records.foldl (logRecord strategy id) [] =
      (records.findSome? (Record.told? strategy id)).toList := by
  induction records with
  | nil => rfl
  | cons r rest ih =>
    have hr : ∀ labels properties, r ≠ .node id labels properties := fun labels properties heq =>
      h labels properties (heq ▸ List.mem_cons_self)
    have hrest : ∀ labels properties, .node id labels properties ∉ rest := fun labels properties =>
      mt (List.mem_cons_of_mem r) (h labels properties)
    rw [List.foldl_cons, logRecord_eq hr, List.findSome?_cons]
    cases r.told? strategy id with
    | none => exact ih hrest
    | some s => exact foldl_logRecord_singleton hrest s

/-! ### The mark -/

/-- The properties that are carried replace those under the same keys. -/
theorem EndpointConfig.get?_carried (properties : Properties) (keys : List String)
    (known : Properties) (key : String) :
    (keys.foldl (fun m key =>
      match properties.get? key with
      | some p => m.insert key p
      | none => m) known).get? key =
      (if key ∈ keys then properties.get? key else none).or (known.get? key) := by
  induction keys generalizing known with
  | nil => rfl
  | cons first keys ih =>
    rw [List.foldl_cons, ih]
    by_cases hkey : key = first
    · subst hkey
      rw [if_pos List.mem_cons_self]
      cases hp : properties.get? key with
      | none => split <;> rfl
      | some p =>
        dsimp only
        rw [OrderedMap.get?_insert, if_pos rfl]
        split <;> rfl
    · have hknown : (match properties.get? first with
          | some p => known.insert first p
          | none => known).get? key = known.get? key := by
        split
        · rw [OrderedMap.get?_insert, if_neg hkey]
        · rfl
      have hmem : key ∈ first :: keys ↔ key ∈ keys := by rw [List.mem_cons, or_iff_right hkey]
      simp only [hknown, hmem]

/-- What the rules tell of an end, key by key: the mark wins over what is carried,
and that over the lexicon. -/
theorem EndpointConfig.get?_endProperties (c : EndpointConfig)
    (lexicon : OrderedMap NodeId String) (id : NodeId) (properties : Properties) (key : String) :
    (c.endProperties lexicon id properties).get? key =
      if key = autoKey then some (.single (.boolean true))
      else (if key ∈ c.carry then properties.get? key else none).or
        (if key = "lemma" then (lexicon.get? id).map fun l => .single (.text l) else none) := by
  rw [endProperties, Properties.set, OrderedMap.get?_insert]
  congr 1
  refine (get?_carried properties c.carry _ key).trans ?_
  congr 1
  cases lexicon.get? id with
  | none => exact (ite_self none).symm
  | some l =>
    show (Properties.set .empty "lemma" (.text l)).get? key = _
    rw [Properties.set, OrderedMap.get?_insert]
    rfl

/-- A strategy that tells the mark of every end. -/
def EndpointStrategy.Marks (strategy : EndpointStrategy) : Prop :=
  ∀ k properties id s, strategy.told? k properties id = some s →
    s.properties.get? autoKey = some (.single (.boolean true))

theorem EndpointStrategy.marks_of_forall
    (h : ∀ k properties,
      (strategy k properties).startProperties.get? autoKey = some (.single (.boolean true)) ∧
      (strategy k properties).finishProperties.get? autoKey = some (.single (.boolean true))) :
    strategy.Marks := by
  intro k properties id s hs
  rw [told?] at hs
  split at hs
  · cases hs
    exact (h k properties).1
  · split at hs
    · cases hs
      exact (h k properties).2
    · cases hs

theorem marks_default : EndpointStrategy.default.Marks :=
  EndpointStrategy.marks_of_forall fun _ _ => ⟨rfl, rfl⟩

theorem EndpointConfig.marks_strategy (c : EndpointConfig) (lexicon : OrderedMap NodeId String) :
    (c.strategy lexicon).Marks :=
  EndpointStrategy.marks_of_forall fun _ _ =>
    ⟨(get?_endProperties ..).trans (if_pos rfl), (get?_endProperties ..).trans (if_pos rfl)⟩

namespace Graph

/-- A node that a reading leaves and that has no record holds what the first edge
that names it tells. -/
theorem exists_told_of_unrecorded (h : ∀ labels properties, .node id labels properties ∉ records)
    {n : Node} (hn : (records.foldl (addRecord strategy) empty).node? id = some n) :
    ∃ before k properties after s, records = before ++ .edge k properties :: after ∧
      (∀ r ∈ before, ¬r.Names id) ∧ strategy.told? k (.ofMembers properties) id = some s ∧
      n.labels = appendNew [] s.labels ∧ n.properties = s.properties := by
  have hcontent : (records.foldl (addRecord strategy) empty).content? id = some (n.labels,
      n.properties) := by
    rw [content?, hn]
    rfl
  rw [((logged_empty id).addRecords records).content, foldl_logRecord h] at hcontent
  cases hs : records.findSome? (Record.told? strategy id) with
  | none =>
    rw [hs] at hcontent
    cases hcontent
  | some s =>
    rw [hs] at hcontent
    have hkept : (appendNew [] s.labels, s.properties) = (n.labels, n.properties) :=
      Option.some.inj hcontent
    obtain ⟨hlabels, hproperties⟩ := Prod.mk.inj hkept
    obtain ⟨before, r, after, hrecords, hr, hbefore⟩ := List.findSome?_eq_some_iff.1 hs
    cases r with
    | node => cases hr
    | edge k properties =>
      refine ⟨before, k, properties, after, s, hrecords, ?_, hr, hlabels.symm, hproperties.symm⟩
      -- A record before it tells nothing, and it is no record of the node either.
      intro r hmem hnames
      cases r with
      | node other labels members =>
        refine h labels members (hrecords ▸ List.mem_append_left _ ?_)
        rw [show id = other from hnames]
        exact hmem
      | edge k' members =>
        exact EndpointStrategy.told?_eq_none_iff.1 (hbefore _ hmem) hnames

/-- The rules carry the mark and the lemma over from an edge. -/
def carrying : EndpointStrategy :=
  EndpointConfig.strategy
    { carry := [autoKey, "lemma"], rules := [⟨"PACIFIES", ["DRAVYA"], ["DOSHA", "DOSHA"]⟩] }
    (.ofList [(.int 2, "vata")])

/-- A node that three edges name, one of them as both its ends, and no record. -/
def overheard : List Record :=
  [.node (.int 1) ["DRAVYA"] [],
    .edge ⟨.int 1, "PACIFIES", .int 2⟩ [("lemma", .text "pitta"), (autoKey, .text "no")],
    .edge ⟨.int 2, "PACIFIES", .int 2⟩ [("lemma", .text "kapha")],
    .edge ⟨.int 2, "PRECEDES", .int 3⟩ []]

end Graph

end PropertyGraph
