/-
Updates in a row, and what they keep.

All updates are made of three: adding a node, adding an edge and removing one.
What these keep, moving, reading and merging keep too, for what they add is
stored already, is read from a line, or is the mark of what has been made up.

* **`KeptByMoves`** — what moving an edge keeps, moving several keeps;
* **`fst_readLines`** — reading lines adds their records;
* **`Graph.Invariant`** — what has to be shown of the three;
* **`Invariant.moveEdge`**, **`Invariant.readText`**,
  **`Invariant.unifySynonyms`** — the other updates;
* **`run_induction`** — whole runs.
-/
import PropertyGraph.Graph.Synonyms
import PropertyGraph.Record.Stream

namespace PropertyGraph

/-- What can be done to a graph. -/
inductive Update where
  | addNode (id : NodeId) (labels : List String) (properties : Properties)
  | addEdge (k : EdgeKey) (properties : Properties)
  | removeEdge (k : EdgeKey)
  | moveEdge (k : EdgeKey) (newStart newFinish : Option NodeId)
  | readText (text : String)
  | unifySynonyms (config : SynonymConfig)

/-- The graph after an update under an endpoint strategy. -/
def Update.apply (strategy : EndpointStrategy) (g : Graph) : Update → Graph
  | addNode id labels properties => g.addNode id labels properties
  | addEdge k properties => g.addEdge strategy k properties
  | removeEdge k => g.removeEdge k
  | moveEdge k newStart newFinish => (g.moveEdge strategy k newStart newFinish).1
  | readText text => (g.readText strategy text).1
  | unifySynonyms config => (g.unifySynonyms strategy config).1

/-- The properties that an update is called with meet a condition. -/
def Update.Supplies (Q : Properties → Prop) : Update → Prop
  | addNode _ _ properties => Q properties
  | addEdge _ properties => Q properties
  | _ => True

theorem Update.supplies_true (u : Update) : u.Supplies fun _ => True := by
  cases u <;> trivial

/-- The properties that a record gives. -/
def Record.supplied : Record → Properties
  | node _ _ properties => .ofMembers properties
  | edge _ properties => .ofMembers properties

namespace Graph

/-- The graph that updates build from the empty one, each under a strategy of
its own. -/
def run (updates : List (EndpointStrategy × Update)) : Graph :=
  updates.foldl (fun g u => u.2.apply u.1 g) empty

/-- What each step of a fold keeps of the graph beside a count or a report, the
fold keeps. -/
theorem foldl_fst {P : Graph → Prop} {α β : Type} {f : Graph × α → β → Graph × α}
    (hf : ∀ state b, P state.1 → P (f state b).1) (l : List β) {state : Graph × α}
    (hstate : P state.1) : P (l.foldl f state).1 := by
  induction l generalizing state with
  | nil => exact hstate
  | cons b l ih => exact ih (hf state b hstate)

/-- A condition on graphs that moving an edge keeps. -/
def KeptByMoves (strategy : EndpointStrategy) (P : Graph → Prop) : Prop :=
  ∀ g, P g → ∀ k newStart newFinish, P (g.moveEdge strategy k newStart newFinish).1

namespace KeptByMoves

variable {strategy : EndpointStrategy} {P : Graph → Prop} {g : Graph}

theorem moveFinish (h : KeptByMoves strategy P) {source target : NodeId} (state : Graph × Nat)
    (k : EdgeKey) (hstate : P state.1) : P (moveFinish strategy source target state k).1 := by
  rw [Graph.moveFinish]
  split
  · exact h _ hstate _ _ _
  · exact hstate

theorem moveEnds (h : KeptByMoves strategy P) {source target : NodeId} (state : Graph × Nat)
    (k : EdgeKey) (hstate : P state.1) : P (moveEnds strategy source target state k).1 := by
  rw [Graph.moveEnds]
  split
  · dsimp only
    split
    · exact h.moveFinish _ _ (h _ hstate _ _ _)
    · exact hstate
  · exact h.moveFinish _ _ hstate

theorem moveTouching (h : KeptByMoves strategy P) (hg : P g) (source target : NodeId)
    (relation : String) : P (g.moveTouching strategy source target relation).1 :=
  foldl_fst h.moveEnds _ hg

end KeptByMoves

/-- The records that lines hold, up to the first line that is malformed. -/
def recordsRead : List String → List Record
  | [] => []
  | line :: lines =>
    if line.toList.all Text.isBlank then recordsRead lines
    else
      match Record.parse? line with
      | some r => r :: recordsRead lines
      | none => []

theorem exists_parse?_of_mem_recordsRead {lines : List String} {r : Record}
    (hr : r ∈ recordsRead lines) : ∃ line, Record.parse? line = some r := by
  induction lines with
  | nil => cases hr
  | cons line lines ih =>
    rw [recordsRead] at hr
    split at hr
    · exact ih hr
    · cases hline : Record.parse? line with
      | none =>
        rw [hline] at hr
        cases hr
      | some first =>
        rw [hline] at hr
        obtain rfl | hrest := List.mem_cons.1 hr
        · exact ⟨line, hline⟩
        · exact ih hrest

/-- Reading lines adds their records one by one, and nothing after a malformed
line. -/
theorem fst_readLines (strategy : EndpointStrategy) (g : Graph) (s : ReadSummary) (number : Nat)
    (lines : List String) :
    (g.readLines strategy s number lines).1 =
      (recordsRead lines).foldl (addRecord strategy) g := by
  induction lines generalizing g s number with
  | nil => rfl
  | cons line lines ih =>
    rw [readLines, recordsRead]
    split
    · exact ih _ _ _
    · cases Record.parse? line with
      | some r => exact ih _ _ _
      | none => rfl

/-- A condition on graphs that adding and removing keeps, as long as a condition
on properties is met by all that is added.  What is stored in such a graph meets
it, and so do the mark and all that can be read. -/
structure Invariant (strategy : EndpointStrategy) (Q : Properties → Prop) (P : Graph → Prop) :
    Prop where
  addNode : ∀ {g}, P g → ∀ id labels {properties}, Q properties → P (g.addNode id labels properties)
  addEdge : ∀ {g}, P g → ∀ k {properties}, Q properties → P (g.addEdge strategy k properties)
  removeEdge : ∀ {g}, P g → ∀ k, P (g.removeEdge k)
  stored : ∀ {g}, P g → ∀ {k e}, g.edges.get? k = some e → Q e.properties
  marked : Q autoProperties
  recorded : ∀ {line r}, Record.parse? line = some r → Q r.supplied

namespace Invariant

variable {strategy : EndpointStrategy} {Q : Properties → Prop} {P : Graph → Prop} {g : Graph}

theorem moveEdge (h : Invariant strategy Q P) (hg : P g) (k : EdgeKey)
    (newStart newFinish : Option NodeId) : P (g.moveEdge strategy k newStart newFinish).1 := by
  rw [Graph.moveEdge]
  split
  · next e target hk _ => exact h.addEdge (h.removeEdge hg k) target (h.stored hg hk)
  · exact hg

theorem keptByMoves (h : Invariant strategy Q P) : KeptByMoves strategy P :=
  fun _ hg => h.moveEdge hg

theorem addRecord (h : Invariant strategy Q P) (hg : P g) {r : Record} (hr : Q r.supplied) :
    P (g.addRecord strategy r) := by
  cases r with
  | node id labels properties => exact h.addNode hg id labels hr
  | edge k properties => exact h.addEdge hg k hr

theorem addRecords (h : Invariant strategy Q P) (hg : P g) {records : List Record}
    (hrecords : ∀ r ∈ records, Q r.supplied) :
    P (records.foldl (Graph.addRecord strategy) g) := by
  induction records generalizing g with
  | nil => exact hg
  | cons r records ih =>
    obtain ⟨hr, hrest⟩ := List.forall_mem_cons.1 hrecords
    exact ih (h.addRecord hg hr) hrest

/-- What has been read before a malformed line stays. -/
theorem readText (h : Invariant strategy Q P) (hg : P g) (text : String) :
    P (g.readText strategy text).1 := by
  rw [Graph.readText, fst_readLines]
  refine h.addRecords hg fun r hr => ?_
  obtain ⟨line, hline⟩ := exists_parse?_of_mem_recordsRead hr
  exact h.recorded hline

theorem unifyMember (h : Invariant strategy Q P) {relation : String} {canonical : NodeId}
    (state : Graph × SynonymReport) (member : NodeId) (hstate : P state.1) :
    P (unifyMember strategy relation canonical state member).1 := by
  refine h.keptByMoves.moveTouching (h.removeEdge ?_ _) _ _ _
  split
  · exact h.addEdge hstate _ h.marked
  · exact hstate

theorem unifySynonyms (h : Invariant strategy Q P) (hg : P g) (config : SynonymConfig) :
    P (g.unifySynonyms strategy config).1 :=
  foldl_fst (fun _ _ hstate => foldl_fst h.unifyMember _ hstate) _ hg

theorem apply (h : Invariant strategy Q P) (hg : P g) {u : Update} (hu : u.Supplies Q) :
    P (u.apply strategy g) := by
  cases u with
  | addNode id labels properties => exact h.addNode hg _ _ hu
  | addEdge k properties => exact h.addEdge hg _ hu
  | removeEdge k => exact h.removeEdge hg _
  | moveEdge k newStart newFinish => exact h.moveEdge hg _ _ _
  | readText text => exact h.readText hg _
  | unifySynonyms config => exact h.unifySynonyms hg _

end Invariant

/-- What the empty graph meets and every update of a run keeps, the whole run
meets. -/
theorem run_induction {Q : Properties → Prop} {P : Graph → Prop} (hempty : P empty)
    {updates : List (EndpointStrategy × Update)}
    (h : ∀ u ∈ updates, Invariant u.1 Q P ∧ u.2.Supplies Q) : P (run updates) := by
  suffices hfold : ∀ g : Graph, P g → P (updates.foldl (fun g u => u.2.apply u.1 g) g) from
    hfold empty hempty
  induction updates with
  | nil => exact fun g hg => hg
  | cons u updates ih =>
    obtain ⟨⟨hinvariant, hsupplied⟩, hrest⟩ := List.forall_mem_cons.1 h
    exact fun g hg => ih hrest _ (hinvariant.apply hg hsupplied)

end Graph

end PropertyGraph
