/-
How many edges a run inserts, and that no counter counts more.

A counter goes up only when an edge is inserted, new or not, and by one.  So the number
of insertions bounds every counter, in all the graphs that a run passes through; a run
of fewer than `2 ^ 32` insertions fits all its counters into words of thirty-two bits.

* **`Graph.Built`** — what nodes and edges added and removed one at a time build, with
  the number of insertions among these steps;
* **`Built.moveEdge`**, **`Built.readText`**, **`Built.unifySynonyms`** — the other
  updates consist of such steps, and what they report tells the insertions;
* **`run_built`** — so does a run, with `insertions` of them;
* **`Built.countsUpTo`** — the bound.
-/
import PropertyGraph.Proofs.Graph.Counts
import PropertyGraph.Proofs.Graph.Runs

namespace PropertyGraph

/-- How many edges a merge has inserted. -/
def SynonymReport.insertions (r : SynonymReport) : Nat := r.synonymsAdded + r.edgesMoved

/-- How many edges an update inserts into a graph, those included that are stored
already and those that it takes from elsewhere. -/
def Update.insertions (strategy : EndpointStrategy) (g : Graph) : Update → Nat
  | addNode .. => 0
  | addEdge .. => 1
  | removeEdge _ => 0
  | moveEdge k newStart newFinish => (g.moveEdge strategy k newStart newFinish).2.toNat
  | readText text => (Graph.recordsRead (Graph.textLines text)).countP Record.isEdge
  | unifySynonyms config => (g.unifySynonyms strategy config).2.insertions

namespace Graph

/-- How many edges updates insert that begin with a graph. -/
def insertionsFrom : Graph → List (EndpointStrategy × Update) → Nat
  | _, [] => 0
  | g, u :: updates => u.2.insertions u.1 g + insertionsFrom (u.2.apply u.1 g) updates

/-- How many edges a run inserts. -/
def insertions (updates : List (EndpointStrategy × Update)) : Nat := insertionsFrom empty updates

/-- A graph that is built from the empty one step by step, with the number of
insertions among the steps. -/
inductive Built : Nat → Graph → Prop
  | empty : Built 0 empty
  | addNode {n : Nat} {g : Graph} (h : Built n g) (id : NodeId) (labels : List String)
      (properties : Properties) : Built n (g.addNode id labels properties)
  | addEdge {n : Nat} {g : Graph} (h : Built n g) (strategy : EndpointStrategy) (k : EdgeKey)
      (properties : Properties) : Built (n + 1) (g.addEdge strategy k properties)
  | removeEdge {n : Nat} {g : Graph} (h : Built n g) (k : EdgeKey) : Built n (g.removeEdge k)

variable {strategy : EndpointStrategy} {g : Graph} {m : Nat}

/-! ### Updates in steps -/

theorem Built.moveEdge (h : Built m g) (strategy : EndpointStrategy) (k : EdgeKey)
    (newStart newFinish : Option NodeId) :
    Built (m + (g.moveEdge strategy k newStart newFinish).2.toNat)
      (g.moveEdge strategy k newStart newFinish).1 := by
  rw [Graph.moveEdge]
  split
  · exact (h.removeEdge k).addEdge strategy _ _
  · exact h

theorem Built.moveFinish {source target : NodeId} {state : Graph × Nat}
    (h : Built (m + state.2) state.1) (k : EdgeKey) :
    Built (m + (moveFinish strategy source target state k).2)
      (moveFinish strategy source target state k).1 := by
  rw [Graph.moveFinish]
  split
  · dsimp only
    rw [← Nat.add_assoc]
    exact h.moveEdge strategy k none (some target)
  · exact h

theorem Built.moveEnds {source target : NodeId} {state : Graph × Nat}
    (h : Built (m + state.2) state.1) (k : EdgeKey) :
    Built (m + (moveEnds strategy source target state k).2)
      (moveEnds strategy source target state k).1 := by
  rw [Graph.moveEnds]
  split
  · have hmoved := h.moveEdge strategy k (some target) none
    dsimp only
    split
    · next hyes =>
      rw [hyes, Bool.toNat_true, Nat.add_assoc] at hmoved
      exact Built.moveFinish (by exact hmoved) _
    · exact h
  · exact h.moveFinish k

/-- What each step of a fold counts of its insertions, the fold counts. -/
theorem Built.foldl {α β : Type} (count : β → Nat) {f : Graph × β → α → Graph × β}
    (hf : ∀ state a, Built (m + count state.2) state.1 →
      Built (m + count (f state a).2) (f state a).1)
    (l : List α) {state : Graph × β} (h : Built (m + count state.2) state.1) :
    Built (m + count (l.foldl f state).2) (l.foldl f state).1 := by
  induction l generalizing state with
  | nil => exact h
  | cons a l ih => exact ih (hf state a h)

theorem Built.moveTouching (h : Built m g) (strategy : EndpointStrategy) (source target : NodeId)
    (relation : String) :
    Built (m + (g.moveTouching strategy source target relation).2)
      (g.moveTouching strategy source target relation).1 :=
  Built.foldl id (fun _ k hstate => hstate.moveEnds k) _ h

theorem Built.unifyMember {relation : String} {canonical : NodeId} {state : Graph × SynonymReport}
    (h : Built (m + state.2.insertions) state.1) (member : NodeId) :
    Built (m + (unifyMember strategy relation canonical state member).2.insertions)
      (unifyMember strategy relation canonical state member).1 := by
  let forward : EdgeKey := ⟨canonical, relation, member⟩
  let added := !state.1.hasEdge forward
  let g₁ := if added then state.1.addEdge strategy forward autoProperties else state.1
  have hadded : Built (m + state.2.insertions + added.toNat) g₁ := by
    cases hnew : added with
    | true =>
      simp only [g₁, hnew, if_true]
      exact h.addEdge strategy forward autoProperties
    | false =>
      simp only [g₁, hnew]
      exact h
  -- Taking the reverse edge out inserts nothing; what is moved next, `moveTouching` counts.
  have hmoved := (hadded.removeEdge ⟨member, relation, canonical⟩).moveTouching strategy member
    canonical relation
  rw [SynonymReport.insertions, Nat.add_assoc, Nat.add_assoc, Nat.add_add_add_comm] at hmoved
  exact hmoved

/-- The report of a merge counts the insertions of all its members. -/
theorem Built.unifySynonyms (h : Built m g) (strategy : EndpointStrategy)
    (config : SynonymConfig) :
    Built (m + (g.unifySynonyms strategy config).2.insertions)
      (g.unifySynonyms strategy config).1 :=
  Built.foldl SynonymReport.insertions (fun _ _ hstate => Built.foldl _
    (fun _ member hmerged => hmerged.unifyMember member) _ hstate) _ h

theorem Built.addRecords (h : Built m g) (strategy : EndpointStrategy) (records : List Record) :
    Built (m + records.countP Record.isEdge) (records.foldl (Graph.addRecord strategy) g) := by
  induction records generalizing m g with
  | nil => exact h
  | cons r records ih =>
    cases r with
    | node id labels properties => exact ih (h.addNode id labels _)
    | edge k properties =>
      rw [List.countP_cons_of_pos rfl, Nat.add_comm _ 1, ← Nat.add_assoc]
      exact ih (h.addEdge strategy k _)

theorem Built.readText (h : Built m g) (strategy : EndpointStrategy) (text : String) :
    Built (m + (recordsRead (textLines text)).countP Record.isEdge)
      (g.readText strategy text).1 := by
  rw [Graph.readText, fst_readLines]
  exact h.addRecords strategy _

theorem Built.apply (h : Built m g) (strategy : EndpointStrategy) (u : Update) :
    Built (m + u.insertions strategy g) (u.apply strategy g) := by
  cases u with
  | addNode id labels properties => exact h.addNode id labels properties
  | addEdge k properties => exact h.addEdge strategy k properties
  | removeEdge k => exact h.removeEdge k
  | moveEdge k newStart newFinish => exact h.moveEdge strategy k newStart newFinish
  | readText text => exact h.readText strategy text
  | unifySynonyms config => exact h.unifySynonyms strategy config

theorem Built.foldl_apply (h : Built m g) (updates : List (EndpointStrategy × Update)) :
    Built (m + insertionsFrom g updates) (updates.foldl (fun g u => u.2.apply u.1 g) g) := by
  induction updates generalizing m g with
  | nil => exact h
  | cons u updates ih =>
    rw [insertionsFrom, ← Nat.add_assoc]
    exact ih (h.apply u.1 u.2)

/-- Every graph of a run is built step by step, its insertions counted. -/
theorem run_built (updates : List (EndpointStrategy × Update)) :
    Built (insertions updates) (run updates) := by
  have h := Built.empty.foldl_apply updates
  rwa [Nat.zero_add] at h

/-! ### The bound -/

/-- No node counts a neighbour more often than `m` times. -/
def CountsUpTo (m : Nat) (g : Graph) : Prop := ∀ a b, g.outCount a b ≤ m ∧ g.inCount a b ≤ m

theorem CountsUpTo.mono (h : CountsUpTo m g) {n : Nat} (hmn : m ≤ n) : CountsUpTo n g :=
  fun a b => ⟨Nat.le_trans (h a b).1 hmn, Nat.le_trans (h a b).2 hmn⟩

theorem CountsUpTo.addNode (h : CountsUpTo m g) (id : NodeId) (labels : List String)
    (properties : Properties) : CountsUpTo m (g.addNode id labels properties) := fun a b => by
  rw [outCount_addNode, inCount_addNode]
  exact h a b

theorem CountsUpTo.addEndpoints (h : CountsUpTo m g) (k : EdgeKey) (properties : Properties) :
    CountsUpTo m (addEndpoints strategy g k properties) := fun a b => by
  rw [outCount_addEndpoints, inCount_addEndpoints]
  exact h a b

theorem CountsUpTo.countEdge (h : CountsUpTo m g) (k : EdgeKey) :
    CountsUpTo (m + 1) (g.countEdge k) := fun a b =>
  ⟨Nat.le_trans (outCount_countEdge_le g k a b) (Nat.add_le_add_right (h a b).1 1),
    Nat.le_trans (inCount_countEdge_le g k a b) (Nat.add_le_add_right (h a b).2 1)⟩

theorem CountsUpTo.addEdge (h : CountsUpTo m g) (k : EdgeKey) (properties : Properties) :
    CountsUpTo (m + 1) (g.addEdge strategy k properties) := by
  rw [addEdge_eq]
  by_cases hk : g.hasEdge k = true
  · rw [if_pos hk]
    exact CountsUpTo.countEdge (by exact h) k
  · rw [if_neg hk]
    exact CountsUpTo.countEdge (by exact h.addEndpoints k properties) k

theorem CountsUpTo.removeEdge (h : CountsUpTo m g) (k : EdgeKey) :
    CountsUpTo m (g.removeEdge k) := by
  rw [Graph.removeEdge]
  split
  · intro a b
    rw [outCount_uncountEdge, inCount_uncountEdge]
    exact ⟨Nat.le_trans (Nat.sub_le _ _) (h a b).1, Nat.le_trans (Nat.sub_le _ _) (h a b).2⟩
  · exact h

/-- No counter counts more than all insertions. -/
theorem Built.countsUpTo (h : Built m g) : CountsUpTo m g := by
  induction h with
  | empty => exact fun _ _ => ⟨Nat.le_refl 0, Nat.le_refl 0⟩
  | addNode _ id labels properties ih => exact ih.addNode id labels properties
  | addEdge _ strategy k properties ih => exact ih.addEdge k properties
  | removeEdge _ k ih => exact ih.removeEdge k

theorem CountsUpTo.entry_le (h : CountsUpTo m g) {id : NodeId} {n : Node}
    (hn : g.node? id = some n) {e : NodeId × Nat}
    (he : e ∈ n.outgoing.entries ++ n.incoming.entries) : e.2 ≤ m := by
  have hcounts := h id e.1
  rw [outCount, inCount, hn] at hcounts
  obtain hout | hin := List.mem_append.1 he
  · exact Counter.count_of_mem hout ▸ hcounts.1
  · exact Counter.count_of_mem hin ▸ hcounts.2

end Graph

end PropertyGraph
