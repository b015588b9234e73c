/-
What moving one edge does, and what it leaves as it is.

An edge is moved by removing it and adding it again elsewhere.  It goes to a new
start that is stored, or else to a new end that is stored (`MovesTo`), and at a
key that is taken it merges into the edge that is there.  Both ends of either key
are stored by then, so nothing is made up, and the counts follow the edge: one
less between the old ends, one more between the new.

* **`moveTarget?_eq_some_iff`** — where an edge goes;
* **`snd_moveEdge_eq_false_iff`** — when it stays;
* **`get?_edges_moveEdge`** — the edges after the move;
* **`Sound.outCount_moveEdge`** — the counts after the move;
* **`moveEdge_moves`** — all of it, for every graph that updates build.
-/
import PropertyGraph.Proofs.Graph.Moves

namespace PropertyGraph.Graph

variable {strategy : EndpointStrategy} {g : Graph}

/-- The key that an edge goes to when it is moved: a new start that is stored
comes first, a new end that is stored comes second, and what is not stored does
not count. -/
inductive MovesTo (g : Graph) (k : EdgeKey) : Option NodeId → Option NodeId → EdgeKey → Prop
  | start {id : NodeId} {newFinish : Option NodeId} (stored : g.hasNode id = true) :
      MovesTo g k (some id) newFinish ⟨id, k.label, k.finish⟩
  | finish {newStart : Option NodeId} {id : NodeId}
      (noStart : ∀ id, newStart = some id → g.hasNode id = false)
      (stored : g.hasNode id = true) : MovesTo g k newStart (some id) ⟨k.start, k.label, id⟩

theorem filter_hasNode_eq_none_iff {id? : Option NodeId} :
    id?.filter g.hasNode = none ↔ ∀ id, id? = some id → g.hasNode id = false := by
  rw [Option.filter_eq_none_iff]
  simp only [Bool.not_eq_true]

theorem moveTarget?_eq_some_iff {k target : EdgeKey} {newStart newFinish : Option NodeId} :
    g.moveTarget? k newStart newFinish = some target ↔ g.MovesTo k newStart newFinish target := by
  rw [moveTarget?]
  constructor
  · intro h
    split at h
    · next id _ hid =>
      obtain ⟨rfl, hstored⟩ := Option.filter_eq_some_iff.1 hid
      cases h
      exact .start hstored
    · next id hnone hid =>
      obtain ⟨rfl, hstored⟩ := Option.filter_eq_some_iff.1 hid
      cases h
      exact .finish (filter_hasNode_eq_none_iff.1 hnone) hstored
    · cases h
  · intro h
    cases h with
    | start stored => rw [Option.filter_some_pos stored]
    | finish noStart stored =>
      rw [filter_hasNode_eq_none_iff.2 noStart, Option.filter_some_pos stored]

theorem moveTarget?_eq_none_iff {k : EdgeKey} {newStart newFinish : Option NodeId} :
    g.moveTarget? k newStart newFinish = none ↔
      ∀ id, newStart = some id ∨ newFinish = some id → g.hasNode id = false := by
  have hboth : (∀ id, newStart = some id ∨ newFinish = some id → g.hasNode id = false) ↔
      newStart.filter g.hasNode = none ∧ newFinish.filter g.hasNode = none := by
    simp only [filter_hasNode_eq_none_iff, or_imp, forall_and]
  rw [hboth, moveTarget?]
  cases newStart.filter g.hasNode <;> cases newFinish.filter g.hasNode <;> simp

/-- An edge stays where it is if it is not stored or if no new end of it is. -/
theorem snd_moveEdge_eq_false_iff {k : EdgeKey} {newStart newFinish : Option NodeId} :
    (g.moveEdge strategy k newStart newFinish).2 = false ↔
      g.hasEdge k = false ∨
        ∀ id, newStart = some id ∨ newFinish = some id → g.hasNode id = false := by
  rw [hasEdge_eq_false_iff, ← moveTarget?_eq_none_iff (k := k), moveEdge]
  cases g.edges.get? k <;> cases g.moveTarget? k newStart newFinish <;> simp

theorem fst_moveEdge_of_snd {k : EdgeKey} {newStart newFinish : Option NodeId}
    (h : (g.moveEdge strategy k newStart newFinish).2 = false) :
    (g.moveEdge strategy k newStart newFinish).1 = g := by
  rw [moveEdge] at h ⊢
  split at h
  · cases h
  · rfl

section Move

variable {k target : EdgeKey} {newStart newFinish : Option NodeId} {e : Edge}

theorem moveEdge_eq (hk : g.edges.get? k = some e)
    (h : g.MovesTo k newStart newFinish target) :
    g.moveEdge strategy k newStart newFinish =
      ((g.removeEdge k).addEdge strategy target e.properties, true) := by
  rw [moveEdge, hk, moveTarget?_eq_some_iff.2 h]

/-- At its target the edge merges into the one that is there, unless that is the
edge itself, which is gone by then and comes back. -/
theorem get?_edges_moveEdge (hk : g.edges.get? k = some e)
    (h : g.MovesTo k newStart newFinish target) (other : EdgeKey) :
    (g.moveEdge strategy k newStart newFinish).1.edges.get? other =
      if other = target then
        some (if target = k then ⟨k, e.properties⟩ else g.submitted target e.properties)
      else if other = k then none else g.edges.get? other := by
  rw [moveEdge_eq hk h, get?_edges_addEdge, get?_edges_removeEdge]
  split
  · rw [submitted, get?_edges_removeEdge]
    split
    · next h => rw [h]; rfl
    · rfl
  · rfl

/-- Moving an edge takes one off the count between its old ends and adds one to
the count between its new ones, which may be the same. -/
theorem Sound.outCount_moveEdge (hg : g.Sound) (hk : g.edges.get? k = some e)
    (h : g.MovesTo k newStart newFinish target) (a b : NodeId) :
    (g.moveEdge strategy k newStart newFinish).1.outCount a b +
        (if a = k.start ∧ b = k.finish then 1 else 0) =
      g.outCount a b + if a = target.start ∧ b = target.finish then 1 else 0 := by
  have hremoved := (hg.counts_removeEdge (hasEdge_iff.2 ⟨e, hk⟩) a b).1
  have hadded : ((g.removeEdge k).addEdge strategy target e.properties).outCount a b =
      (g.removeEdge k).outCount a b + if a = target.start ∧ b = target.finish then 1 else 0 :=
    outCount_addEdge (hg.removeEdge k) target e.properties a b
  rw [moveEdge_eq hk h]
  dsimp only
  omega

/-- Both ends agree on every count before and after the move, so what is counted
at the ends changes as what is counted at the starts. -/
theorem Sound.inCount_moveEdge (hg : g.Sound) (hk : g.edges.get? k = some e)
    (h : g.MovesTo k newStart newFinish target) (a b : NodeId) :
    (g.moveEdge strategy k newStart newFinish).1.inCount b a +
        (if a = k.start ∧ b = k.finish then 1 else 0) =
      g.inCount b a + if a = target.start ∧ b = target.finish then 1 else 0 := by
  rw [← (hg.moveEdge k newStart newFinish).outCount_eq_inCount, ← hg.outCount_eq_inCount]
  exact hg.outCount_moveEdge hk h a b

end Move

/-- **Moving one edge.**  It is refused, and changes nothing, exactly if the edge
is not stored or none of the new ends is.  Otherwise the edge leaves its key and
merges at its target into whatever is there, or stays as it is if the two are
one; all other edges stay as they are, and so do all nodes with their labels and
properties, none of which is new.  Of the counts, the one between the old ends
loses one and the one between the new ends gains one. -/
theorem moveEdge_moves (updates : List (EndpointStrategy × Update)) (strategy : EndpointStrategy)
    (k : EdgeKey) (newStart newFinish : Option NodeId) :
    let g := run updates
    let g' := (g.moveEdge strategy k newStart newFinish).1
    let moved := (g.moveEdge strategy k newStart newFinish).2
    (moved = false ↔ g.hasEdge k = false ∨
      ∀ id, newStart = some id ∨ newFinish = some id → g.hasNode id = false) ∧
    (moved = false → g' = g) ∧
    ∀ e target, g.edges.get? k = some e →
      g.MovesTo k newStart newFinish target →
      moved = true ∧
      (target ≠ k → g'.edges.get? k = none ∧ g'.edges.get? target =
        some (((g.edges.get? target).map (·.update e.properties)).getD ⟨target, e.properties⟩)) ∧
      (target = k → g'.edges.get? k = some e) ∧
      (∀ other, other ≠ k → other ≠ target → g'.edges.get? other = g.edges.get? other) ∧
      g'.contents = g.contents ∧
      ∀ a b,
        g'.outCount a b + (if a = k.start ∧ b = k.finish then 1 else 0) =
          g.outCount a b + (if a = target.start ∧ b = target.finish then 1 else 0) ∧
        g'.inCount b a + (if a = k.start ∧ b = k.finish then 1 else 0) =
          g.inCount b a + (if a = target.start ∧ b = target.finish then 1 else 0) := by
  intro g g' moved
  have hg : g.Sound := run_sound updates
  refine ⟨snd_moveEdge_eq_false_iff, fst_moveEdge_of_snd, ?_⟩
  intro e target hk htarget
  have hedges : ∀ other, g'.edges.get? other = _ := get?_edges_moveEdge hk htarget
  refine ⟨?_, fun hne => ⟨?_, ?_⟩, ?_, fun other hother hne => ?_, ?_, fun a b => ⟨?_, ?_⟩⟩
  · show (g.moveEdge strategy k newStart newFinish).2 = true
    rw [moveEdge_eq hk htarget]
  · rw [hedges, if_neg hne.symm, if_pos rfl]
  · rw [hedges, if_pos rfl, if_neg hne]
    rfl
  · -- The edge bears the name that it is stored under, so it comes back as it was.
    rintro rfl
    have hkey : e.key = target := (run_keyed updates).edge target e hk
    rw [hedges, if_pos rfl, if_pos rfl, ← hkey]
  · rw [hedges, if_neg hne, if_neg hother]
  · exact hg.contents_moveEdge k newStart newFinish
  · exact hg.outCount_moveEdge hk htarget a b
  · exact hg.inCount_moveEdge hk htarget a b

/-- An edge that has been added twice leaves one of its counts behind when it is
moved onto another, and is merged into that. -/
example :
    let k : EdgeKey := ⟨.int 1, "REL", .int 2⟩
    let line : Int64 → Properties := fun n => Properties.set .empty "line_id" (.integer n)
    let g := run [(.default, .addEdge k (line 1)), (.default, .addEdge k (line 1)),
      (.default, .addEdge ⟨.int 3, "REL", .int 2⟩ (line 2))]
    let g' := (g.moveEdge .default k (some (.int 3)) none).1
    g'.edges.values = [⟨⟨.int 3, "REL", .int 2⟩,
      OrderedMap.insert .empty "line_id" (.several [.integer 2, .integer 1])⟩] ∧
    g'.outCount (.int 1) (.int 2) = 1 ∧ g'.outCount (.int 3) (.int 2) = 2 := by
  decide

end PropertyGraph.Graph
