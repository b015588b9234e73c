/-
Where reading a stream stops, and what its summary tells of the edges.

* **`readLines_append`** — reading lines in two pieces;
* **`readLines_of_wellFormed`** — without a malformed line all is read;
* **`readLines_malformed`** — otherwise reading fails at the first malformed line;
* **`mergedEdges_readLines`** — an edge that is read is merged or is one more.
-/
import PropertyGraph.Proofs.Graph.Counts
import PropertyGraph.Record.Stream

namespace PropertyGraph

/-- Whether a line is neither blank nor a record. -/
def Record.isMalformed (line : String) : Bool :=
  !line.toList.all Text.isBlank && (Record.parse? line).isNone

namespace Graph

variable {strategy : EndpointStrategy}

theorem readLines_of_wellFormed (strategy : EndpointStrategy) {lines : List String}
    (h : ∀ line ∈ lines, Record.isMalformed line = false) (g : Graph) (s : ReadSummary)
    (number : Nat) : ∃ g' s', g.readLines strategy s number lines = (g', .ok s') := by
  induction lines generalizing g s number with
  | nil => exact ⟨g, s, rfl⟩
  | cons line lines ih =>
    obtain ⟨hline, hrest⟩ := List.forall_mem_cons.1 h
    rw [readLines]
    split
    · exact ih hrest _ _ _
    · next hblank =>
      cases hr : Record.parse? line with
      | some r => exact ih hrest _ _ _
      | none => simp [Record.isMalformed, hblank, hr] at hline

/-- What is read in two pieces: the second is read unless the first is refused. -/
theorem readLines_append (before after : List String) (g : Graph) (s : ReadSummary)
    (number : Nat) :
    g.readLines strategy s number (before ++ after) =
      match g.readLines strategy s number before with
      | (g', .ok s') => g'.readLines strategy s' (number + before.length) after
      | (g', .error e) => (g', .error e) := by
  induction before generalizing g s number with
  | nil => rfl
  | cons line before ih =>
    have hnumber : number + (line :: before).length = number + 1 + before.length := by
      rw [List.length_cons]
      omega
    rw [List.cons_append, readLines, readLines, hnumber]
    split
    · exact ih g s (number + 1)
    · cases Record.parse? line with
      | none => rfl
      | some r => exact ih _ _ (number + 1)

theorem readLines_cons_malformed {line : String} (h : Record.isMalformed line = true) (g : Graph)
    (s : ReadSummary) (number : Nat) (lines : List String) :
    g.readLines strategy s number (line :: lines) = (g, .error ⟨number⟩) := by
  simp only [Record.isMalformed, Bool.and_eq_true, Bool.not_eq_true', Option.isNone_iff_eq_none]
    at h
  rw [readLines, h.1, if_neg Bool.false_ne_true, h.2]

/-- Reading goes on up to the first malformed line, whose number it tells. -/
theorem readLines_malformed {before after : List String} {line : String}
    (hbefore : ∀ l ∈ before, Record.isMalformed l = false)
    (hline : Record.isMalformed line = true) (g : Graph) (s : ReadSummary) (number : Nat) :
    (g.readLines strategy s number (before ++ line :: after)).2 =
      .error ⟨number + before.length⟩ := by
  obtain ⟨g', s', hread⟩ := readLines_of_wellFormed strategy hbefore g s number
  rw [readLines_append, hread]
  exact congrArg Prod.snd (readLines_cons_malformed hline g' s' _ after)

/-- A malformed line is malformed behind lines that are not. -/
theorem exists_first_malformed {lines : List String}
    (h : lines.any Record.isMalformed = true) : ∃ before line after,
      lines = before ++ line :: after ∧ (∀ l ∈ before, Record.isMalformed l = false) ∧
        Record.isMalformed line = true := by
  obtain ⟨line, hfind⟩ := Option.isSome_iff_exists.1 (List.find?_isSome.2 (List.any_eq_true.1 h))
  obtain ⟨hline, before, after, hlines, hbefore⟩ := List.find?_eq_some_iff_append.1 hfind
  exact ⟨before, line, after, hlines, fun l hl => by simpa using hbefore l hl, hline⟩

/-- A record of an edge that is there already counts as merged, and any other adds
an edge. -/
theorem mergedEdges_countRecord (strategy : EndpointStrategy) (g : Graph) (s : ReadSummary)
    (r : Record) :
    (g.countRecord s r).mergedEdges + (g.addRecord strategy r).edgeCount + s.edges =
      (g.countRecord s r).edges + s.mergedEdges + g.edgeCount := by
  cases r with
  | node id labels properties =>
    have hedges : (g.addRecord strategy (.node id labels properties)).edgeCount = g.edgeCount := rfl
    simp only [countRecord, hedges]
    omega
  | edge k properties =>
    have hsize := g.edgeCount_addEdge strategy k (.ofMembers properties)
    simp only [countRecord, addRecord]
    omega

theorem mergedEdges_readLines {lines : List String} {g g' : Graph} {s s' : ReadSummary}
    {number : Nat} (h : g.readLines strategy s number lines = (g', .ok s')) :
    s'.mergedEdges + g'.edgeCount + s.edges = s'.edges + s.mergedEdges + g.edgeCount := by
  induction lines generalizing g s number with
  | nil =>
    cases h
    omega
  | cons line lines ih =>
    rw [readLines] at h
    split at h
    · exact ih h
    · cases hr : Record.parse? line with
      | some r =>
        rw [hr] at h
        have hstep := mergedEdges_countRecord strategy g s r
        have hrest := ih h
        omega
      | none =>
        rw [hr] at h
        cases h

end Graph

end PropertyGraph
