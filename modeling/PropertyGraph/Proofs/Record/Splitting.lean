/-
A stream that is read in pieces.

Reading goes line by line and leaves a graph, a summary and a line number behind,
so a stream may be cut at any line end: what comes after the cut is read into the
graph that is there by then, its summary is added to that of before, and a line
that it refuses is counted on from there.  If the first piece is refused, nothing
after it is read.

* **`textLines_closedText_append`** — cutting a text at a line end;
* **`readLines_behind`** — what the summary and the number of before change;
* **`readLines_eq_error_iff`** — which line is refused, and what is read by then;
* **`readText_splits`** — all of it, for texts.
-/
import PropertyGraph.Proofs.Record.Reading

namespace PropertyGraph

/-- Summaries are added field by field. -/
instance : Add ReadSummary where
  add s t :=
    { lines := s.lines + t.lines
      nodes := s.nodes + t.nodes
      edges := s.edges + t.edges
      mergedEdges := s.mergedEdges + t.mergedEdges }

namespace Graph

variable {strategy : EndpointStrategy}

/-! ### Lines of a text -/

/-- The text of lines with a line end after each. -/
def closedText (lines : List String) : String := String.join (lines.map (· ++ "\n"))

theorem textLines_cons {line : String} (h : '\n' ∉ line.toList) (text : String) :
    textLines (line ++ "\n" ++ text) = line :: textLines text := by
  have hnewline : "\n".toList = ['\n'] := by decide
  rw [textLines, String.toList_append, String.toList_append, hnewline, List.append_assoc,
    List.singleton_append, List.splitOn_append_cons_self_of_not_mem h, List.map_cons,
    String.ofList_toList]
  rfl

theorem notMem_of_mem_splitOn {c : Char} {l piece : List Char} (h : piece ∈ l.splitOn c) :
    c ∉ piece := by
  induction l generalizing piece with
  | nil =>
    rw [List.splitOn_nil, List.mem_singleton] at h
    rw [h]
    exact List.not_mem_nil
  | cons first l ih =>
    rw [List.splitOn_cons_eq_if_modifyHead] at h
    split at h
    · obtain rfl | hrest := List.mem_cons.1 h
      · exact List.not_mem_nil
      · exact ih hrest
    · next hne =>
      -- The character belongs to the first of the pieces that follow.
      cases hpieces : l.splitOn c with
      | nil => exact absurd hpieces (List.splitOn_ne_nil c l)
      | cons head rest =>
        rw [hpieces, List.modifyHead_cons] at h
        obtain rfl | hrest := List.mem_cons.1 h
        · rw [List.mem_cons, not_or]
          refine ⟨?_, ih (hpieces ▸ List.mem_cons_self)⟩
          rintro rfl
          exact hne (beq_self_eq_true c)
        · exact ih (hpieces ▸ List.mem_cons_of_mem _ hrest)

theorem newline_notMem_of_mem_textLines {text line : String} (h : line ∈ textLines text) :
    '\n' ∉ line.toList := by
  obtain ⟨piece, hpiece, rfl⟩ := List.mem_map.1 h
  rw [String.toList_ofList]
  exact notMem_of_mem_splitOn hpiece

/-- A text may be cut behind the end of any line. -/
theorem textLines_closedText_append {lines : List String} (h : ∀ line ∈ lines, '\n' ∉ line.toList)
    (text : String) : textLines (closedText lines ++ text) = lines ++ textLines text := by
  induction lines with
  | nil =>
    rw [closedText, List.map_nil, String.join_nil, String.empty_append]
    rfl
  | cons line lines ih =>
    obtain ⟨hline, hlines⟩ := List.forall_mem_cons.1 h
    have hclosed : closedText (line :: lines) = line ++ "\n" ++ closedText lines := by
      rw [closedText, List.map_cons, String.join_cons]
      rfl
    rw [hclosed, String.append_assoc, textLines_cons hline, ih hlines]
    rfl

/-- Nothing stands behind the last line end. -/
theorem textLines_closedText {lines : List String} (h : ∀ line ∈ lines, '\n' ∉ line.toList) :
    textLines (closedText lines) = lines ++ [""] := by
  rw [← String.append_empty (s := closedText lines), textLines_closedText_append h]
  rfl

/-! ### Two pieces -/

theorem countRecord_add (g : Graph) (s t : ReadSummary) (r : Record) :
    g.countRecord (s + t) r = s + g.countRecord t r := by
  cases r with
  | node => rfl
  | edge k properties =>
    exact congrArg (ReadSummary.mk _ _ _) (Nat.add_assoc s.mergedEdges t.mergedEdges _)

/-- An outcome of reading as it is behind some lines, which have a summary. -/
def behind (number : Nat) (s : ReadSummary) :
    Except MalformedLine ReadSummary → Except MalformedLine ReadSummary
  | .ok t => .ok (s + t)
  | .error e => .error ⟨number + e.line⟩

/-- The summary and the line number of before only show in the answer. -/
theorem readLines_behind (lines : List String) (g : Graph) (s t : ReadSummary) (n number : Nat) :
    g.readLines strategy (s + t) (n + number) lines =
      ((g.readLines strategy t number lines).1,
        behind n s (g.readLines strategy t number lines).2) := by
  induction lines generalizing g t number with
  | nil => rfl
  | cons line lines ih =>
    simp only [readLines]
    split
    · exact ih g t (number + 1)
    · cases Record.parse? line with
      | none => rfl
      | some r =>
        dsimp only
        rw [countRecord_add]
        exact ih _ _ (number + 1)

/-- The empty line behind the last line end is blank. -/
theorem readText_closedText {lines : List String} (h : ∀ line ∈ lines, '\n' ∉ line.toList)
    (g : Graph) : g.readText strategy (closedText lines) = g.readLines strategy {} 1 lines := by
  rw [readText, textLines_closedText h, readLines_append]
  split
  · next hread =>
    rw [hread]
    rfl
  · next hread => rw [hread]

/-! ### The line that is refused -/

/-- Reading is refused at the first malformed line, with all before it read. -/
theorem readLines_eq_error_iff {lines : List String} {g g' : Graph} {s : ReadSummary}
    {number : Nat} {e : MalformedLine} :
    g.readLines strategy s number lines = (g', .error e) ↔
      ∃ before line after, lines = before ++ line :: after ∧
        (∀ l ∈ before, Record.isMalformed l = false) ∧ Record.isMalformed line = true ∧
        e = ⟨number + before.length⟩ ∧ ∃ s', g.readLines strategy s number before = (g', .ok s') := by
  constructor
  · intro h
    by_cases hany : lines.any Record.isMalformed = true
    · obtain ⟨before, line, after, rfl, hbefore, hline⟩ := exists_first_malformed hany
      obtain ⟨g₁, s₁, hread⟩ := readLines_of_wellFormed strategy hbefore g s number
      rw [readLines_append, hread] at h
      dsimp only at h
      rw [readLines_cons_malformed hline] at h
      cases h
      exact ⟨before, line, after, rfl, hbefore, hline, rfl, s₁, hread⟩
    · have hnone : ∀ l ∈ lines, Record.isMalformed l = false := by simpa using hany
      obtain ⟨g₁, s₁, hread⟩ := readLines_of_wellFormed strategy hnone g s number
      rw [hread] at h
      cases h
  · rintro ⟨before, line, after, rfl, -, hline, rfl, s', hread⟩
    rw [readLines_append, hread]
    exact readLines_cons_malformed hline g' s' _ after

/-- **A stream can be read in pieces, and stops at the first malformed line.**
Lines and what follows them are read as the lines, and then what follows, into the
graph that these have left: the summaries are added up, and a line number is
counted on.  If the lines are refused, so is the whole, in the same way.  A text
is refused exactly if some line is neither blank nor a record, and with the number
of the first such line; the graph is then what the lines before it make of the
one of before. -/
theorem readText_splits (strategy : EndpointStrategy) (g : Graph) :
    (∀ (lines : List String) (rest : String), (∀ line ∈ lines, '\n' ∉ line.toList) →
      g.readText strategy (closedText lines ++ rest) =
        match g.readText strategy (closedText lines) with
        | (g', .ok s) => ((g'.readText strategy rest).1,
            behind lines.length s (g'.readText strategy rest).2)
        | (g', .error e) => (g', .error e)) ∧
    ∀ (text : String) (g' : Graph) (number : Nat),
      g.readText strategy text = (g', .error ⟨number⟩) ↔
        ∃ before line after, textLines text = before ++ line :: after ∧
          (∀ l ∈ before, Record.isMalformed l = false) ∧ Record.isMalformed line = true ∧
          number = before.length + 1 ∧
          ∃ s, g.readText strategy (closedText before) = (g', .ok s) := by
  refine ⟨fun lines rest hlines => ?_, fun text g' number => ?_⟩
  · have hwhole : g.readText strategy (closedText lines ++ rest) =
        g.readLines strategy {} 1 (lines ++ textLines rest) := by
      rw [readText, textLines_closedText_append hlines]
    rw [hwhole, readLines_append, readText_closedText hlines]
    cases g.readLines strategy {} 1 lines with
    | mk g₁ outcome =>
      cases outcome with
      | error e => rfl
      | ok s =>
        dsimp only
        rw [Nat.add_comm 1]
        exact readLines_behind (textLines rest) g₁ s {} lines.length 1
  · rw [readText, readLines_eq_error_iff]
    refine exists_congr fun before => exists_congr fun line => exists_congr fun after =>
      and_congr_right fun htext => ?_
    have hbefore : ∀ l ∈ before, '\n' ∉ l.toList := fun l hl =>
      newline_notMem_of_mem_textLines (htext ▸ List.mem_append_left _ hl)
    rw [readText_closedText hbefore, Nat.add_comm 1, MalformedLine.mk.injEq]

/-- A blank line is counted, and the line that is refused comes after the cut. -/
theorem readText_splits_behindBlank :
    let lines := ["[\"node\",1]", "  "]
    let rest := "[\"node\"]"
    (∀ line ∈ lines, '\n' ∉ line.toList) ∧
      empty.readText .default (closedText lines ++ rest) =
        (empty.addNode (.int 1) [] .empty, .error ⟨3⟩) := by
  intro lines rest
  have hlines : ∀ line ∈ lines, '\n' ∉ line.toList := by decide
  have hread : empty.readText .default (closedText lines) =
      (empty.addNode (.int 1) [] .empty, .ok ⟨1, 1, 0, 0⟩) := by decide +kernel
  have hrest : (empty.addNode (.int 1) [] .empty).readText .default rest =
      (empty.addNode (.int 1) [] .empty, .error ⟨1⟩) := by decide +kernel
  refine ⟨hlines, ?_⟩
  rw [(readText_splits .default empty).1 lines rest hlines, hread]
  dsimp only
  rw [hrest]
  rfl

end Graph

end PropertyGraph
