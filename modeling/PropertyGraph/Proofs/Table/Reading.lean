/-
Tables read back from their text.

A reader goes through the text of a table character by character.  In quotes only
a quote matters, and what comes behind it tells whether it ends the quotes or
stands for itself; outside of them a comma ends a cell and a line feed ends a row.
What has been written is what such a reader finds, whatever the cells hold.

* **`Reader.foldl_cellText`** — reading a cell;
* **`Reader.foldl_rowText`** — reading a row;
* **`rows_text`**, **`Table.rows_text`** — reading a table.
-/
import PropertyGraph.Table.Basic

namespace PropertyGraph

namespace Csv

/-- Where a reader stands: before a cell, in a cell without quotes, in quotes, or
behind a quote in quotes. -/
inductive Position where
  | fresh
  | bare
  | quoted
  | behindQuote
deriving DecidableEq

/-- What has been read of a table: whole rows, whole cells of the next row, and
the beginning of the next cell. -/
structure Reader where
  rows : List (List String) := []
  cells : List String := []
  cell : List Char := []
  position : Position := .fresh

namespace Reader

/-- A character of a cell. -/
def push (r : Reader) (c : Char) (position : Position) : Reader :=
  { r with cell := r.cell ++ [c], position }

/-- The end of a cell. -/
def endCell (r : Reader) : Reader :=
  { r with cells := r.cells ++ [String.ofList r.cell], cell := [], position := .fresh }

/-- The end of a row. -/
def endRow (r : Reader) : Reader := { r with rows := r.rows ++ [r.cells], cells := [] }

/-- Reads a character. -/
def step (r : Reader) (c : Char) : Reader :=
  if r.position = .quoted then
    if c = '"' then { r with position := .behindQuote } else r.push c .quoted
  else if c = '"' ∧ r.position = .fresh then { r with position := .quoted }
  else if c = '"' ∧ r.position = .behindQuote then r.push c .quoted
  else if c = ',' then r.endCell
  else if c = '\n' then r.endCell.endRow
  else r.push c .bare

/-- The rows that have been read at the end of the text, where a last row needs no
line feed. -/
def finish (r : Reader) : List (List String) :=
  if r.position = .fresh ∧ r.cells = [] then r.rows else r.endCell.endRow.rows

end Reader

/-- The rows of a table that a text holds. -/
def rows (text : String) : List (List String) := (text.toList.foldl Reader.step {}).finish

namespace Reader

theorem foldl_doubleQuotes (cell : List Char) {r : Reader} (hr : r.position = .quoted) :
    (doubleQuotes cell).foldl step r = { r with cell := r.cell ++ cell } := by
  induction cell generalizing r with
  | nil =>
    show r = { r with cell := r.cell ++ [] }
    rw [List.append_nil]
  | cons c cell ih =>
    rw [doubleQuotes, List.flatMap_cons, ← doubleQuotes, List.foldl_append]
    have hc : (if c = '"' then ['"', '"'] else [c]).foldl step r = r.push c .quoted := by
      by_cases hquote : c = '"'
      · -- The first of two quotes leads behind it, the second back into the quotes.
        subst hquote
        simp [step, push, hr]
      · simp [step, push, hr, hquote]
    rw [hc, ih rfl, push, List.append_assoc]
    simp [hr]

theorem foldl_bare {cell : List Char} (hcell : needsQuotes cell = false) {r : Reader}
    (hr : r.position = .fresh ∨ r.position = .bare) :
    ∃ p, p ≠ .quoted ∧
      cell.foldl step r = { r with cell := r.cell ++ cell, position := p } := by
  have hposition : r.position ≠ .quoted := by
    rcases hr with h | h <;> simp [h]
  induction cell generalizing r with
  | nil => exact ⟨r.position, hposition, by simp⟩
  | cons c cell ih =>
    simp only [needsQuotes, List.any_cons, Bool.or_eq_false_iff, decide_eq_false_iff_not] at hcell
    obtain ⟨⟨⟨⟨hcomma, hquote⟩, hnewline⟩, -⟩, hrest⟩ := hcell
    have hstep : r.step c = r.push c .bare := by
      simp [step, hposition, hquote, hcomma, hnewline]
    obtain ⟨p, hp, hfold⟩ := ih hrest (r := r.push c .bare) (.inr rfl) (by simp [push])
    refine ⟨p, hp, ?_⟩
    rw [List.foldl_cons, hstep, hfold, push, List.append_assoc]
    rfl

/-- Reading the text of a cell leaves the reader behind the cell, at a place where
a comma or a line feed ends it. -/
theorem foldl_cellText (cell : List Char) {r : Reader} (hr : r.position = .fresh)
    (hcell : r.cell = []) :
    ∃ p, p ≠ .quoted ∧ (cellText cell).foldl step r = { r with cell, position := p } := by
  by_cases hquotes : needsQuotes cell = true
  · have hopen : r.step '"' = { r with position := .quoted } := by simp [step, hr]
    refine ⟨.behindQuote, by decide, ?_⟩
    rw [cellText, if_pos hquotes, List.cons_append, List.foldl_cons, hopen, List.foldl_append,
      foldl_doubleQuotes cell rfl]
    simp [step, hcell]
  · obtain ⟨p, hp, hfold⟩ := foldl_bare (Bool.eq_false_iff.2 hquotes) (.inl hr)
    refine ⟨p, hp, ?_⟩
    rw [cellText, if_neg hquotes, hfold, hcell, List.nil_append]

theorem step_comma {r : Reader} (hr : r.position ≠ .quoted) : r.step ',' = r.endCell := by
  simp [step, hr]

theorem step_newline {r : Reader} (hr : r.position ≠ .quoted) :
    r.step '\n' = r.endCell.endRow := by
  simp [step, hr]

theorem rowText_cons_cons (cell next : String) (cells : List String) :
    rowText (cell :: next :: cells) = cellText cell.toList ++ ',' :: rowText (next :: cells) := by
  simp [rowText, List.intercalate]

theorem rowText_singleton (cell : String) : rowText [cell] = cellText cell.toList ++ ['\n'] := by
  simp [rowText, List.intercalate]

/-- The induction is on the cells of the row that are still to come. -/
theorem foldl_rowText {cells : List String} (hne : cells ≠ []) (rows : List (List String))
    (before : List String) :
    (rowText cells).foldl step ⟨rows, before, [], .fresh⟩ =
      ⟨rows ++ [before ++ cells], [], [], .fresh⟩ := by
  induction cells generalizing before with
  | nil => exact absurd rfl hne
  | cons cell cells ih =>
    obtain ⟨p, hp, hfold⟩ := foldl_cellText cell.toList
      (r := ⟨rows, before, [], .fresh⟩) rfl rfl
    cases cells with
    | nil =>
      rw [rowText_singleton, List.foldl_append, hfold, List.foldl_cons, List.foldl_nil,
        step_newline hp]
      simp [endCell, endRow]
    | cons next cells =>
      rw [rowText_cons_cons, List.foldl_append, hfold, List.foldl_cons, step_comma hp]
      have hnext := ih (List.cons_ne_nil _ _) (before ++ [cell])
      simp only [endCell, String.ofList_toList]
      rw [hnext, List.append_assoc]
      rfl

end Reader

/-- **A table reads back from its text.** -/
theorem rows_text {rows : List (List String)} (hne : ∀ row ∈ rows, row ≠ []) :
    Csv.rows (text rows) = rows := by
  suffices hfold : ∀ before : List (List String),
      (rows.flatMap rowText).foldl Reader.step ⟨before, [], [], .fresh⟩ =
        ⟨before ++ rows, [], [], .fresh⟩ by
    rw [Csv.rows, text, String.toList_ofList, hfold []]
    rfl
  induction rows with
  | nil => exact fun before => by rw [List.append_nil]; rfl
  | cons row rows ih =>
    intro before
    obtain ⟨hrow, hrest⟩ := List.forall_mem_cons.1 hne
    rw [List.flatMap_cons, List.foldl_append, Reader.foldl_rowText hrow, ih hrest,
      List.append_assoc]
    rfl

end Csv

/-- A table has a heading and a row for each item, all of them with cells. -/
theorem Table.rows_text {t : Table} {columns : List String} (hcolumns : columns ≠ [])
    (hitems : ∀ i ∈ t.items, i.cells ≠ []) : Csv.rows (t.text columns) = t.rows columns := by
  refine Csv.rows_text ?_
  rw [rows, List.forall_mem_cons, List.forall_mem_map]
  exact ⟨List.append_ne_nil_of_left_ne_nil hcolumns _, fun i hi =>
    List.append_ne_nil_of_left_ne_nil (hitems i hi) _⟩

end PropertyGraph
