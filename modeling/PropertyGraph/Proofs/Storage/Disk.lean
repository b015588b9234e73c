/-
What writing files and making folders leaves as it is.

Where a path leads depends on the folders alone, and folders are only ever added.
So a path that leads somewhere keeps leading there, a file that is written can be
read until its place is written again, and making folders and writing files can
change places as long as no file is where a folder is made.

* **`resolve?_mono`** — where a path leads, with more folders;
* **`writeAll?_of_canWrite`** — files that can be written one by one;
* **`read?_of_writeAll?`** — what is read of them, if no two have one place;
* **`makeFolder_writeAll?`** — folders made after the files, or before.
-/
import Mathlib.Data.List.Basic
import PropertyGraph.Storage.Disk

namespace PropertyGraph.Disk

variable {d d' : Disk} {path content : String}

/-! ### Places -/

theorem isFolder_mono (h : d.folders ⊆ d'.folders) {p : Place} (hp : d.isFolder p = true) :
    d'.isFolder p = true := by
  simp only [isFolder, Bool.or_eq_true, decide_eq_true_eq, List.contains_iff_mem] at hp ⊢
  exact hp.imp_right (h ·)

theorem step?_mono (h : d.folders ⊆ d'.folders) {p q : Place} {name : String}
    (hq : d.step? p name = some q) : d'.step? p name = some q := by
  rw [step?] at hq ⊢
  by_cases hp : d.isFolder p = true
  · rw [hp] at hq
    rw [isFolder_mono h hp]
    exact hq
  · rw [Bool.eq_false_iff.2 hp] at hq
    cases hq

/-- More folders lead no path elsewhere. -/
theorem resolve?_mono (h : d.folders ⊆ d'.folders) {p : Place} (hp : d.resolve? path = some p) :
    d'.resolve? path = some p := by
  suffices hsteps : ∀ (names : List String) (p q : Place), names.foldlM d.step? p = some q →
      names.foldlM d'.step? p = some q from hsteps _ _ _ hp
  intro names
  induction names with
  | nil => exact fun _ _ h => h
  | cons name names ih =>
    intro p q hq
    rw [List.foldlM_cons] at hq ⊢
    obtain ⟨next, hnext, hq⟩ := Option.bind_eq_some_iff.1 hq
    exact Option.bind_eq_some_iff.2 ⟨next, step?_mono h hnext, ih next q hq⟩

theorem isFolder_congr (h : d'.folders = d.folders) : d'.isFolder = d.isFolder := by
  funext p
  rw [isFolder, isFolder, h]

theorem step?_congr (h : d'.folders = d.folders) : d'.step? = d.step? := by
  funext p name
  rw [step?, step?, isFolder_congr h]

theorem resolve?_congr (h : d'.folders = d.folders) : d'.resolve? = d.resolve? := by
  funext path
  rw [resolve?, resolve?, step?_congr h]

/-! ### Files -/

/-- Whether a file can be written at a path: it leads to a place where there is no
folder. -/
def canWrite (d : Disk) (path : String) : Bool := (d.resolve? path).any fun p => !d.isFolder p

/-- The disk with a file at a place. -/
def withFile (d : Disk) (p : Place) (content : String) : Disk :=
  { d with files := d.files.insert p content }

/-- The disk with files written one by one; none if one of them cannot be. -/
def writeAll? (d : Disk) (files : List (String × String)) : Option Disk :=
  files.foldlM (fun d f => d.write? f.1 f.2) d

theorem isFolder_withFile (d : Disk) (p : Place) (content : String) :
    (d.withFile p content).isFolder = d.isFolder := isFolder_congr rfl

theorem step?_withFile (d : Disk) (p : Place) (content : String) :
    (d.withFile p content).step? = d.step? := step?_congr rfl

theorem contains_withFile {p q : Place} :
    (d.withFile p content).files.contains q = true ↔ q = p ∨ d.files.contains q = true :=
  OrderedMap.contains_insert

theorem canWrite_congr (h : d'.folders = d.folders) : d'.canWrite path = d.canWrite path := by
  rw [canWrite, canWrite, resolve?_congr h, isFolder_congr h]

theorem canWrite_iff : d.canWrite path = true ↔
    ∃ p, d.resolve? path = some p ∧ d.isFolder p = false := by
  simp only [canWrite, Option.any_eq_true, Bool.not_eq_true']

theorem write?_eq_some_iff : d.write? path content = some d' ↔
    ∃ p, d.resolve? path = some p ∧ d.isFolder p = false ∧ d' = d.withFile p content := by
  rw [write?, Option.bind_eq_bind, Option.bind_eq_some_iff]
  refine exists_congr fun p => and_congr_right fun _ => ?_
  cases d.isFolder p
  · simp [withFile, eq_comm]
  · simp

theorem folders_write? (h : d.write? path content = some d') : d'.folders = d.folders := by
  obtain ⟨p, -, -, rfl⟩ := write?_eq_some_iff.1 h
  rfl

theorem folders_writeAll? {files : List (String × String)} (h : d.writeAll? files = some d') :
    d'.folders = d.folders := by
  induction files generalizing d with
  | nil =>
    cases h
    rfl
  | cons f files ih =>
    obtain ⟨next, hnext, hrest⟩ := Option.bind_eq_some_iff.1 h
    exact (ih hrest).trans (folders_write? hnext)

theorem writeAll?_append (d : Disk) (files files' : List (String × String)) :
    d.writeAll? (files ++ files') = (d.writeAll? files).bind (·.writeAll? files') :=
  List.foldlM_append

theorem writeAll?_of_canWrite {files : List (String × String)}
    (h : ∀ f ∈ files, d.canWrite f.1 = true) : ∃ d', d.writeAll? files = some d' := by
  induction files generalizing d with
  | nil => exact ⟨d, rfl⟩
  | cons f files ih =>
    obtain ⟨hf, hrest⟩ := List.forall_mem_cons.1 h
    obtain ⟨p, hp, hfree⟩ := canWrite_iff.1 hf
    have hnext : d.write? f.1 f.2 = some (d.withFile p f.2) :=
      write?_eq_some_iff.2 ⟨p, hp, hfree, rfl⟩
    obtain ⟨d', hd'⟩ := ih (d := d.withFile p f.2) fun f' hf' =>
      (canWrite_congr rfl).trans (hrest f' hf')
    exact ⟨d', Option.bind_eq_some_iff.2 ⟨_, hnext, hd'⟩⟩

/-- Writing files changes no other places. -/
theorem get?_files_of_writeAll? {files : List (String × String)} (h : d.writeAll? files = some d')
    {p : Place} (hp : some p ∉ files.map fun f => d.resolve? f.1) :
    d'.files.get? p = d.files.get? p := by
  induction files generalizing d with
  | nil =>
    cases h
    rfl
  | cons f files ih =>
    obtain ⟨next, hnext, hrest⟩ := Option.bind_eq_some_iff.1 h
    rw [List.map_cons, List.mem_cons, not_or] at hp
    have hkept := ih hrest (by rw [resolve?_congr (folders_write? hnext)]; exact hp.2)
    obtain ⟨q, hq, -, rfl⟩ := write?_eq_some_iff.1 hnext
    have hne : p ≠ q := by
      rintro rfl
      exact hp.1 hq.symm
    rw [hkept, withFile, OrderedMap.get?_insert, if_neg hne]

/-- A file that has been written is read, for no later one has its place. -/
theorem read?_of_writeAll? {files : List (String × String)} (h : d.writeAll? files = some d')
    (hdistinct : (files.map fun f => d.resolve? f.1).Nodup) :
    ∀ f ∈ files, d'.read? f.1 = some f.2 := by
  induction files generalizing d with
  | nil => exact fun f hf => absurd hf List.not_mem_nil
  | cons f files ih =>
    obtain ⟨next, hnext, hrest⟩ := Option.bind_eq_some_iff.1 h
    obtain ⟨hnew, hothers⟩ := List.nodup_cons.1 hdistinct
    have hresolve := resolve?_congr (folders_write? hnext)
    refine List.forall_mem_cons.2 ⟨?_, ih hrest (by rwa [hresolve])⟩
    obtain ⟨p, hp, -, rfl⟩ := write?_eq_some_iff.1 hnext
    have hkept := get?_files_of_writeAll? hrest (p := p) (by rwa [hresolve, ← hp])
    rw [read?, resolve?_congr (folders_writeAll? h), hp, Option.bind_some, hkept, withFile,
      OrderedMap.get?_insert, if_pos rfl]

/-! ### Folders -/

theorem subset_makeFolders (d : Disk) (p : Place) (names : List String) :
    d.folders ⊆ (d.makeFolders p names).1.folders := by
  induction names generalizing d p with
  | nil => exact fun _ h => h
  | cons name names ih =>
    rw [makeFolders]
    split
    · exact fun _ h => h
    · next q _ =>
      split
      · exact fun _ h => h
      · next made hmade =>
        refine List.Subset.trans ?_ (ih made q)
        rw [addFolder?] at hmade
        split at hmade
        · cases hmade
          exact fun _ h => h
        · split at hmade
          · cases hmade
          · cases hmade
            exact List.subset_append_left _ _

theorem subset_makeFolder (d : Disk) (folder : String) :
    d.folders ⊆ (d.makeFolder folder).1.folders := by
  rw [makeFolder]
  dsimp only
  split
  · exact subset_makeFolders d _ _
  · exact subset_makeFolders d _ _

theorem addFolder?_withFile {p q : Place}
    (h : ∀ made, d.addFolder? q = some made → made.isFolder p = false) :
    (d.withFile p content).addFolder? q = (d.addFolder? q).map (withFile · p content) := by
  rw [addFolder?] at h
  rw [addFolder?, isFolder_withFile, addFolder?]
  by_cases hq : d.isFolder q = true
  · rw [if_pos hq, if_pos hq]
    rfl
  · rw [if_neg hq] at h ⊢
    rw [if_neg hq]
    by_cases hfile : d.files.contains q = true
    · rw [if_pos hfile, if_pos (contains_withFile.2 (.inr hfile))]
      rfl
    · -- The folder is made, so its place is not that of the file.
      rw [if_neg hfile] at h ⊢
      have hne : q ≠ p := by
        rintro rfl
        have hmade := h _ rfl
        simp [isFolder] at hmade
      rw [if_neg fun hthere => (contains_withFile.1 hthere).elim hne hfile]
      rfl

/-- Folders are made alike if a file is written first where no folder is made. -/
theorem makeFolders_withFile {p q : Place} {names : List String}
    (h : (d.makeFolders q names).1.isFolder p = false) :
    (d.withFile p content).makeFolders q names =
      ((d.makeFolders q names).1.withFile p content, (d.makeFolders q names).2) := by
  induction names generalizing d q with
  | nil => rfl
  | cons name names ih =>
    rw [makeFolders] at h
    rw [makeFolders, makeFolders, step?_withFile]
    cases hnext : d.step? q name with
    | none => rfl
    | some next =>
      rw [hnext] at h
      dsimp only at h ⊢
      have hfree : ∀ made, d.addFolder? next = some made → made.isFolder p = false := by
        intro made hmade
        rw [hmade] at h
        refine Bool.eq_false_iff.2 fun hp => ?_
        exact Bool.eq_false_iff.1 h (isFolder_mono (subset_makeFolders made next names) hp)
      rw [addFolder?_withFile hfree]
      cases hmade : d.addFolder? next with
      | none => rfl
      | some made =>
        rw [hmade] at h
        exact ih h

theorem makeFolder_withFile {p : Place} {folder : String}
    (h : (d.makeFolder folder).1.isFolder p = false) :
    (d.withFile p content).makeFolder folder =
      ((d.makeFolder folder).1.withFile p content, (d.makeFolder folder).2) := by
  rw [makeFolder] at h ⊢
  rw [makeFolder]
  dsimp only at h ⊢
  split
  · next hpoint =>
    rw [if_pos hpoint] at h
    rw [makeFolders_withFile h]
    dsimp only
    rw [step?_withFile, isFolder_withFile]
  · next hplain =>
    rw [if_neg hplain] at h
    exact makeFolders_withFile h

/-- Making a folder after files are written is making it before, if the files can
be written then. -/
theorem makeFolder_writeAll? {files : List (String × String)} {folder : String}
    (h : d.writeAll? files = some d')
    (hfree : ∀ f ∈ files, (d.makeFolder folder).1.canWrite f.1 = true) :
    (d.makeFolder folder).1.writeAll? files = some (d'.makeFolder folder).1 ∧
      (d'.makeFolder folder).2 = (d.makeFolder folder).2 := by
  induction files generalizing d with
  | nil =>
    cases h
    exact ⟨rfl, rfl⟩
  | cons f files ih =>
    obtain ⟨next, hnext, hrest⟩ := Option.bind_eq_some_iff.1 h
    obtain ⟨hf, hothers⟩ := List.forall_mem_cons.1 hfree
    obtain ⟨p, hp, -, rfl⟩ := write?_eq_some_iff.1 hnext
    -- The path leads to the same place before and after the folder is made.
    obtain ⟨q, hq, hmade⟩ := canWrite_iff.1 hf
    have hplace := resolve?_mono (subset_makeFolder d folder) hp
    rw [hplace, Option.some_inj] at hq
    subst hq
    have hswap : (d.withFile p f.2).makeFolder folder =
        ((d.makeFolder folder).1.withFile p f.2, (d.makeFolder folder).2) :=
      makeFolder_withFile hmade
    obtain ⟨hwrite, hsame⟩ := ih hrest fun f' hf' => by
      rw [hswap]
      exact (canWrite_congr rfl).trans (hothers f' hf')
    rw [hswap] at hwrite hsame
    exact ⟨Option.bind_eq_some_iff.2
      ⟨_, write?_eq_some_iff.2 ⟨p, hplace, hmade, rfl⟩, hwrite⟩, hsame⟩

end PropertyGraph.Disk
