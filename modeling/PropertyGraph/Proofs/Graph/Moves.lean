/-
Where edges go when those of one node are moved to another.

`redirect source target` sends one node to another and keeps the rest; an edge
follows its ends.  `Moved source target g g'` says that `g'` holds the edges of
`g` up to this map, with their properties merged where edges fall together.

* **`edgeHas_addEdge`**, **`edgeHas_removeEdge`**, **`edgeHas_moveEdge`** — which
  edges have properties of some kind after each update;
* **`moved_moveEnds`** — one edge of the list, whose key may be gone by then;
* **`edgeHas_moveTouching`** — the whole list: of the edges that are not spared,
  none touches the source any more.
-/
import PropertyGraph.Proofs.Graph.Soundness
import PropertyGraph.Proofs.Property.Merging

namespace PropertyGraph

/-- The map that sends one node to another and keeps the rest. -/
def redirect (source target id : NodeId) : NodeId := if id = source then target else id

@[simp]
theorem redirect_self (source target : NodeId) : redirect source target source = target :=
  if_pos rfl

theorem redirect_of_ne {source target id : NodeId} (h : id ≠ source) :
    redirect source target id = id :=
  if_neg h

/-- The triple with both ends passed through a map. -/
def EdgeKey.mapEnds (f : NodeId → NodeId) (k : EdgeKey) : EdgeKey :=
  ⟨f k.start, k.label, f k.finish⟩

theorem EdgeKey.touches_iff {k : EdgeKey} {id : NodeId} :
    k.touches id = true ↔ k.start = id ∨ k.finish = id := by
  simp [touches]

/-- An edge that does not touch the source stays where it is. -/
theorem EdgeKey.mapEnds_redirect_of_not_touches {k : EdgeKey} {source target : NodeId}
    (h : ¬k.touches source = true) : k.mapEnds (redirect source target) = k := by
  rw [touches_iff, not_or] at h
  rw [mapEnds, redirect_of_ne h.1, redirect_of_ne h.2]

namespace Graph

variable {strategy : EndpointStrategy} {g : Graph} {P : Properties → Prop}

/-- An edge is stored with properties that meet a condition. -/
def EdgeHas (g : Graph) (P : Properties → Prop) (k : EdgeKey) : Prop :=
  ∃ e, g.edges.get? k = some e ∧ P e.properties

theorem edgeHas_true {k : EdgeKey} : g.EdgeHas (fun _ => True) k ↔ g.hasEdge k = true := by
  simp only [EdgeHas, and_true, hasEdge_iff]

theorem EdgeHas.hasEdge {k : EdgeKey} (h : g.EdgeHas P k) : g.hasEdge k = true :=
  hasEdge_iff.2 (h.imp fun _ hp => hp.1)

/-! ### One update -/

theorem edgeHas_addEdge (hP : Properties.Additive P) {k other : EdgeKey} {properties : Properties} :
    (g.addEdge strategy k properties).EdgeHas P other ↔
      g.EdgeHas P other ∨ other = k ∧ P properties := by
  rw [EdgeHas, get?_edges_addEdge]
  by_cases h : other = k
  · subst h
    cases hold : g.edges.get? other with
    | none => simp [EdgeHas, submitted, hold]
    | some old => simp [EdgeHas, submitted, hold, Edge.update, hP old.properties properties]
  · simp [EdgeHas, h]

theorem edgeHas_removeEdge {k other : EdgeKey} :
    (g.removeEdge k).EdgeHas P other ↔ other ≠ k ∧ g.EdgeHas P other := by
  rw [EdgeHas, get?_edges_removeEdge]
  by_cases h : other = k <;> simp [EdgeHas, h]

/-- A moved edge is gone from its key and merged in at its target; what is not
stored is not moved. -/
theorem edgeHas_moveEdge (hP : Properties.Additive P) {k target other : EdgeKey}
    {newStart newFinish : Option NodeId}
    (htarget : g.moveTarget? k newStart newFinish = some target) :
    (g.moveEdge strategy k newStart newFinish).1.EdgeHas P other ↔
      (other ≠ k ∧ g.EdgeHas P other) ∨ other = target ∧ g.EdgeHas P k := by
  cases hk : g.edges.get? k with
  | none =>
    -- Nothing is moved, and the formula has nothing to move.
    have hgone : ∀ {x}, x = k → ¬g.EdgeHas P x := by
      rintro _ rfl ⟨e, he, -⟩
      rw [hk] at he
      cases he
    simp only [moveEdge, hk]
    exact ⟨fun h => .inl ⟨fun heq => hgone heq h, h⟩,
      fun h => h.elim And.right fun h => absurd h.2 (hgone rfl)⟩
  | some e =>
    have he : g.EdgeHas P k ↔ P e.properties := by simp [EdgeHas, hk]
    simp only [moveEdge, hk, htarget]
    rw [edgeHas_addEdge hP, edgeHas_removeEdge, he]

/-- An edge is moved between stored nodes, so none is made up. -/
theorem Sound.contents_moveEdge (hg : g.Sound) (k : EdgeKey) (newStart newFinish : Option NodeId) :
    (g.moveEdge strategy k newStart newFinish).1.contents = g.contents := by
  rw [Graph.moveEdge]
  split
  · next e target hk htarget =>
    have hedge : g.hasEdge k = true := hasEdge_iff.2 ⟨e, hk⟩
    obtain ⟨hs, hf⟩ : g.hasNode target.start = true ∧ g.hasNode target.finish = true := by
      rw [moveTarget?] at htarget
      split at htarget
      · next id _ hid =>
        cases htarget
        exact ⟨(Option.filter_eq_some_iff.1 hid).2, hg.hasNode_finish k hedge⟩
      · next id _ hid =>
        cases htarget
        exact ⟨hg.hasNode_start k hedge, (Option.filter_eq_some_iff.1 hid).2⟩
      · cases htarget
    have hsame := hasNode_of_contents_eq (contents_removeEdge g k)
    exact (contents_addEdge ((hsame _).trans hs) ((hsame _).trans hf) e.properties).trans
      (contents_removeEdge g k)
  · rfl

theorem moveTarget?_start {k : EdgeKey} {id : NodeId} (h : g.hasNode id = true) :
    g.moveTarget? k (some id) none = some { k with start := id } := by
  simp [moveTarget?, Option.filter, h]

theorem moveTarget?_finish {k : EdgeKey} {id : NodeId} (h : g.hasNode id = true) :
    g.moveTarget? k none (some id) = some { k with finish := id } := by
  simp [moveTarget?, Option.filter, h]

/-- Exactly the stored edges are moved. -/
theorem snd_moveEdge {k target : EdgeKey} {newStart newFinish : Option NodeId}
    (htarget : g.moveTarget? k newStart newFinish = some target) :
    (g.moveEdge strategy k newStart newFinish).2 = g.hasEdge k := by
  cases hk : g.edges.get? k with
  | none => simp only [moveEdge, hk, hasEdge_eq_false_iff.2 hk]
  | some e => simp only [moveEdge, hk, htarget, hasEdge_iff.2 ⟨e, hk⟩]

/-! ### Several moves -/

/-- The nodes keep what they hold, the edges of a spared relation stay, and up
to the map that sends `source` to `target` the edges are the same, with their
properties merged where they fall together. -/
structure Moved (source target : NodeId) (relation : String) (g g' : Graph) : Prop where
  contents : g'.contents = g.contents
  image : ∀ P, Properties.Additive P → ∀ k : EdgeKey,
    (∃ y : EdgeKey, y.mapEnds (redirect source target) = k ∧ g'.EdgeHas P y) ↔
      ∃ y : EdgeKey, y.mapEnds (redirect source target) = k ∧ g.EdgeHas P y
  spared : ∀ k : EdgeKey, k.label = relation → g'.edges.get? k = g.edges.get? k

section Moved

variable {source target : NodeId} {relation : String}

theorem Moved.refl (g : Graph) : Moved source target relation g g :=
  ⟨rfl, fun _ _ _ => Iff.rfl, fun _ _ => rfl⟩

theorem Moved.trans {g₁ g₂ g₃ : Graph} (h : Moved source target relation g₁ g₂)
    (h' : Moved source target relation g₂ g₃) : Moved source target relation g₁ g₃ where
  contents := h'.contents.trans h.contents
  image P hP k := (h'.image P hP k).trans (h.image P hP k)
  spared k hk := (h'.spared k hk).trans (h.spared k hk)

/-- An edge may be moved to any key that the map sends to the same key. -/
theorem moved_moveEdge (hg : g.Sound) {k k' : EdgeKey} {newStart newFinish : Option NodeId}
    (hlabel : k.label ≠ relation) (hk' : g.moveTarget? k newStart newFinish = some k')
    (hmap : k'.mapEnds (redirect source target) = k.mapEnds (redirect source target)) :
    Moved source target relation g (g.moveEdge strategy k newStart newFinish).1 where
  contents := hg.contents_moveEdge k newStart newFinish
  image P hP t := by
    simp only [edgeHas_moveEdge hP hk']
    constructor
    · rintro ⟨y, hy, ⟨-, hold⟩ | ⟨rfl, hold⟩⟩
      · exact ⟨y, hy, hold⟩
      · exact ⟨k, hmap ▸ hy, hold⟩
    · -- What was at the old key is now at the new one, which is sent to the same key.
      rintro ⟨y, hy, hold⟩
      by_cases hyk : y = k
      · exact ⟨k', hmap.trans (hyk ▸ hy), .inr ⟨rfl, hyk ▸ hold⟩⟩
      · exact ⟨y, hy, .inl ⟨hyk, hold⟩⟩
  spared t ht := by
    have hlabel' : k'.label = k.label := (congrArg EdgeKey.label hmap :)
    have hne : t ≠ k := fun h => hlabel (h ▸ ht)
    have hne' : t ≠ k' := fun h => hlabel (hlabel' ▸ h ▸ ht)
    rw [moveEdge]
    split
    · next htarget =>
      obtain rfl := Option.some.inj (hk'.symm.trans htarget)
      rw [get?_edges_addEdge, if_neg hne', get?_edges_removeEdge, if_neg hne]
    · rfl

theorem moved_moveFinish (state : Graph × Nat) {k : EdgeKey} (hstate : state.1.Sound)
    (hne : target ≠ source) (htarget : state.1.hasNode target = true)
    (hlabel : k.label ≠ relation) :
    Moved source target relation state.1 (moveFinish strategy source target state k).1 := by
  rw [moveFinish]
  split
  · next hfinish =>
    refine moved_moveEdge hstate hlabel (moveTarget?_finish htarget) ?_
    simp only [EdgeKey.mapEnds, hfinish, redirect_self, redirect_of_ne hne]
  · exact .refl _

/-- One edge of the list: a loop goes by way of the edge that is a loop no more,
which may be stored already and is then taken along. -/
theorem moved_moveEnds (state : Graph × Nat) {k : EdgeKey} (hstate : state.1.Sound)
    (hne : target ≠ source) (htarget : state.1.hasNode target = true)
    (hlabel : k.label ≠ relation) :
    Moved source target relation state.1 (moveEnds strategy source target state k).1 := by
  rw [moveEnds]
  split
  · next hstart =>
    have hfirst : Moved source target relation state.1
        (state.1.moveEdge strategy k (some target) none).1 := by
      refine moved_moveEdge hstate hlabel (moveTarget?_start htarget) ?_
      simp only [EdgeKey.mapEnds, hstart, redirect_self, redirect_of_ne hne]
    dsimp only
    split
    · have hsecond := hasNode_of_contents_eq hfirst.contents target
      exact hfirst.trans (moved_moveFinish (_, state.2 + 1) (hstate.moveEdge k _ _) hne
        (hsecond.trans htarget) hlabel)
    · exact .refl _
  · exact moved_moveFinish state hstate hne htarget hlabel

/-- An edge that still touches the source has not been in its turn. -/
theorem hasEdge_of_hasEdge_moveFinish {state : Graph × Nat} {k y : EdgeKey} (hne : target ≠ source)
    (htarget : state.1.hasNode target = true) (hstart : k.start ≠ source)
    (hy : y.touches source = true)
    (h : (moveFinish strategy source target state k).1.hasEdge y = true) :
    state.1.hasEdge y = true ∧ y ≠ k := by
  rw [moveFinish] at h
  split at h
  · rw [← edgeHas_true, edgeHas_moveEdge Properties.additive_true (moveTarget?_finish htarget),
      edgeHas_true] at h
    obtain ⟨hyk, hold⟩ | ⟨rfl, -⟩ := h
    · exact ⟨hold, hyk⟩
    · exact absurd (EdgeKey.touches_iff.1 hy) (not_or.2 ⟨hstart, hne⟩)
  · next hfinish =>
    refine ⟨h, ?_⟩
    rintro rfl
    exact absurd (EdgeKey.touches_iff.1 hy) (not_or.2 ⟨hstart, hfinish⟩)

theorem hasEdge_of_hasEdge_moveEnds {state : Graph × Nat} {k y : EdgeKey} (hne : target ≠ source)
    (htarget : state.1.hasNode target = true)
    (hfirst : (state.1.moveEdge strategy k (some target) none).1.hasNode target = true)
    (hy : y.touches source = true)
    (h : (moveEnds strategy source target state k).1.hasEdge y = true) :
    state.1.hasEdge y = true ∧ y ≠ k := by
  rw [moveEnds] at h
  split at h
  · next hstart =>
    dsimp only at h
    have hmove := moveTarget?_start (k := k) htarget
    split at h
    · obtain ⟨hold, hyk⟩ := hasEdge_of_hasEdge_moveFinish hne hfirst hne hy h
      rw [← edgeHas_true, edgeHas_moveEdge Properties.additive_true hmove, edgeHas_true] at hold
      obtain ⟨hyk', hold⟩ | ⟨rfl, -⟩ := hold
      · exact ⟨hold, hyk'⟩
      · exact absurd rfl hyk
    · next hmoved =>
      -- The edge was not moved because it is not stored.
      refine ⟨h, ?_⟩
      rintro rfl
      exact hmoved ((snd_moveEdge hmove).trans h)
  · next hstart => exact hasEdge_of_hasEdge_moveFinish hne htarget hstart hy h

/-- The list has been worked through: up to the map nothing has changed, and
what still touches the source is not in the list. -/
theorem moved_foldl_moveEnds (hne : target ≠ source) (ks : List EdgeKey)
    (hks : ∀ k ∈ ks, k.label ≠ relation) (state : Graph × Nat) (hstate : state.1.Sound)
    (htarget : state.1.hasNode target = true) :
    Moved source target relation state.1 (ks.foldl (moveEnds strategy source target) state).1 ∧
      ∀ y : EdgeKey, y.touches source = true →
        (ks.foldl (moveEnds strategy source target) state).1.hasEdge y = true →
          state.1.hasEdge y = true ∧ y ∉ ks := by
  induction ks generalizing state with
  | nil => exact ⟨.refl _, fun y _ h => ⟨h, List.not_mem_nil⟩⟩
  | cons k ks ih =>
    rw [List.forall_mem_cons] at hks
    have hstep : Moved source target relation state.1 (moveEnds strategy source target state k).1 :=
      moved_moveEnds state hstate hne htarget hks.1
    have htarget' := (hasNode_of_contents_eq hstep.contents target).trans htarget
    obtain ⟨hmoved, hleft⟩ := ih hks.2 _ (sound_moveEnds state k hstate) htarget'
    refine ⟨hstep.trans hmoved, fun y hy h => ?_⟩
    -- An edge that is left by the rest of the list was left by this step.
    obtain ⟨hold, hyks⟩ := hleft y hy h
    have hfirst : (state.1.moveEdge strategy k (some target) none).1.hasNode target = true :=
      (hasNode_of_contents_eq (hstate.contents_moveEdge k _ _) target).trans htarget
    obtain ⟨hold, hyk⟩ := hasEdge_of_hasEdge_moveEnds hne htarget hfirst hy hold
    exact ⟨hold, List.not_mem_cons_of_ne_of_not_mem hyk hyks⟩

theorem mem_touching {k : EdgeKey} {id : NodeId} :
    k ∈ g.touching id relation ↔
      g.hasEdge k = true ∧ k.touches id = true ∧ k.label ≠ relation := by
  simp [touching, hasEdge, OrderedMap.contains_eq_true_iff]

theorem moved_moveTouching (hg : g.Sound) (hne : target ≠ source)
    (htarget : g.hasNode target = true) :
    Moved source target relation g (g.moveTouching strategy source target relation).1 :=
  (moved_foldl_moveEnds hne _ (fun _ hk => (mem_touching.1 hk).2.2) (g, 0) hg htarget).1

/-- **Every edge of another relation goes where its ends go.** -/
theorem edgeHas_moveTouching (hg : g.Sound) (hne : target ≠ source)
    (htarget : g.hasNode target = true) (hP : Properties.Additive P) {k : EdgeKey}
    (hlabel : k.label ≠ relation) :
    (g.moveTouching strategy source target relation).1.EdgeHas P k ↔
      ∃ y : EdgeKey, y.mapEnds (redirect source target) = k ∧ g.EdgeHas P y := by
  have hmoved : Moved source target relation g (g.moveTouching strategy source target relation).1 :=
    moved_moveTouching hg hne htarget
  -- All edges that touched the source were in the list.
  have hclear : ∀ y : EdgeKey, y.label ≠ relation →
      (g.moveTouching strategy source target relation).1.EdgeHas P y →
      ¬y.touches source = true := fun y hy h htouch => by
    obtain ⟨hold, hnot⟩ := (moved_foldl_moveEnds hne (g.touching source relation)
      (fun _ hk => (mem_touching.1 hk).2.2) (g, 0) hg htarget).2 y htouch h.hasEdge
    exact hnot (mem_touching.2 ⟨hold, htouch, hy⟩)
  rw [← hmoved.image P hP k]
  constructor
  · intro h
    exact ⟨k, EdgeKey.mapEnds_redirect_of_not_touches (hclear k hlabel h), h⟩
  · rintro ⟨y, rfl, hy⟩
    rwa [EdgeKey.mapEnds_redirect_of_not_touches (hclear y hlabel hy)]

/-- Without edges to move nothing happens. -/
theorem moveTouching_of_touching_eq_nil (h : g.touching source relation = []) :
    g.moveTouching strategy source target relation = (g, 0) := by
  rw [moveTouching, h, List.foldl_nil]

end Moved

end Graph

end PropertyGraph
