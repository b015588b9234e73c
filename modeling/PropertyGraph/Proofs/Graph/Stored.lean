/-
What all stored properties have in common.

Updates make no properties but by merging what they are given, what a strategy
tells of missing ends and the mark into what is stored.  So a condition that
merging keeps holds of everything stored if it holds of all these.

* **`invariant_holds`** — every update keeps such a condition;
* **`run_recordable`** — a run that is given its properties as JSON stores only
  ones that records hold;
* **`wellFormed_of_given`** — so its edges hold no value twice;
* **`keeps_default`**, **`EndpointConfig.keeps_strategy`** — the strategies of
  the library tell of no others.
-/
import PropertyGraph.Graph.Endpoints
import PropertyGraph.Proofs.Graph.Soundness
import PropertyGraph.Proofs.Record.Lines

namespace PropertyGraph

/-- What is told of the ends of an edge whose properties meet a condition meets
it, too. -/
def EndpointStrategy.Keeps (strategy : EndpointStrategy) (Q : Properties → Prop) : Prop :=
  ∀ k properties, Q properties →
    Q (strategy k properties).startProperties ∧ Q (strategy k properties).finishProperties

theorem keeps_default {Q : Properties → Prop} (h : Q autoProperties) :
    EndpointStrategy.default.Keeps Q := fun _ _ _ => ⟨h, h⟩

namespace EndpointConfig

/-- Properties handed on from ones that records hold are such. -/
theorem recordable_carried {properties : Properties} (h : properties.Recordable)
    (keys : List String) {known : Properties} (hknown : known.Recordable) :
    Properties.Recordable (keys.foldl (fun m key =>
      match properties.get? key with
      | some p => m.insert key p
      | none => m) known) := by
  induction keys generalizing known with
  | nil => exact hknown
  | cons key keys ih =>
    refine ih ?_
    dsimp only
    split
    · next p hp => exact hknown.insert key (h.get? hp)
    · exact hknown

theorem recordable_endProperties (c : EndpointConfig) (lexicon : OrderedMap NodeId String)
    (id : NodeId) {properties : Properties} (h : properties.Recordable) :
    (c.endProperties lexicon id properties).Recordable := by
  refine Properties.Recordable.insert (recordable_carried h c.carry ?_) _
    (Property.recordable_single rfl)
  split
  · exact Properties.recordable_empty.insert _ (Property.recordable_single rfl)
  · exact Properties.recordable_empty

theorem keeps_strategy (c : EndpointConfig) (lexicon : OrderedMap NodeId String) :
    (c.strategy lexicon).Keeps Properties.Recordable := fun k _ h =>
  ⟨c.recordable_endProperties lexicon k.start h, c.recordable_endProperties lexicon k.finish h⟩

end EndpointConfig

namespace Graph

variable {strategy : EndpointStrategy} {Q : Properties → Prop} {g : Graph}

/-- All stored properties meet a condition. -/
structure Holds (Q : Properties → Prop) (g : Graph) : Prop where
  node : ∀ id n, g.node? id = some n → Q n.properties
  edge : ∀ k e, g.edges.get? k = some e → Q e.properties

theorem holds_empty : Holds Q empty where
  node _ _ h := by simp [node?, empty] at h
  edge _ _ h := by simp [empty] at h

theorem Holds.addNode (hmerge : ∀ m n : Properties, Q m → Q n → Q (m.merge n)) (hg : g.Holds Q)
    (id : NodeId) (labels : List String) {properties : Properties} (hp : Q properties) :
    (g.addNode id labels properties).Holds Q where
  node := forall_node_addNode hg.node hp fun _ hn => hmerge _ _ hn hp
  edge := hg.edge

theorem Holds.addEndpoints (hmerge : ∀ m n : Properties, Q m → Q n → Q (m.merge n))
    (hends : strategy.Keeps Q) (hg : g.Holds Q) (k : EdgeKey) {properties : Properties}
    (hp : Q properties) : (addEndpoints strategy g k properties).Holds Q := by
  obtain ⟨hstart, hfinish⟩ := hends k properties hp
  exact addEndpoints_induction (fun _ hh => hh.addNode hmerge _ _ hstart)
    (fun _ hh => hh.addNode hmerge _ _ hfinish) hg

theorem Holds.countEdge (hg : g.Holds Q) (k : EdgeKey) : (g.countEdge k).Holds Q where
  node id n hn := by
    rw [node?_countEdge, Option.map_eq_some_iff] at hn
    obtain ⟨old, hold, rfl⟩ := hn
    exact hg.node id old hold
  edge := hg.edge

theorem Holds.uncountEdge (hg : g.Holds Q) (k : EdgeKey) : (g.uncountEdge k).Holds Q where
  node id n hn := by
    rw [node?_uncountEdge, Option.map_eq_some_iff] at hn
    obtain ⟨old, hold, rfl⟩ := hn
    exact hg.node id old hold
  edge := hg.edge

theorem Holds.insertEdge (hg : g.Holds Q) (k : EdgeKey) {e : Edge} (he : Q e.properties) :
    Holds Q { g with edges := g.edges.insert k e } where
  node := hg.node
  edge k' e' hk' := by
    rw [OrderedMap.get?_insert] at hk'
    split at hk'
    · exact Option.some.inj hk' ▸ he
    · exact hg.edge k' e' hk'

theorem Holds.addEdge (hmerge : ∀ m n : Properties, Q m → Q n → Q (m.merge n))
    (hends : strategy.Keeps Q) (hg : g.Holds Q) (k : EdgeKey) {properties : Properties}
    (hp : Q properties) : (g.addEdge strategy k properties).Holds Q := by
  rw [Graph.addEdge]
  split
  · next old hk =>
    exact (hg.insertEdge k (hmerge old.properties properties (hg.edge k old hk) hp)).countEdge k
  · exact ((hg.addEndpoints hmerge hends k hp).insertEdge k hp).countEdge k

theorem Holds.removeEdge (hg : g.Holds Q) (k : EdgeKey) : (g.removeEdge k).Holds Q := by
  rw [Graph.removeEdge]
  split
  · have herase : Holds Q { g with edges := g.edges.erase k } := by
      refine ⟨hg.node, fun k' e hk' => ?_⟩
      rw [OrderedMap.get?_erase] at hk'
      split at hk'
      · cases hk'
      · exact hg.edge k' e hk'
    exact herase.uncountEdge k
  · exact hg

/-- Every update keeps a condition on stored properties that merging keeps and
that all it is given meets. -/
theorem invariant_holds (hmerge : ∀ m n : Properties, Q m → Q n → Q (m.merge n))
    (hends : strategy.Keeps Q) (hmarked : Q autoProperties)
    (hrecorded : ∀ {line r}, Record.parse? line = some r → Q r.supplied) :
    Invariant strategy Q (Holds Q) where
  addNode hg id labels _ hp := hg.addNode hmerge id labels hp
  addEdge hg k _ hp := hg.addEdge hmerge hends k hp
  removeEdge hg k := hg.removeEdge k
  stored hg _ _ hk := hg.edge _ _ hk
  marked := hmarked
  recorded := hrecorded

end Graph

/-- Properties are given as a JSON value. -/
def Properties.IsGiven (m : Properties) : Prop := ∃ j : Json, j.Legal ∧ m = .ofJson j

theorem Properties.IsGiven.recordable {m : Properties} (h : m.IsGiven) : m.Recordable := by
  obtain ⟨j, hj, rfl⟩ := h
  exact recordable_ofJson hj

theorem Update.Supplies.imp {Q Q' : Properties → Prop} (h : ∀ m, Q m → Q' m) {u : Update}
    (hu : u.Supplies Q) : u.Supplies Q' := by
  cases u with
  | addNode | addEdge => exact h _ hu
  | _ => trivial

/-- A run that is given its properties as JSON stores only ones that records
hold. -/
theorem Graph.run_recordable {updates : List (EndpointStrategy × Update)}
    (h : ∀ u ∈ updates, u.1.Keeps Properties.Recordable ∧ u.2.Supplies Properties.IsGiven) :
    (run updates).Holds Properties.Recordable :=
  run_induction holds_empty fun u hu =>
    ⟨invariant_holds (fun _ _ hm hn => hm.merge hn) (h u hu).1 Properties.recordable_autoProperties
      Record.recordable_supplied, (h u hu).2.imp fun _ hm => hm.recordable⟩

/-- The properties of edges in such a run are in normal form, as merging edges
asks of them. -/
theorem Graph.wellFormed_of_given {updates : List (EndpointStrategy × Update)}
    (h : ∀ u ∈ updates, u.1.Keeps Properties.Recordable ∧ u.2.Supplies Properties.IsGiven) :
    ∀ e ∈ (run updates).edges.entries, e.2.properties.WellFormed := fun e he p hp =>
  ((run_recordable h).edge e.1 e.2 (OrderedMap.get?_eq_some_iff.2 he) p hp).wellFormed

end PropertyGraph
