/-
A record and its line.

The tree of a record is an object that starts with its type, and every field of
it is found under its own name.  So a line reads back as the record that it was
written from, if the values in it do.

* **`ofTree?_ofJson`** — the tree of a record;
* **`parse?_line`** — the line of a record reads back;
* **`recordable_supplied`** — whatever a line is read as, its properties are ones
  that records hold;
* **`readable_ofNode`**, **`readable_ofEdge`** — the records of nodes and edges
  with such properties can be read back.
-/
import PropertyGraph.Proofs.Graph.Runs
import PropertyGraph.Proofs.Property.Encoding

namespace PropertyGraph

open Json

/-! ### Readable records -/

/-- A double reads back from its own text. -/
def ReadsBack (x : Double) : Prop := parse? (compact (.float x)) = some (.float x)

/-- It does so if its text is a numeral with its value. -/
theorem readsBack_of_ofText? {x : Double} (hx : x.isFinite = true) {n : Numeral}
    (hn : Numeral.ofText? (compact (.float x)).toList = some n)
    (hvalue : n.value? = some (.float x)) : ReadsBack x := by
  have hword : ∀ w : List Char, Numeral.ofText? w = none → (compact (.float x)).toList ≠ w := by
    rintro w hw rfl
    rw [hw] at hn
    cases hn
  refine (parse?_float_iff hx).2 ?_
  rw [wordToken?, if_neg (hword _ (by decide)), if_neg (hword _ (by decide)),
    if_neg (hword _ (by decide)), hn, Option.map_some, hvalue]

/-- The double that a value is. -/
def Value.float? : Value → Option Double
  | float x => some x
  | _ => none

/-- The doubles among the values of a property. -/
def Property.floats (p : Property) : List Double := p.values.filterMap Value.float?

/-- The doubles among all values. -/
def Properties.floats (m : Properties) : List Double := m.values.flatMap Property.floats

theorem Value.readable_toJson {v : Value} (hfinite : v.isFinite = true)
    (hread : ∀ x, v.float? = some x → ReadsBack x) {depth : Nat} : Readable depth v.toJson := by
  cases v with
  | boolean b => exact .bool b
  | integer n =>
    have hlow := Int64.le_toInt n
    have hhigh := Int64.toInt_lt n
    have hpow : Nat.pow 2 63 = 2 ^ 63 ∧ Nat.pow 2 63 < Nat.pow 2 64 := by decide
    exact .int (by omega) (by omega)
  | float x =>
    rw [toJson_float hfinite]
    exact .float hfinite (hread x rfl)
  | text s => exact .text s

theorem Property.readable_toJson {p : Property} (hp : p.Recordable)
    (hread : ∀ x ∈ p.floats, ReadsBack x) {depth : Nat} : Readable (depth + 1) p.toJson := by
  have hvalue : ∀ v ∈ p.values, ∀ depth, Readable depth v.toJson := fun v hv depth =>
    Value.readable_toJson (hp.finite v hv) fun x hx => hread x (List.mem_filterMap.2 ⟨v, hv, hx⟩)
  cases p with
  | single v => exact hvalue v List.mem_cons_self _
  | several vs =>
    refine .array fun j hj => ?_
    obtain ⟨v, hv, rfl⟩ := List.mem_map.1 hj
    exact hvalue v hv _

theorem Properties.readable_toJson {m : Properties} (hm : m.Recordable)
    (hread : ∀ x ∈ m.floats, ReadsBack x) {depth : Nat} : Readable (depth + 2) m.toJson := by
  refine .object ?_ fun member hmember => ?_
  · rw [List.map_map]
    exact m.nodup
  · obtain ⟨e, he, rfl⟩ := List.mem_map.1 hmember
    refine Property.readable_toJson (hm e he) fun x hx => hread x ?_
    exact List.mem_flatMap.2 ⟨e.2, List.mem_map_of_mem he, hx⟩

theorem NodeId.readable_toJson (id : NodeId) {depth : Nat} : Readable depth id.toJson := by
  cases id with
  | int n => exact Value.readable_toJson (v := .integer n) rfl (fun _ h => by cases h)
  | text s => exact .text s

theorem Json.readable_texts (l : List String) {depth : Nat} : Readable (depth + 1) (.texts l) := by
  refine .array fun j hj => ?_
  obtain ⟨s, -, rfl⟩ := List.mem_map.1 hj
  exact .text s

namespace Record

theorem readable_ofNode {n : Node} (hn : n.properties.Recordable)
    (hread : ∀ x ∈ n.properties.floats, ReadsBack x) {depth : Nat} :
    Readable (depth + 3) (ofNode n).toJson := by
  refine .object (by simp) ?_
  simp only [List.forall_mem_cons]
  exact ⟨.text _, n.id.readable_toJson, readable_texts _, Properties.readable_toJson hn hread,
    List.forall_mem_nil _⟩

theorem readable_ofEdge {e : Edge} (he : e.properties.Recordable)
    (hread : ∀ x ∈ e.properties.floats, ReadsBack x) {depth : Nat} :
    Readable (depth + 3) (ofEdge e).toJson := by
  have hend : ∀ id : NodeId, Readable (depth + 2) (.object [("id", id.toJson)]) := fun id =>
    .object (by simp) (List.forall_mem_singleton.2 id.readable_toJson)
  refine .object (by simp) ?_
  simp only [List.forall_mem_cons]
  exact ⟨.text _, .text _, hend e.key.start, hend e.key.finish, Properties.readable_toJson he hread,
    List.forall_mem_nil _⟩

end Record

/-! ### Trees -/

theorem NodeId.ofTree?_ofJson (id : NodeId) : ofTree? (Tree.ofJson id.toJson) = some id := by
  cases id with
  | int n =>
    simp only [toJson, Tree.ofJson, ofTree?, Tree.value?, Option.bind_some, ofJson?,
      Value.within_toInt, Option.map_some, Int64.ofInt_toInt]
  | text s => rfl

theorem Json.Tree.list?_ofJson_texts (l : List String) :
    list? text? (ofJson (.texts l)) = some l := by
  rw [Json.texts, ofJson, list?]
  induction l with
  | nil => rfl
  | cons s l ih =>
    rw [List.map_cons, ofJsons, List.mapM_cons, ih]
    rfl

namespace Record

variable {depth : Nat}

theorem reference?_object (id : Tree) : reference? (.object [("id", id)]) = NodeId.ofTree? id := by
  simp [reference?, Tree.record?, Tree.fields?, Fields.required, Fields.get?]

theorem nodeOfTree?_object (tag id labels properties : Tree) :
    nodeOfTree? (.object [("type", tag), ("id", id), ("labels", labels),
        ("properties", properties)]) = (do
      let id ← NodeId.ofTree? id
      let labels ← Tree.list? Tree.text? labels
      let properties ← objectMembers? properties
      return .node id labels properties) := by
  simp [nodeOfTree?, Tree.record?, Tree.fields?, Fields.required, Fields.get?, Fields.withDefault]

theorem edgeOfTree?_object (tag label start finish properties : Tree) :
    edgeOfTree? (.object [("type", tag), ("label", label), ("start", start), ("end", finish),
        ("properties", properties)]) = (do
      let label ← Tree.text? label
      let start ← reference? start
      let finish ← reference? finish
      let properties ← objectMembers? properties
      return .edge ⟨start, label, finish⟩ properties) := by
  simp [edgeOfTree?, Tree.record?, Tree.fields?, Fields.required, Fields.get?, Fields.withDefault]

/-- An object is read as a record of its type, if that is named once. -/
theorem ofTree?_object {tag : String} {members : List (String × Tree)}
    (hmembers : ∀ m ∈ members, m.1 ≠ "type") {v : Json}
    (h : (Tree.object (("type", .text tag) :: members)).value? = some v) :
    ofTree? (.object (("type", .text tag) :: members)) =
      ofTagged? tag (.object (("type", .text tag) :: members)) := by
  have hrest : (members.filter fun m => m.1 = "type") = [] := by
    simpa using hmembers
  rw [ofTree?, h]
  simp [Tree.record?, Tree.fields?, Fields.required, Fields.get?, hrest, Tree.text?]

theorem objectMembers?_ofJson {members : List (String × Json)}
    (h : Readable depth (.object members)) :
    objectMembers? (Tree.ofJson (.object members)) = some members := by
  rw [objectMembers?, h.value?_ofJson, Option.map_some]

/-- A member of a readable object is readable. -/
theorem readable_of_mem {members : List (String × Json)}
    (h : Readable (depth + 1) (.object members)) {m : String × Json} (hm : m ∈ members) :
    Readable depth m.2 := by
  cases h with
  | object hnodup hmembers => exact hmembers m hm

/-- The tree of a record is read as the record. -/
theorem ofTree?_ofJson {r : Record} (h : Readable (depth + 1) r.toJson) :
    ofTree? (Tree.ofJson r.toJson) = some r := by
  have hvalue := h.value?_ofJson
  cases r with
  | node id labels properties =>
    have hproperties := objectMembers?_ofJson
      (readable_of_mem h (m := ("properties", .object properties)) (by simp))
    simp only [toJson, Tree.ofJson, Tree.ofMembers] at hvalue hproperties ⊢
    rw [ofTree?_object (by simp) hvalue, ofTagged?, if_pos rfl, nodeOfTree?_object,
      NodeId.ofTree?_ofJson, Tree.list?_ofJson_texts, hproperties]
    rfl
  | edge k properties =>
    have hproperties := objectMembers?_ofJson
      (readable_of_mem h (m := ("properties", .object properties)) (by simp))
    simp only [toJson, Tree.ofJson, Tree.ofMembers] at hvalue hproperties ⊢
    rw [ofTree?_object (by simp) hvalue, ofTagged?, if_neg (by decide), if_pos (by decide),
      edgeOfTree?_object, reference?_object, reference?_object, NodeId.ofTree?_ofJson,
      NodeId.ofTree?_ofJson, hproperties]
    rfl

/-- The line of a record reads back. -/
theorem parse?_line {r : Record} (h : Readable Tree.maxDepth r.toJson) :
    parse? r.line = some r := by
  rw [parse?, line, read?_compact h, Option.bind_some]
  exact ofTree?_ofJson h

/-! ### What a line can be read as -/

theorem legal_of_fields? {t : Tree} (ht : t.Legal) {declared : List (List String)} {f : Fields}
    (h : t.fields? declared = some f) : ∀ m ∈ f.present, m.2.Legal := by
  rw [Tree.fields?.eq_def] at h
  split at h
  · next members =>
    cases ht with
    | object hmembers =>
      obtain ⟨found, hfound, h⟩ := Option.bind_eq_some_iff.1 h
      cases h
      intro m hm
      obtain ⟨present, hpresent, hm⟩ := List.mem_flatten.1 hm
      obtain ⟨names, -, h⟩ := exists_of_mem_mapM hfound present hpresent
      split at h <;> cases h
      · exact absurd hm List.not_mem_nil
      · next found hfilter =>
        rw [List.mem_singleton] at hm
        subst hm
        exact hmembers found (List.mem_filter.1 (hfilter ▸ List.mem_singleton_self found)).1
  · next items =>
    cases ht with
    | array hitems =>
      split at h <;> cases h
      exact fun m hm => hitems _ (List.of_mem_zip hm).2
  · cases h

theorem legal_objectMembers? {t : Tree} (ht : t.Legal) {members : List (String × Json)}
    (h : objectMembers? t = some members) : ∀ m ∈ members, m.2.Legal := by
  obtain ⟨v, hv, h⟩ := Option.map_eq_some_iff.1 h
  have hlegal := ht.value? hv
  split at h
  · subst h
    cases hlegal with
    | object hmembers => exact hmembers
  · subst h
    exact List.forall_mem_nil _

/-- The properties of a record are those of one of its fields, if there are any. -/
theorem legal_withDefault {f : Fields} (hf : ∀ m ∈ f.present, m.2.Legal) {name : String}
    {members : List (String × Json)} (h : f.withDefault name [] objectMembers? = some members) :
    ∀ m ∈ members, m.2.Legal := by
  rw [Fields.withDefault] at h
  split at h
  · cases h
    exact List.forall_mem_nil _
  · next t ht =>
    obtain ⟨m, hm, rfl⟩ := Option.map_eq_some_iff.1 ht
    exact legal_objectMembers? (hf m (List.mem_of_find?_eq_some hm)) h

theorem recordable_supplied_of_node {t : Tree} (ht : t.Legal) {r : Record}
    (h : nodeOfTree? t = some r) : r.supplied.Recordable := by
  obtain ⟨f, hf, h⟩ := Option.bind_eq_some_iff.1 h
  obtain ⟨id, -, h⟩ := Option.bind_eq_some_iff.1 h
  obtain ⟨labels, -, h⟩ := Option.bind_eq_some_iff.1 h
  obtain ⟨properties, hproperties, h⟩ := Option.bind_eq_some_iff.1 h
  cases h
  exact Properties.recordable_ofMembers (legal_withDefault (legal_of_fields? ht hf) hproperties)

theorem recordable_supplied_of_edge {t : Tree} (ht : t.Legal) {r : Record}
    (h : edgeOfTree? t = some r) : r.supplied.Recordable := by
  obtain ⟨f, hf, h⟩ := Option.bind_eq_some_iff.1 h
  obtain ⟨label, -, h⟩ := Option.bind_eq_some_iff.1 h
  obtain ⟨start, -, h⟩ := Option.bind_eq_some_iff.1 h
  obtain ⟨finish, -, h⟩ := Option.bind_eq_some_iff.1 h
  obtain ⟨properties, hproperties, h⟩ := Option.bind_eq_some_iff.1 h
  cases h
  exact Properties.recordable_ofMembers (legal_withDefault (legal_of_fields? ht hf) hproperties)

theorem recordable_supplied_of_tagged {tag : String} {t : Tree} (ht : t.Legal) {r : Record}
    (h : ofTagged? tag t = some r) : r.supplied.Recordable := by
  rw [ofTagged?] at h
  split_ifs at h
  · exact recordable_supplied_of_node ht h
  · exact recordable_supplied_of_edge ht h

/-- Whatever a line is read as, its properties are ones that records hold. -/
theorem recordable_supplied {line : String} {r : Record} (h : parse? line = some r) :
    r.supplied.Recordable := by
  obtain ⟨t, hread, h⟩ := Option.bind_eq_some_iff.1 h
  have ht := Tree.legal_of_read? hread
  obtain ⟨v, -, h⟩ := Option.bind_eq_some_iff.1 h
  split at h
  · next tag items =>
    cases ht with
    | array hitems =>
      obtain ⟨text, -, h⟩ := Option.bind_eq_some_iff.1 h
      exact recordable_supplied_of_tagged (.array (List.forall_mem_cons.1 hitems).2) h
  · obtain ⟨f, -, h⟩ := Option.bind_eq_some_iff.1 h
    obtain ⟨text, -, h⟩ := Option.bind_eq_some_iff.1 h
    exact recordable_supplied_of_tagged ht h
  · cases h

end Record

end PropertyGraph
