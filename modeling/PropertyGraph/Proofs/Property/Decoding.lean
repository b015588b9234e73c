/-
What properties are decoded to, and that encoding them keeps them.

Two decoders meet the encoded form of properties.  The lenient one drops what
describes no property and puts the rest into normal form, with values in the
order in which they are first seen.  The strict one takes what it finds as it
stands.  On what has been encoded both agree.

* **`Value.addDistinct_nil`** — distinct values in first-seen order;
* **`Property.ofJson?_eq`**, **`Property.isSome_ofJson?`** — which property a JSON
  value describes, and which values describe one;
* **`Properties.get?_ofMembers`**, **`Properties.keys_ofMembers`** — the
  properties that an object describes, and their keys;
* **`Properties.ofTree?_toJson`** — the strict decoder gives back what has been
  encoded;
* **`Properties.decoding_normal`** — all of it.
-/
import PropertyGraph.Proofs.Record.Lines

namespace PropertyGraph

open Json

namespace Json

/-- Whether a value is a scalar. -/
def isScalar : Json → Bool
  | bool _ | int _ | float _ | text _ => true
  | _ => false

/-- The items of an array; any other value stands for itself. -/
def items : Json → List Json
  | array items => items
  | j => [j]

/-- Whether a value is a scalar, or an array of scalars that is not empty. -/
def isPropertyForm (j : Json) : Bool := !j.items.isEmpty && j.items.all isScalar

end Json

/-! ### Values -/

namespace Value

/-- The values that are not the same as one before them. -/
def firstSeen : List Value → List Value
  | [] => []
  | v :: vs => v :: (firstSeen vs).filter fun w => !v.same w

theorem isIn_concat (w v : Value) (seen : List Value) :
    w.isIn (seen ++ [v]) = (w.isIn seen || v.same w) := by
  rw [isIn, List.any_append, List.any_cons, List.any_nil, Bool.or_false, isIn]

/-- What is added to a list are the first seen values that it does not hold. -/
theorem addDistinct_eq_append_filter (seen vs : List Value) :
    addDistinct seen vs = seen ++ (firstSeen vs).filter fun w => !w.isIn seen := by
  induction vs generalizing seen with
  | nil => exact (List.append_nil seen).symm
  | cons v vs ih =>
    rw [addDistinct_cons, firstSeen, ih, List.filter_cons, List.filter_filter]
    cases hv : v.isIn seen with
    | true =>
      -- Whatever is the same as the value is held already.
      obtain ⟨u, hu, huv⟩ := isIn_eq_true_iff.1 hv
      rw [if_pos (rfl : true = true)]
      refine congrArg (seen ++ ·) (List.filter_congr fun w _ => ?_)
      cases hsame : v.same w with
      | false => exact (Bool.and_true _).symm
      | true =>
        have hw : w.isIn seen = true := isIn_eq_true_iff.2 ⟨u, hu, same_trans huv hsame⟩
        rw [hw]
        rfl
    | false =>
      rw [if_neg Bool.false_ne_true, if_pos (show (!false) = true from rfl),
        List.append_assoc]
      refine congrArg (seen ++ v :: ·) (List.filter_congr fun w _ => ?_)
      rw [isIn_concat, Bool.not_or]

/-- Distinct values are added in the order in which they are first seen. -/
theorem addDistinct_nil (vs : List Value) : addDistinct [] vs = firstSeen vs := by
  rw [addDistinct_eq_append_filter, List.nil_append]
  exact List.filter_eq_self.2 fun _ _ => rfl

theorem isSome_ofJson? (j : Json) : (ofJson? j).isSome = j.isScalar := by
  cases j with
  | int n =>
    rw [ofJson?]
    split <;> rfl
  | _ => rfl

/-- A value is decoded strictly to what it was. -/
theorem ofTree?_ofJson {v : Value} (h : v.isFinite = true) :
    ofTree? (Tree.ofJson v.toJson) = some v := by
  have hvalue : (Tree.ofJson v.toJson).value? = some v.toJson := by
    cases v with
    | float x =>
      rw [toJson_float h]
      rfl
    | _ => rfl
  rw [ofTree?, hvalue, Option.bind_some, ofJson?_toJson h]

end Value

theorem Json.Tree.ofJsons_eq_map (items : List Json) : ofJsons items = items.map ofJson := by
  induction items with
  | nil => rfl
  | cons j items ih => exact congrArg (ofJson j :: ·) ih

theorem Json.Tree.ofMembers_eq_map (members : List (String × Json)) :
    ofMembers members = members.map fun m => (m.1, ofJson m.2) := by
  induction members with
  | nil => rfl
  | cons m members ih => exact congrArg ((m.1, ofJson m.2) :: ·) ih

/-! ### Properties -/

namespace Property

theorem isSome_ofDistinct?_cons (v : Value) (vs : List Value) :
    (ofDistinct? (v :: vs)).isSome = true := by
  cases vs <;> rfl

/-- A JSON value describes the property of its items, each as it is first seen. -/
theorem ofJson?_eq (j : Json) :
    ofJson? j =
      (j.items.mapM Value.ofJson?).bind fun vs => ofDistinct? (Value.firstSeen vs) := by
  have hscalar : (Value.ofJson? j).map single =
      ([j].mapM Value.ofJson?).bind fun vs => ofDistinct? (Value.firstSeen vs) := by
    rw [List.mapM_cons]
    cases Value.ofJson? j <;> rfl
  cases j with
  | array items =>
    simp only [← Value.addDistinct_nil]
    rfl
  | _ => exact hscalar

/-- Scalars and arrays of scalars that are not empty describe a property, and
nothing else does. -/
theorem isSome_ofJson? (j : Json) : (ofJson? j).isSome = j.isPropertyForm := by
  rw [ofJson?_eq, Json.isPropertyForm, ← funext Value.isSome_ofJson?, ← mapM_isSome]
  cases j.items with
  | nil => rfl
  | cons i items =>
    rw [List.mapM_cons]
    cases Value.ofJson? i with
    | none => rfl
    | some v =>
      cases items.mapM Value.ofJson? with
      | none => rfl
      | some vs => exact isSome_ofDistinct?_cons v _

/-- A property is decoded strictly to what it was. -/
theorem ofTree?_ofJson {p : Property} (hp : ∀ v ∈ p.values, v.isFinite = true) :
    ofTree? (Tree.ofJson p.toJson) = some p := by
  cases p with
  | single v =>
    have hv := Value.ofTree?_ofJson (hp v List.mem_cons_self)
    have hscalar : ofTree? (Tree.ofJson v.toJson) =
        (Value.ofTree? (Tree.ofJson v.toJson)).map single := by
      cases v with
      | float x =>
        rw [Value.toJson_float (hp (.float x) List.mem_cons_self)]
        rfl
      | _ => rfl
    rw [toJson, hscalar, hv, Option.map_some]
  | several vs =>
    have hread : (vs.map fun v => Tree.ofJson v.toJson).mapM Value.ofTree? = some vs :=
      mapM_map_eq_some fun v hv => Value.ofTree?_ofJson (hp v hv)
    rw [toJson, Tree.ofJson, Tree.ofJsons_eq_map, List.map_map]
    exact congrArg (Option.map several) hread

end Property

namespace Properties

theorem map_fst_filterMap {l : List (String × Json)} :
    (l.filterMap fun m => (Property.ofJson? m.2).map fun p => (m.1, p)).map Prod.fst =
      (l.filter fun m => m.2.isPropertyForm).map Prod.fst := by
  induction l with
  | nil => rfl
  | cons m l ih =>
    rw [List.filterMap_cons, List.filter_cons, ← Property.isSome_ofJson?]
    cases Property.ofJson? m.2 with
    | none => exact ih
    | some p => exact congrArg (m.1 :: ·) ih

/-- The members of an object that describe a property, each with its property. -/
theorem entries_ofMembers (o : OrderedMap String Json) :
    OrderedMap.entries (ofMembers o.entries) =
      o.entries.filterMap fun m => (Property.ofJson? m.2).map fun p => (m.1, p) := by
  refine OrderedMap.entries_ofList ?_
  rw [map_fst_filterMap]
  exact o.nodup.sublist (List.filter_sublist.map _)

/-- An object keeps the keys of what describes a property, in their order. -/
theorem keys_ofMembers (o : OrderedMap String Json) :
    (ofMembers o.entries).keys = (o.entries.filter fun m => m.2.isPropertyForm).map Prod.fst := by
  rw [OrderedMap.keys, entries_ofMembers, map_fst_filterMap]

theorem get?_ofMembers (o : OrderedMap String Json) (key : String) :
    (ofMembers o.entries).get? key = (o.get? key).bind Property.ofJson? := by
  refine Option.ext fun p => ?_
  rw [OrderedMap.get?_eq_some_iff, entries_ofMembers, List.mem_filterMap, Option.bind_eq_some_iff]
  constructor
  · rintro ⟨m, hm, hread⟩
    obtain ⟨q, hq, hpair⟩ := Option.map_eq_some_iff.1 hread
    obtain ⟨rfl, rfl⟩ := Prod.mk.inj hpair
    exact ⟨m.2, OrderedMap.get?_eq_some_iff.2 hm, hq⟩
  · rintro ⟨j, hj, hread⟩
    exact ⟨(key, j), OrderedMap.get?_eq_some_iff.1 hj, Option.map_eq_some_iff.2 ⟨p, hread, rfl⟩⟩

/-- A property that an object describes has the values of one member, each as it
is first seen, in normal form. -/
theorem exists_of_get?_ofMembers {o : OrderedMap String Json} {key : String} {p : Property}
    (h : (ofMembers o.entries).get? key = some p) :
    ∃ j vs, o.get? key = some j ∧ j.items.mapM Value.ofJson? = some vs ∧
      p.values = Value.firstSeen vs ∧ p.Normal := by
  rw [get?_ofMembers] at h
  obtain ⟨j, hj, hread⟩ := Option.bind_eq_some_iff.1 h
  rw [Property.ofJson?_eq] at hread
  obtain ⟨vs, hvs, hdistinct⟩ := Option.bind_eq_some_iff.1 hread
  refine ⟨j, vs, hj, hvs, Property.values_ofDistinct? hdistinct, ?_⟩
  refine Property.normal_ofDistinct? ?_ hdistinct
  rw [← Value.addDistinct_nil]
  exact Value.distinct_addDistinct List.Pairwise.nil vs

/-- What has been encoded is decoded strictly to what it was. -/
theorem ofTree?_toJson {m : Properties} (hm : m.Recordable) :
    ofTree? (Tree.ofJson m.toJson) = some m := by
  have hread : (m.entries.map fun e => (e.1, Tree.ofJson e.2.toJson)).mapM
      (fun e : String × Tree => (Property.ofTree? e.2).map fun p => (e.1, p)) = some m.entries := by
    refine mapM_map_eq_some fun e he => ?_
    rw [Property.ofTree?_ofJson (hm e he).finite, Option.map_some]
  rw [toJson, Tree.ofJson, Tree.ofMembers_eq_map, List.map_map]
  exact (congrArg (Option.map OrderedMap.ofList) hread).trans
    (congrArg some (OrderedMap.ofList_entries m))

/-- **Decoding makes normal forms, and encoding keeps them.**  An object keeps
the keys, in their order, of its scalars and of its arrays of scalars that are
not empty; under each is a single value, or a list of at least two, those of the
member as they are first seen.  Properties of that form with finite floats come
back from their encoding with either decoder: the lenient one, and the strict one
from the encoded value, or from its text if every float reads back from its own.
So decoding what has been decoded and encoded changes nothing. -/
theorem decoding_normal {o : OrderedMap String Json} (ho : Legal (.object o.entries)) :
    (ofMembers o.entries).keys = (o.entries.filter fun m => m.2.isPropertyForm).map Prod.fst ∧
      (∀ key p, (ofMembers o.entries).get? key = some p →
        ∃ j vs, o.get? key = some j ∧ j.items.mapM Value.ofJson? = some vs ∧
          p.values = Value.firstSeen vs ∧ p.Normal) ∧
      ofJson (ofMembers o.entries).toJson = ofMembers o.entries ∧
      ∀ m : Properties, m.Recordable →
        ofJson m.toJson = m ∧ ofTree? (Tree.ofJson m.toJson) = some m ∧
          ((∀ x ∈ m.floats, ReadsBack x) →
            (Tree.read? (compact m.toJson)).bind ofTree? = some m) := by
  have hdecoded : (ofMembers o.entries).Recordable := by
    cases ho with
    | object hmembers => exact recordable_ofMembers hmembers
  refine ⟨keys_ofMembers o, fun key p hp => exists_of_get?_ofMembers hp,
    ofMembers_toJson hdecoded, fun m hm => ⟨ofMembers_toJson hm, ofTree?_toJson hm, ?_⟩⟩
  intro hreads
  have hread : Tree.read? (compact m.toJson) = some (Tree.ofJson m.toJson) :=
    read?_compact (readable_toJson hm hreads)
  rw [hread, Option.bind_some, ofTree?_toJson hm]

/-- One, as a word of sixty-four bits. -/
def one : Double := ⟨0x3ff0000000000000⟩

theorem readsBack_one : ReadsBack one := by
  have htext : (compact (.float one)).toList = ['1', '.', '0'] := by
    rw [compact]
    decide +kernel
  have hnumeral : Numeral.ofText? ['1', '.', '0'] = some ⟨false, ['1'], ['0'], none⟩ := by decide
  have hdouble : Numeral.double? ⟨false, ['1'], ['0'], none⟩ = some one := by decide +kernel
  refine readsBack_of_ofText? (by decide) (htext ▸ hnumeral) ?_
  rw [Numeral.value?, if_neg (by decide), hdouble]
  rfl

/-- Members of every shape, some of which describe no property. -/
def mixed : OrderedMap String Json where
  entries :=
    [("absent", .null), ("line", .array [.int 1, .float one, .int 1, .text "1", .float one]),
      ("spoiled", .array [.int 1, .null]), ("empty", .array []),
      ("repeated", .array [.bool true, .bool true]), ("nested", .object [("line", .int 1)]),
      ("name", .text "alpha")]
  nodup := by decide

/-- Of the members three are kept: a list in which one stands as an integer, as a
float and as a text, and two single values. -/
theorem decoding_normal_mixed :
    Legal (.object mixed.entries) ∧
      OrderedMap.entries (ofMembers mixed.entries) =
        [("line", .several [.integer 1, .float one, .text "1"]),
          ("repeated", .single (.boolean true)), ("name", .single (.text "alpha"))] ∧
      ofJson (ofMembers mixed.entries).toJson = ofMembers mixed.entries ∧
      (Tree.read? (compact (ofMembers mixed.entries).toJson)).bind ofTree? =
        some (ofMembers mixed.entries) := by
  have hint : Legal (.int 1) := .int (by decide) (by decide)
  have hfloat : Legal (.float one) := .float (by decide)
  have hmembers : ∀ m ∈ mixed.entries, m.2.Legal := by
    simp only [mixed, List.forall_mem_cons]
    refine ⟨.null, .array ?_, .array ?_, .array (List.forall_mem_nil _), .array ?_, .object ?_,
      .text _, List.forall_mem_nil _⟩ <;> simp only [List.forall_mem_cons]
    · exact ⟨hint, hfloat, hint, .text _, hfloat, List.forall_mem_nil _⟩
    · exact ⟨hint, .null, List.forall_mem_nil _⟩
    · exact ⟨.bool true, .bool true, List.forall_mem_nil _⟩
    · exact ⟨hint, List.forall_mem_nil _⟩
  have hfloats : floats (ofMembers mixed.entries) = [one] := by decide +kernel
  have hreads : ∀ x ∈ floats (ofMembers mixed.entries), ReadsBack x := by
    rw [hfloats]
    exact List.forall_mem_singleton.2 readsBack_one
  obtain ⟨-, -, hagain, hback⟩ := decoding_normal (.object hmembers)
  exact ⟨.object hmembers, by decide +kernel, hagain,
    (hback _ (recordable_ofMembers hmembers)).2.2 hreads⟩

end Properties

end PropertyGraph
