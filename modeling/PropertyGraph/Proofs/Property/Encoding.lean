/-
Properties as JSON, and back.

Writing and reading go different ways: what is stored is written as it stands,
and what is read is put into normal form, repeated values dropped and a list of
one value made single.  Both fit together for the properties that records hold:
they are in normal form already, and all their numbers can be written.

* **`Property.ofJson?_toJson`**, **`Properties.ofMembers_toJson`** — such
  properties are read back as they were;
* **`Property.recordable_ofJson?`**, **`Properties.recordable_ofJson`** — all
  that is read is such;
* **`Properties.Recordable.merge`** — and so is what merging makes of it.
-/
import PropertyGraph.Graph.Basic
import PropertyGraph.Proofs.Json.Legal
import PropertyGraph.Proofs.Property.NormalForm

namespace PropertyGraph

open Json (Legal)

/-! ### Values -/

namespace Value

/-- Whether a value can be written: only a number that is none, or an infinity,
cannot. -/
def isFinite : Value → Bool
  | float x => x.isFinite
  | _ => true

theorem same_self_of_isFinite {v : Value} (h : v.isFinite = true) : v.same v = true := by
  cases v with
  | float x =>
    have hword : x.magnitude < Double.infinityWord := of_decide_eq_true h
    exact Double.same_self_iff.2 (decide_eq_false (Nat.lt_asymm hword))
  | _ => simp [same]

theorem within_toInt (n : Int64) : Text.within 64 n.toInt = some n.toInt := by
  have hlow := Int64.le_toInt n
  have hhigh := Int64.toInt_lt n
  have hpow : Nat.pow 2 (64 - 1) = 2 ^ 63 := rfl
  rw [Text.within, hpow, if_pos (by omega)]

theorem toJson_float {x : Double} (h : x.isFinite = true) : (float x).toJson = .float x :=
  if_pos h

theorem ofJson?_toJson {v : Value} (h : v.isFinite = true) : ofJson? v.toJson = some v := by
  cases v with
  | integer n => simp only [toJson, ofJson?, within_toInt, Int64.ofInt_toInt]
  | float x =>
    rw [toJson_float h]
    rfl
  | _ => rfl

theorem isFinite_of_ofJson? {j : Json} (hj : j.Legal) {v : Value} (h : ofJson? j = some v) :
    v.isFinite = true := by
  cases hj with
  | @int n hlow hhigh =>
    have hbound : n.natAbs ≤ Nat.pow 2 64 := by
      have hpow : Nat.pow 2 63 < Nat.pow 2 64 := by decide
      omega
    rw [ofJson?] at h
    split at h <;> cases h
    · rfl
    · exact Double.isFinite_ofInt hbound
  | float hfinite =>
    cases h
    exact hfinite
  | null | array | object => cases h
  | bool | text =>
    cases h
    rfl

end Value

/-! ### Properties -/

namespace Property

/-- A property as records hold it: in normal form, and all its values can be
written. -/
structure Recordable (p : Property) : Prop where
  finite : ∀ v ∈ p.values, v.isFinite = true
  several : p.isList = true → 2 ≤ p.values.length ∧ Value.Distinct p.values

theorem Recordable.wellFormed {p : Property} (hp : p.Recordable) : p.WellFormed :=
  ⟨fun v hv => Value.same_self_of_isFinite (hp.finite v hv), hp.several⟩

theorem recordable_single {v : Value} (h : v.isFinite = true) : (single v).Recordable where
  finite := List.forall_mem_singleton.2 h
  several hlist := absurd hlist Bool.false_ne_true

/-- What is left of distinct values is in normal form. -/
theorem recordable_ofDistinct? {vs : List Value} (hfinite : ∀ v ∈ vs, v.isFinite = true)
    (hdistinct : Value.Distinct vs) {p : Property} (h : ofDistinct? vs = some p) :
    p.Recordable where
  finite := values_ofDistinct? h ▸ hfinite
  several := normal_ofDistinct? hdistinct h

theorem recordable_ofJson? {j : Json} (hj : j.Legal) {p : Property} (h : ofJson? j = some p) :
    p.Recordable := by
  rw [ofJson?.eq_def] at h
  split at h
  · next items =>
    cases hj with
    | array hitems =>
      obtain ⟨vs, hvs, h⟩ := Option.bind_eq_some_iff.1 h
      refine recordable_ofDistinct? (fun v hv => ?_)
        (Value.distinct_addDistinct List.Pairwise.nil vs) h
      have hmem := (Value.mem_of_mem_addDistinct hv).resolve_left List.not_mem_nil
      obtain ⟨item, hitem, hread⟩ := exists_of_mem_mapM hvs v hmem
      exact Value.isFinite_of_ofJson? (hitems item hitem) hread
  · obtain ⟨v, hv, rfl⟩ := Option.map_eq_some_iff.1 h
    exact recordable_single (Value.isFinite_of_ofJson? hj hv)

/-- A property that records hold is read back as it was. -/
theorem ofJson?_toJson {p : Property} (hp : p.Recordable) : ofJson? p.toJson = some p := by
  cases p with
  | single v =>
    have hv := hp.finite v List.mem_cons_self
    have hscalar : ofJson? v.toJson = (Value.ofJson? v.toJson).map single := by
      cases v with
      | float x =>
        rw [Value.toJson_float hv]
        rfl
      | _ => rfl
    rw [toJson, hscalar, Value.ofJson?_toJson hv, Option.map_some]
  | several vs =>
    obtain ⟨hlength, hdistinct⟩ := hp.several rfl
    have hkept : Value.addDistinct [] vs = vs := Value.addDistinct_eq_append hdistinct
    have hread : (vs.map Value.toJson).mapM Value.ofJson? = some vs :=
      mapM_map_eq_some fun v hv => Value.ofJson?_toJson (hp.finite v hv)
    rw [toJson, ofJson?, hread, Option.bind_some, hkept]
    rcases vs with _ | ⟨v, _ | ⟨w, vs⟩⟩
    · exact absurd hlength (by decide)
    · exact absurd hlength (by simp [values])
    · rfl

theorem Recordable.absorbAll {p : Property} (hp : p.Recordable) {vs : List Value}
    (hvs : ∀ v ∈ vs, v.isFinite = true) : (p.absorbAll vs).1.Recordable where
  finite v hv := by
    rw [values_absorbAll] at hv
    exact (Value.mem_of_mem_addDistinct hv).elim (hp.finite v) (hvs v)
  several := Normal.absorbAll hp.several vs

end Property

namespace Properties

/-- Every property is one that records hold. -/
def Recordable (m : Properties) : Prop := ∀ e ∈ m.entries, e.2.Recordable

theorem recordable_empty : Recordable .empty := List.forall_mem_nil _

theorem Recordable.insert {m : Properties} (hm : m.Recordable) (key : String) {p : Property}
    (hp : p.Recordable) : Recordable (OrderedMap.insert m key p) :=
  forall_mem_insert hm key hp

theorem Recordable.get? {m : Properties} (hm : m.Recordable) {key : String} {p : Property}
    (h : OrderedMap.get? m key = some p) : p.Recordable :=
  hm (key, p) (OrderedMap.get?_eq_some_iff.1 h)

theorem recordable_autoProperties : autoProperties.Recordable :=
  recordable_empty.insert _ (Property.recordable_single rfl)

theorem Recordable.merge {m n : Properties} (hm : m.Recordable) (hn : n.Recordable) :
    (m.merge n).Recordable :=
  forall_mem_merge (fun _ _ hp hq => hp.absorbAll hq.finite) hm hn

theorem recordable_ofMembers {members : List (String × Json)} (h : ∀ m ∈ members, m.2.Legal) :
    (ofMembers members).Recordable := by
  intro e he
  obtain ⟨m, hm, hread⟩ := List.mem_filterMap.1 (OrderedMap.mem_of_mem_ofList he)
  obtain ⟨p, hp, rfl⟩ := Option.map_eq_some_iff.1 hread
  exact Property.recordable_ofJson? (h m hm) hp

theorem recordable_ofJson {j : Json} (h : j.Legal) : (ofJson j).Recordable := by
  cases h with
  | object hmembers => exact recordable_ofMembers hmembers
  | _ => exact recordable_empty

/-- Properties that records hold are read back as they were. -/
theorem ofMembers_toJson {m : Properties} (hm : m.Recordable) :
    ofMembers (m.entries.map fun e => (e.1, e.2.toJson)) = m := by
  have hread : (m.entries.map fun e => (e.1, e.2.toJson)).filterMap
      (fun e => (Property.ofJson? e.2).map fun p => (e.1, p)) = m.entries := by
    rw [List.filterMap_map, List.filterMap_congr (g := some) fun e he => ?_, List.filterMap_some]
    rw [Function.comp_apply, Property.ofJson?_toJson (hm e he), Option.map_some]
  rw [ofMembers, hread, OrderedMap.ofList_entries]

end Properties

end PropertyGraph
