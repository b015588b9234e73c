/-
The algebra of merging.

The keys of a map and the values under a key grow alike: what comes in is
appended unless it is held already, and such growing is associative
(`grow_grow`).  A map in normal form is told by its keys and by the values under
each, so maps merge associatively as well:

* **`Properties.ext_of_valuesAt`** — maps with the same keys and the same values
  are one;
* **`Properties.merge_assoc`**, **`Properties.merge_self`** — merging is
  associative, and a map merged with itself stays;
* **`Properties.get?_merge`** — what a merged map holds under a key;
* **`Properties.mem_promotions_iff`** — the keys that are reported;
* **`Properties.foldl_mergeStep`** — one pass over the incoming properties
  gives the merged map and the report together;
* **`Properties.merge_laws`** — all of it, for well-formed maps.
-/
import Mathlib.Data.List.Induction
import PropertyGraph.Proofs.Property.NormalForm

namespace PropertyGraph

/-! ### Growing lists -/

section Growing

variable {α : Type} {P : α → List α → Prop} [∀ a seen, Decidable (P a seen)]

/-- A list with the elements of another appended one after another, but for those
that `P` takes to be held already. -/
def grow (P : α → List α → Prop) [∀ a seen, Decidable (P a seen)] (seen l : List α) : List α :=
  l.foldl (fun seen a => if P a seen then seen else seen ++ [a]) seen

theorem grow_append (seen l l' : List α) : grow P seen (l ++ l') = grow P (grow P seen l) l' :=
  List.foldl_append

theorem grow_of_forall {seen l : List α} (h : ∀ a ∈ l, P a seen) : grow P seen l = seen := by
  induction l with
  | nil => rfl
  | cons a l ih =>
    obtain ⟨ha, hl⟩ := List.forall_mem_cons.1 h
    rw [← List.singleton_append, grow_append, show grow P seen [a] = seen from if_pos ha]
    exact ih hl

/-- What is appended may be gathered before, if what a list holds is held once the
list has been appended. -/
theorem grow_grow (hP : ∀ a seen l, P a l → P a (grow P seen l)) (seen l l' : List α) :
    grow P seen (grow P l l') = grow P (grow P seen l) l' := by
  -- The last element decides on both sides alike whether it is appended.
  induction l' using List.reverseRecOn with
  | nil => rfl
  | append_singleton l' a ih =>
    rw [grow_append, grow_append, ← ih]
    by_cases ha : P a (grow P l l')
    · rw [show grow P (grow P l l') [a] = grow P l l' from if_pos ha]
      exact (if_pos (hP a seen _ ha)).symm
    · rw [show grow P (grow P l l') [a] = grow P l l' ++ [a] from if_neg ha]
      exact grow_append seen (grow P l l') [a]

end Growing

theorem appendNew_of_subset {α : Type} [DecidableEq α] {seen l : List α} (h : l ⊆ seen) :
    appendNew seen l = seen :=
  grow_of_forall (P := (· ∈ ·)) fun _ ha => h ha

theorem appendNew_appendNew {α : Type} [DecidableEq α] (seen l l' : List α) :
    appendNew seen (appendNew l l') = appendNew (appendNew seen l) l' :=
  grow_grow (P := (· ∈ ·)) (fun _ _ _ ha => mem_appendNew.2 (.inr ha)) seen l l'

namespace Value

theorem isIn_addDistinct_iff {v : Value} {seen vs : List Value} :
    v.isIn (addDistinct seen vs) = true ↔ v.isIn seen = true ∨ v.isIn vs = true := by
  rw [isIn_eq_true_iff, isIn_eq_true_iff, isIn_eq_true_iff]
  exact exists_addDistinct (respected_same v)

theorem addDistinct_of_forall_isIn {seen vs : List Value} (h : ∀ v ∈ vs, v.isIn seen = true) :
    addDistinct seen vs = seen :=
  grow_of_forall (P := fun (v : Value) seen => v.isIn seen = true) h

theorem addDistinct_addDistinct (seen vs ws : List Value) :
    addDistinct seen (addDistinct vs ws) = addDistinct (addDistinct seen vs) ws :=
  grow_grow (P := fun (v : Value) seen => v.isIn seen = true)
    (fun _ _ _ hv => isIn_addDistinct_iff.2 (.inr hv)) seen vs ws

end Value

/-! ### Absorbed values -/

namespace Property

theorem isList_iff {p : Property} : p.isList = true ↔ ∃ vs, p = several vs := by
  cases p <;> simp [isList]

theorem not_isList_iff {p : Property} : p.isList = false ↔ ∃ v, p = single v := by
  cases p <;> simp [isList]

theorem isList_absorb (p : Property) (v : Value) :
    (p.absorb v).1.isList = (p.isList || (p.absorb v).2) := by
  cases p with
  | single w => cases h : w.same v <;> simp [absorb, isList, h]
  | several ws => rfl

theorem not_isList_of_absorb {p : Property} {v : Value} (h : (p.absorb v).2 = true) :
    p.isList = false := by
  cases p with
  | single w => rfl
  | several ws => exact absurd h Bool.false_ne_true

theorem isList_absorbAll (p : Property) (vs : List Value) :
    (p.absorbAll vs).1.isList = (p.isList || (p.absorbAll vs).2) := by
  induction vs generalizing p with
  | nil => exact (Bool.or_false _).symm
  | cons v vs ih =>
    show ((p.absorb v).1.absorbAll vs).1.isList =
      (p.isList || ((p.absorb v).2 || ((p.absorb v).1.absorbAll vs).2))
    rw [ih, isList_absorb, Bool.or_assoc]

theorem not_isList_of_absorbAll {p : Property} {vs : List Value} (h : (p.absorbAll vs).2 = true) :
    p.isList = false := by
  induction vs generalizing p with
  | nil => exact absurd h Bool.false_ne_true
  | cons v vs ih =>
    rcases Bool.or_eq_true_iff.1 h with hnow | hlater
    · exact not_isList_of_absorb hnow
    · -- A list that is made stays one, so none had been there before.
      have hrest : (p.absorb v).1.isList = false := ih hlater
      rw [isList_absorb] at hrest
      exact (Bool.or_eq_false_iff.1 hrest).1

/-- Values made a list of a property exactly if it was none and has become one. -/
theorem absorbAll_snd_iff {p : Property} {vs : List Value} :
    (p.absorbAll vs).2 = true ↔ p.isList = false ∧ (p.absorbAll vs).1.isList = true := by
  constructor
  · intro h
    refine ⟨not_isList_of_absorbAll h, ?_⟩
    rw [isList_absorbAll, h, Bool.or_true]
  · rintro ⟨hbefore, hafter⟩
    rwa [isList_absorbAll, hbefore, Bool.false_or] at hafter

theorem WellFormed.absorbAll {p q : Property} (hp : p.WellFormed) (hq : q.WellFormed) :
    (p.absorbAll q.values).1.WellFormed := by
  refine ⟨fun v hv => ?_, hp.normal.absorbAll q.values⟩
  rw [values_absorbAll] at hv
  exact (Value.mem_of_mem_addDistinct hv).elim (hp.1 v) (hq.1 v)

end Property

/-! ### Merged maps -/

namespace Properties

/-- A map in normal form is told by its keys and by the values under each. -/
theorem ext_of_valuesAt {m n : Properties} (hm : m.Normal) (hn : n.Normal)
    (hkeys : m.keys = n.keys) (hvalues : ∀ key, m.valuesAt key = n.valuesAt key) : m = n := by
  refine OrderedMap.eq_of_get?_eq hkeys fun key => ?_
  rw [get?_eq_ofDistinct? hm, get?_eq_ofDistinct? hn, hvalues]

theorem normal_empty : Normal (.empty : Properties) := fun _ he => absurd he List.not_mem_nil

theorem merge_empty (m : Properties) : m.merge .empty = m := rfl

theorem empty_merge {m : Properties} (hm : m.Normal) : Properties.merge .empty m = m := by
  refine ext_of_valuesAt (normal_empty.merge hm) hm ?_ fun key => ?_
  · rw [keys_merge]
    show appendNew [] m.keys = [] ++ m.keys
    exact appendNew_eq_append m.nodup
  · rw [valuesAt_merge .empty hm]
    show Value.addDistinct [] (m.valuesAt key) = [] ++ m.valuesAt key
    exact Value.addDistinct_eq_append (hm.distinct key)

/-- **Merging is associative.** -/
theorem merge_assoc {a b c : Properties} (ha : a.Normal) (hb : b.Normal) (hc : c.Normal) :
    (a.merge b).merge c = a.merge (b.merge c) := by
  have hbc : (b.merge c).Normal := hb.merge hc
  refine ext_of_valuesAt ((ha.merge hb).merge hc) (ha.merge hbc) ?_ fun key => ?_
  · rw [keys_merge, keys_merge, keys_merge, keys_merge, appendNew_appendNew]
  · rw [valuesAt_merge _ hc, valuesAt_merge _ hb, valuesAt_merge _ hbc, valuesAt_merge _ hc,
      Value.addDistinct_addDistinct]

theorem WellFormed.merge {m n : Properties} (hm : m.WellFormed) (hn : n.WellFormed) :
    (m.merge n).WellFormed :=
  forall_mem_merge (fun _ _ hp hq => hp.absorbAll hq) hm hn

/-- A map merged with itself stays: here every number must be one. -/
theorem merge_self {m : Properties} (hm : m.WellFormed) : m.merge m = m := by
  refine ext_of_valuesAt (hm.normal.merge hm.normal) hm.normal ?_ fun key => ?_
  · rw [keys_merge, appendNew_of_subset (List.Subset.refl _)]
  · rw [valuesAt_merge m hm.normal]
    exact Value.addDistinct_of_forall_isIn fun v hv =>
      Value.isIn_eq_true_iff.2 ⟨v, hv, hm.same_self hv⟩

theorem merge_merge_self {a b : Properties} (ha : a.WellFormed) (hb : b.WellFormed) :
    (a.merge b).merge b = a.merge b := by
  rw [merge_assoc ha.normal hb.normal hb.normal, merge_self hb]

/-- Under a key of both maps the old property has absorbed the incoming values;
under a key of one of them its property stays as it was. -/
theorem get?_merge {a b : Properties} (ha : a.Normal) (hb : b.Normal) (key : String) :
    (a.merge b).get? key =
      match a.get? key, b.get? key with
      | none, incoming => incoming
      | some old, none => some old
      | some old, some incoming => some (old.absorbAll incoming.values).1 := by
  have htold := get?_eq_ofDistinct? (ha.merge hb) key
  rw [valuesAt_merge a hb, valuesAt, valuesAt] at htold
  rw [htold]
  cases hold : a.get? key with
  | none =>
    cases hincoming : b.get? key with
    | none => rfl
    | some q =>
      have hq : q.Normal := hb.get? hincoming
      have hkept : Value.addDistinct [] q.values = q.values :=
        Value.addDistinct_eq_append hq.distinct
      exact (congrArg Property.ofDistinct? hkept).trans (Property.ofDistinct?_values hq)
  | some p =>
    have hp : p.Normal := ha.get? hold
    cases hincoming : b.get? key with
    | none => exact Property.ofDistinct?_values hp
    | some q =>
      show Property.ofDistinct? (Value.addDistinct p.values q.values) = _
      rw [← Property.values_absorbAll]
      exact Property.ofDistinct?_values (hp.absorbAll q.values)

/-! ### The report -/

theorem promotions_sublist (a b : Properties) : (a.promotions b).Sublist b.keys :=
  List.filter_sublist.map _

theorem nodup_promotions (a b : Properties) : (a.promotions b).Nodup :=
  (promotions_sublist a b).nodup b.nodup

/-- A key is reported if the incoming values make a list of the property under it. -/
theorem mem_promotions_iff_absorbAll {a b : Properties} {key : String} :
    key ∈ a.promotions b ↔
      ∃ old incoming, a.get? key = some old ∧ b.get? key = some incoming ∧
        (old.absorbAll incoming.values).2 = true := by
  rw [promotions, List.mem_map]
  constructor
  · rintro ⟨e, he, rfl⟩
    obtain ⟨hmem, hany⟩ := List.mem_filter.1 he
    obtain ⟨old, hold, hlist⟩ := (Option.any_eq_true _ _).1 hany
    exact ⟨old, e.2, hold, OrderedMap.get?_eq_some_iff.2 hmem, hlist⟩
  · rintro ⟨old, incoming, hold, hincoming, hlist⟩
    refine ⟨(key, incoming), List.mem_filter.2 ⟨OrderedMap.get?_eq_some_iff.1 hincoming, ?_⟩, rfl⟩
    rw [hold]
    exact hlist

/-- A key is reported exactly if a single value was under it and a list is now. -/
theorem mem_promotions_iff {a b : Properties} (ha : a.Normal) (hb : b.Normal) {key : String} :
    key ∈ a.promotions b ↔
      (∃ v, a.get? key = some (.single v)) ∧ ∃ vs, (a.merge b).get? key = some (.several vs) := by
  rw [mem_promotions_iff_absorbAll, get?_merge ha hb]
  constructor
  · rintro ⟨old, incoming, hold, hincoming, hlist⟩
    obtain ⟨hbefore, hafter⟩ := Property.absorbAll_snd_iff.1 hlist
    obtain ⟨v, rfl⟩ := Property.not_isList_iff.1 hbefore
    obtain ⟨vs, hvs⟩ := Property.isList_iff.1 hafter
    rw [hold, hincoming]
    exact ⟨⟨v, rfl⟩, vs, congrArg some hvs⟩
  · rintro ⟨⟨v, hv⟩, vs, hvs⟩
    rw [hv] at hvs
    cases hincoming : b.get? key with
    | none =>
      rw [hincoming] at hvs
      cases hvs
    | some incoming =>
      rw [hincoming] at hvs
      have hlist := Property.isList_iff.2 ⟨vs, Option.some.inj hvs⟩
      exact ⟨.single v, incoming, hv, rfl, Property.absorbAll_snd_iff.2 ⟨rfl, hlist⟩⟩

/-- The map and the report after one more incoming property: what becomes of it
is decided by the map as it then is. -/
def mergeStep (state : Properties × List String) (e : String × Property) :
    Properties × List String :=
  (state.1.mergeEntry e.1 e.2,
    if (state.1.get? e.1).any fun old => (old.absorbAll e.2.values).2 then state.2 ++ [e.1]
    else state.2)

theorem get?_mergeEntry_of_ne {m : Properties} {key other : String} (h : other ≠ key)
    (p : Property) : (m.mergeEntry key p).get? other = m.get? other := by
  rw [mergeEntry]
  split <;> exact (OrderedMap.get?_insert _ _ _ _).trans (if_neg h)

/-- Properties with a key each that has not come before are reported by what the map
held when the first of them came. -/
theorem foldl_mergeStep_of_nodup {entries : List (String × Property)}
    (h : (entries.map Prod.fst).Nodup) (m : Properties) (reported : List String) :
    entries.foldl mergeStep (m, reported) =
      (entries.foldl (fun m e => m.mergeEntry e.1 e.2) m,
        reported ++ (entries.filter fun e =>
          (m.get? e.1).any fun old => (old.absorbAll e.2.values).2).map Prod.fst) := by
  induction entries generalizing m reported with
  | nil => exact congrArg _ (List.append_nil reported).symm
  | cons e entries ih =>
    obtain ⟨hnew, hrest⟩ := List.nodup_cons.1 h
    have hlater : entries.filter (fun e' =>
          ((m.mergeEntry e.1 e.2).get? e'.1).any fun old => (old.absorbAll e'.2.values).2) =
        entries.filter fun e' => (m.get? e'.1).any fun old => (old.absorbAll e'.2.values).2 := by
      refine List.filter_congr fun e' he' => ?_
      have hother : e'.1 ≠ e.1 := fun h => hnew (h ▸ List.mem_map_of_mem he')
      rw [get?_mergeEntry_of_ne hother]
    rw [List.foldl_cons, mergeStep, ih hrest, hlater, List.filter_cons, List.foldl_cons]
    split
    · rw [List.map_cons, List.append_assoc]
      rfl
    · rfl

/-- One pass gives the merged map and the report, since no key comes twice. -/
theorem foldl_mergeStep (a b : Properties) :
    b.entries.foldl mergeStep (a, []) = (a.merge b, a.promotions b) :=
  foldl_mergeStep_of_nodup b.nodup a []

/-- **Merging is an idempotent monoid of well-formed maps, and it reports what it
made lists of.**  Maps merge associatively, the empty map does nothing, and a map
that is merged in a second time changes nothing and reports nothing.  The merged
map is well-formed.  One pass gives it together with the report, which has the
keys of the incoming map in their order: just those under which a single value
was and a list is now. -/
theorem merge_laws {a b c : Properties} (ha : a.WellFormed) (hb : b.WellFormed)
    (hc : c.WellFormed) :
    (a.merge b).merge c = a.merge (b.merge c) ∧
      a.merge .empty = a ∧ Properties.merge .empty a = a ∧
      (a.merge b).merge b = a.merge b ∧ (a.merge b).promotions b = [] ∧
      (a.merge b).WellFormed ∧
      b.entries.foldl mergeStep (a, []) = (a.merge b, a.promotions b) ∧
      (a.promotions b).Sublist b.keys ∧ (a.promotions b).Nodup ∧
      ∀ key, key ∈ a.promotions b ↔
        (∃ v, a.get? key = some (.single v)) ∧
          ∃ vs, (a.merge b).get? key = some (.several vs) := by
  have hagain : (a.merge b).merge b = a.merge b := merge_merge_self ha hb
  have hsilent : (a.merge b).promotions b = [] := by
    refine List.eq_nil_iff_forall_not_mem.2 fun key hkey => ?_
    obtain ⟨⟨v, hv⟩, vs, hvs⟩ := (mem_promotions_iff (ha.normal.merge hb.normal) hb.normal).1 hkey
    rw [hagain, hv] at hvs
    cases hvs
  exact ⟨merge_assoc ha.normal hb.normal hc.normal, merge_empty a, empty_merge ha.normal, hagain,
    hsilent, ha.merge hb, foldl_mergeStep a b, promotions_sublist a b, nodup_promotions a b,
    fun _ => mem_promotions_iff ha.normal hb.normal⟩

/-- Two lines are added to the single one, of which the report tells once, and a
second map brings one of them again with a name. -/
theorem merge_laws_lines :
    let a : Properties := .ofList [("line", .single (.integer 1)), ("kind", .single (.text "tag"))]
    let b : Properties := .ofList
      [("seen", .single (.boolean true)), ("line", .several [.integer 1, .text "1", .integer 5])]
    let c : Properties := .ofList
      [("name", .single (.text "alpha")), ("line", .several [.integer 7, .text "1"])]
    (a.WellFormed ∧ b.WellFormed ∧ c.WellFormed) ∧
      ((a.merge b).merge c = a.merge (b.merge c) ∧ (a.merge b).merge b = a.merge b) ∧
      ((a.merge b).merge c).entries =
        [("line", .several [.integer 1, .text "1", .integer 5, .integer 7]),
          ("kind", .single (.text "tag")), ("seen", .single (.boolean true)),
          ("name", .single (.text "alpha"))] ∧
      a.promotions b = ["line"] := by
  intro a b c
  have hwell : a.WellFormed ∧ b.WellFormed ∧ c.WellFormed := by decide +kernel
  obtain ⟨hassoc, -, -, hagain, -⟩ := merge_laws hwell.1 hwell.2.1 hwell.2.2
  exact ⟨hwell, ⟨hassoc, hagain⟩, by decide +kernel, by decide +kernel⟩

end Properties

end PropertyGraph
