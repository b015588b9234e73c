/-
What properties hold after a merge.

The merge rule loses no value and makes none up, as far as values are told
apart by `Value.same`.  This is said of every condition on values that does not
tell the same values apart:

* **`values_absorbAll`** — what a property holds after values are folded in;
* **`exists_valuesAt_merge`** — a merged map holds a value of some kind under a
  key exactly if one of the two maps does;
* **`Properties.Additive`** — the conditions on maps that merging hands on.
-/
import Mathlib.Data.List.Basic
import PropertyGraph.Property.Map

namespace PropertyGraph

/-- A condition on values that does not tell the same values apart. -/
def Value.Respected (P : Value → Prop) : Prop := ∀ v w, v.same w = true → (P v ↔ P w)

theorem Value.respected_same (v : Value) : Respected fun w => w.same v = true := fun w u hwu =>
  ⟨same_trans (same_comm w u ▸ hwu), same_trans hwu⟩

/-- Being a number that is none is a matter of the value. -/
theorem Value.respected_not_same_self : Respected fun v => ¬v.same v = true := fun v w hvw =>
  iff_of_false (fun h => h (same_trans hvw (same_comm v w ▸ hvw)))
    fun h => h (same_trans (same_comm v w ▸ hvw) hvw)

/-- Every value of either list is the same as one of the other. -/
def Value.Agree (vs ws : List Value) : Prop :=
  (∀ v ∈ vs, ∃ w ∈ ws, w.same v = true) ∧ ∀ w ∈ ws, ∃ v ∈ vs, v.same w = true

/-- Lists that meet the same conditions agree, unless a number is none. -/
theorem Value.agree_of_forall_respected {vs ws : List Value}
    (h : ∀ P, Respected P → ((∃ v ∈ vs, P v) ↔ ∃ w ∈ ws, P w))
    (hws : ∀ w ∈ ws, w.same w = true) : Agree vs ws := by
  have hvs : ∀ v ∈ vs, v.same v = true := by
    by_contra hnot
    push Not at hnot
    obtain ⟨w, hw, hself⟩ := (h _ respected_not_same_self).1 hnot
    exact hself (hws w hw)
  exact ⟨fun v hv => (h _ (respected_same v)).1 ⟨v, hv, hvs v hv⟩,
    fun w hw => (h _ (respected_same w)).2 ⟨w, hw, hws w hw⟩⟩

theorem Value.addDistinct_cons (seen : List Value) (v : Value) (vs : List Value) :
    addDistinct seen (v :: vs) =
      addDistinct (if v.isIn seen then seen else seen ++ [v]) vs := rfl

theorem Value.exists_addDistinct {P : Value → Prop} (hP : Respected P) {seen vs : List Value} :
    (∃ v ∈ addDistinct seen vs, P v) ↔ (∃ v ∈ seen, P v) ∨ ∃ v ∈ vs, P v := by
  induction vs generalizing seen with
  | nil => simp [addDistinct]
  | cons v vs ih =>
    rw [addDistinct_cons, ih, List.exists_mem_cons_iff, ← or_assoc]
    refine or_congr_left ?_
    split
    · next hin =>
      -- The value is dropped for one that is the same.
      obtain ⟨w, hw, hwv⟩ := isIn_eq_true_iff.1 hin
      exact ⟨.inl, fun h => h.elim id fun hv => ⟨w, hw, (hP w v hwv).2 hv⟩⟩
    · simp only [List.mem_append, List.mem_singleton, or_and_right, exists_or, exists_eq_left]

namespace Property

theorem values_absorb (p : Property) (v : Value) :
    (p.absorb v).1.values = if v.isIn p.values then p.values else p.values ++ [v] := by
  cases p with
  | single w =>
    by_cases h : w.same v = true <;> simp [absorb, values, Value.isIn, h]
  | several ws => rfl

theorem values_absorbAll (p : Property) (vs : List Value) :
    (p.absorbAll vs).1.values = Value.addDistinct p.values vs := by
  induction vs generalizing p with
  | nil => rfl
  | cons v vs ih =>
    have hcons : (p.absorbAll (v :: vs)).1 = ((p.absorb v).1.absorbAll vs).1 := rfl
    rw [hcons, ih, values_absorb]
    rfl

/-- A single value or a list of at least two values of which no two are the
same; no value is a number that is none. -/
def WellFormed (p : Property) : Prop :=
  (∀ v ∈ p.values, v.same v = true) ∧
    (p.isList = true → 2 ≤ p.values.length ∧ p.values.Pairwise fun v w => v.same w = false)

instance (p : Property) : Decidable p.WellFormed := inferInstanceAs (Decidable (_ ∧ _))

end Property

namespace Properties

/-- The values held under a key. -/
def valuesAt (m : Properties) (key : String) : List Value :=
  ((m.get? key).map Property.values).getD []

/-- Every property is well-formed. -/
def WellFormed (m : Properties) : Prop := ∀ e ∈ m.entries, e.2.WellFormed

instance (m : Properties) : Decidable m.WellFormed := inferInstanceAs (Decidable (∀ _ ∈ _, _))

theorem WellFormed.same_self {m : Properties} (hm : m.WellFormed) {key : String} {v : Value}
    (hv : v ∈ m.valuesAt key) : v.same v = true := by
  cases hp : m.get? key with
  | none => simp [valuesAt, hp] at hv
  | some p =>
    rw [valuesAt, hp] at hv
    exact (hm (key, p) (OrderedMap.get?_eq_some_iff.1 hp)).1 v hv

theorem exists_valuesAt_mergeEntry {P : Value → Prop} (hP : Value.Respected P) (m : Properties)
    (key other : String) (p : Property) :
    (∃ v ∈ (m.mergeEntry key p).valuesAt other, P v) ↔
      (∃ v ∈ m.valuesAt other, P v) ∨ key = other ∧ ∃ v ∈ p.values, P v := by
  have hinsert : ∀ q : Property, (OrderedMap.insert m key q).get? other =
      if other = key then some q else m.get? other := fun q => OrderedMap.get?_insert m key other q
  by_cases h : other = key
  · subst h
    rw [mergeEntry]
    split
    · next hm => simp [valuesAt, hinsert, hm]
    · next old hm => simp [valuesAt, hinsert, hm, Property.values_absorbAll,
        Value.exists_addDistinct hP]
  · have hsame : (m.mergeEntry key p).valuesAt other = m.valuesAt other := by
      rw [mergeEntry]
      split <;> simp [valuesAt, hinsert, h]
    rw [hsame]
    exact ⟨.inl, fun h' => h'.elim id fun h' => absurd h'.1.symm h⟩

theorem exists_valuesAt_foldl {P : Value → Prop} (hP : Value.Respected P)
    (entries : List (String × Property)) (m : Properties) (key : String) :
    (∃ v ∈ (entries.foldl (fun m e => m.mergeEntry e.1 e.2) m).valuesAt key, P v) ↔
      (∃ v ∈ m.valuesAt key, P v) ∨ ∃ e ∈ entries, e.1 = key ∧ ∃ v ∈ e.2.values, P v := by
  induction entries generalizing m with
  | nil => simp
  | cons e entries ih =>
    rw [List.foldl_cons, ih, exists_valuesAt_mergeEntry hP, List.exists_mem_cons_iff, or_assoc]

/-- A merged map holds a value of some kind under a key exactly if one of the
two maps does. -/
theorem exists_valuesAt_merge {P : Value → Prop} (hP : Value.Respected P) (m n : Properties)
    (key : String) :
    (∃ v ∈ (m.merge n).valuesAt key, P v) ↔
      (∃ v ∈ m.valuesAt key, P v) ∨ ∃ v ∈ n.valuesAt key, P v := by
  rw [merge, exists_valuesAt_foldl hP]
  refine or_congr_right ?_
  constructor
  · rintro ⟨e, he, rfl, v, hv, hPv⟩
    rw [valuesAt, OrderedMap.get?_eq_some_iff.2 he]
    exact ⟨v, hv, hPv⟩
  · rintro ⟨v, hv, hPv⟩
    cases hp : n.get? key with
    | none => simp [valuesAt, hp] at hv
    | some p =>
      rw [valuesAt, hp] at hv
      exact ⟨(key, p), OrderedMap.get?_eq_some_iff.1 hp, rfl, v, hv, hPv⟩

/-- A condition that a merged map meets exactly if one of the two maps does. -/
def Additive (P : Properties → Prop) : Prop := ∀ m n : Properties, P (m.merge n) ↔ P m ∨ P n

theorem additive_true : Additive fun _ => True := fun _ _ => (or_true True).symm ▸ Iff.rfl

theorem additive_exists_valuesAt {P : Value → Prop} (hP : Value.Respected P) (key : String) :
    Additive fun m => ∃ v ∈ m.valuesAt key, P v :=
  fun m n => exists_valuesAt_merge hP m n key

end Properties

end PropertyGraph
