/-
Properties in normal form, and what merging adds to them.

A list of values is kept only where there are two at least, no two of them the
same.  Merging keeps this, and then a property is told by its values alone.  A
map is therefore told by the order of its keys and by the values under each, and
both grow at their ends by what is new:

* **`Properties.get?_eq_ofDistinct?`** — a property is told by its values;
* **`Properties.Normal.merge`** — merged maps are in normal form;
* **`Properties.keys_merge`** — the keys that come first stay first;
* **`Properties.valuesAt_merge`** — so do the values under a key.
-/
import PropertyGraph.FirstCome
import PropertyGraph.Proofs.Property.Merging

namespace PropertyGraph

/-! ### Distinct values -/

namespace Value

/-- No two values of a list are the same. -/
def Distinct (vs : List Value) : Prop := vs.Pairwise fun v w => v.same w = false

instance (vs : List Value) : Decidable (Distinct vs) :=
  inferInstanceAs (Decidable (vs.Pairwise fun v w => v.same w = false))

theorem addDistinct_append (seen vs ws : List Value) :
    addDistinct seen (vs ++ ws) = addDistinct (addDistinct seen vs) ws :=
  List.foldl_append

theorem distinct_concat_iff {vs : List Value} {v : Value} :
    Distinct (vs ++ [v]) ↔ Distinct vs ∧ v.isIn vs = false := by
  simp [Distinct, List.pairwise_append, isIn]

theorem distinct_addDistinct {seen : List Value} (hseen : Distinct seen) (vs : List Value) :
    Distinct (addDistinct seen vs) := by
  induction vs generalizing seen with
  | nil => exact hseen
  | cons v vs ih =>
    rw [addDistinct_cons]
    split
    · exact ih hseen
    · next hnew => exact ih (distinct_concat_iff.2 ⟨hseen, Bool.not_eq_true _ ▸ hnew⟩)

/-- Values are not lost. -/
theorem length_le_addDistinct (seen vs : List Value) :
    seen.length ≤ (addDistinct seen vs).length := by
  induction vs generalizing seen with
  | nil => exact Nat.le_refl _
  | cons v vs ih =>
    rw [addDistinct_cons]
    refine Nat.le_trans ?_ (ih _)
    split
    · exact Nat.le_refl _
    · simp

theorem mem_of_mem_addDistinct {seen vs : List Value} {v : Value} (h : v ∈ addDistinct seen vs) :
    v ∈ seen ∨ v ∈ vs := by
  induction vs generalizing seen with
  | nil => exact .inl h
  | cons w vs ih =>
    rw [addDistinct_cons] at h
    rw [List.mem_cons, ← or_assoc]
    refine (ih h).imp_left fun h => ?_
    split at h
    · exact .inl h
    · rwa [List.mem_append, List.mem_singleton] at h

/-- Distinct values are all kept. -/
theorem addDistinct_eq_append {seen vs : List Value} (h : Distinct (seen ++ vs)) :
    addDistinct seen vs = seen ++ vs := by
  induction vs generalizing seen with
  | nil => exact (List.append_nil _).symm
  | cons v vs ih =>
    rw [← List.singleton_append, ← List.append_assoc] at h
    have hnew := (distinct_concat_iff.1 (List.pairwise_append.1 h).1).2
    rw [addDistinct_cons, hnew, if_neg Bool.false_ne_true, ih h, List.append_assoc]
    rfl

end Value

/-! ### One property -/

namespace Property

/-- A single value, or a list of at least two of which no two are the same. -/
def Normal (p : Property) : Prop :=
  p.isList = true → 2 ≤ p.values.length ∧ Value.Distinct p.values

instance (p : Property) : Decidable p.Normal := inferInstanceAs (Decidable (_ → _))

theorem WellFormed.normal {p : Property} (hp : p.WellFormed) : p.Normal := hp.2

theorem normal_single (v : Value) : (single v).Normal := fun h => absurd h Bool.false_ne_true

theorem Normal.distinct {p : Property} (hp : p.Normal) : Value.Distinct p.values := by
  cases p with
  | single v => exact List.pairwise_singleton _ v
  | several vs => exact (hp rfl).2

theorem values_ofDistinct? {vs : List Value} {p : Property} (h : ofDistinct? vs = some p) :
    p.values = vs := by
  rw [ofDistinct?.eq_def] at h
  split at h <;> cases h <;> rfl

theorem normal_ofDistinct? {vs : List Value} (hdistinct : Value.Distinct vs) {p : Property}
    (h : ofDistinct? vs = some p) : p.Normal := by
  rw [ofDistinct?.eq_def] at h
  split at h <;> cases h
  · exact normal_single _
  · next hnil hone =>
    refine fun _ => ⟨?_, hdistinct⟩
    rcases vs with _ | ⟨v, _ | ⟨w, vs⟩⟩
    · exact absurd rfl hnil
    · exact absurd rfl (hone v)
    · exact Nat.le_add_left 2 _

/-- A property in normal form is told by its values. -/
theorem ofDistinct?_values {p : Property} (hp : p.Normal) : ofDistinct? p.values = some p := by
  cases p with
  | single v => rfl
  | several vs =>
    have hlength : 2 ≤ vs.length := (hp rfl).1
    rcases vs with _ | ⟨v, _ | ⟨w, vs⟩⟩
    · exact absurd hlength (by decide)
    · exact absurd hlength (Nat.not_succ_le_self 1)
    · rfl

theorem Normal.absorb {p : Property} (hp : p.Normal) (v : Value) : (p.absorb v).1.Normal := by
  intro hlist
  have hvalues : (p.absorb v).1.values = Value.addDistinct p.values [v] := values_absorb p v
  refine ⟨?_, hvalues ▸ Value.distinct_addDistinct hp.distinct [v]⟩
  cases p with
  | single w =>
    -- A list is made only where the values differ.
    rw [Property.absorb] at hlist ⊢
    split at hlist
    · exact absurd hlist Bool.false_ne_true
    · next hnew => rw [if_neg hnew]; exact Nat.le_refl 2
  | several ws =>
    rw [hvalues]
    exact Nat.le_trans (hp rfl).1 (Value.length_le_addDistinct ws [v])

theorem Normal.absorbAll {p : Property} (hp : p.Normal) (vs : List Value) :
    (p.absorbAll vs).1.Normal := by
  induction vs generalizing p with
  | nil => exact hp
  | cons v vs ih => exact ih (hp.absorb v)

end Property

/-! ### Maps -/

namespace Properties

section EveryProperty

variable {P : Property → Prop} {m n : Properties}

theorem forall_mem_insert (hm : ∀ e ∈ m.entries, P e.2) (key : String) {p : Property} (hp : P p) :
    ∀ e ∈ (OrderedMap.insert m key p).entries, P e.2 := by
  intro e he
  rw [← OrderedMap.get?_eq_some_iff (k := e.1) (v := e.2), OrderedMap.get?_insert] at he
  split at he
  · exact Option.some.inj he ▸ hp
  · exact hm e (OrderedMap.get?_eq_some_iff.1 he)

theorem forall_mem_mergeEntry (habsorb : ∀ p q, P p → P q → P (p.absorbAll q.values).1)
    (hm : ∀ e ∈ m.entries, P e.2) (key : String) {p : Property} (hp : P p) :
    ∀ e ∈ (m.mergeEntry key p).entries, P e.2 := by
  rw [mergeEntry]
  split
  · exact forall_mem_insert hm key hp
  · next old hold =>
    exact forall_mem_insert hm key
      (habsorb old p (hm (key, old) (OrderedMap.get?_eq_some_iff.1 hold)) hp)

/-- What the properties of two maps have in common those of the merged map have,
if absorbing keeps it. -/
theorem forall_mem_merge (habsorb : ∀ p q, P p → P q → P (p.absorbAll q.values).1)
    (hm : ∀ e ∈ m.entries, P e.2) (hn : ∀ e ∈ n.entries, P e.2) :
    ∀ e ∈ (m.merge n).entries, P e.2 := by
  suffices hfold : ∀ entries : List (String × Property), (∀ e ∈ entries, P e.2) →
      ∀ m : Properties, (∀ e ∈ m.entries, P e.2) →
        ∀ e ∈ (entries.foldl (fun m e => mergeEntry m e.1 e.2) m).entries, P e.2 from
    hfold _ hn m hm
  intro entries
  induction entries with
  | nil => exact fun _ m hm => hm
  | cons e entries ih =>
    intro hentries m hm
    obtain ⟨he, hrest⟩ := List.forall_mem_cons.1 hentries
    exact ih hrest _ (forall_mem_mergeEntry habsorb hm e.1 he)

end EveryProperty

/-- Every property is in normal form. -/
def Normal (m : Properties) : Prop := ∀ e ∈ m.entries, e.2.Normal

instance (m : Properties) : Decidable m.Normal := inferInstanceAs (Decidable (∀ _ ∈ _, _))

theorem WellFormed.normal {m : Properties} (hm : m.WellFormed) : m.Normal := fun e he =>
  (hm e he).normal

theorem Normal.get? {m : Properties} (hm : m.Normal) {key : String} {p : Property}
    (h : OrderedMap.get? m key = some p) : p.Normal :=
  hm (key, p) (OrderedMap.get?_eq_some_iff.1 h)

theorem Normal.distinct {m : Properties} (hm : m.Normal) (key : String) :
    Value.Distinct (m.valuesAt key) := by
  rw [valuesAt]
  cases hp : OrderedMap.get? m key with
  | none => exact List.Pairwise.nil
  | some p => exact (hm.get? hp).distinct

/-- The property under a key is told by the values under it. -/
theorem get?_eq_ofDistinct? {m : Properties} (hm : m.Normal) (key : String) :
    m.get? key = Property.ofDistinct? (m.valuesAt key) := by
  rw [valuesAt]
  cases hp : m.get? key with
  | none => rfl
  | some p => exact (Property.ofDistinct?_values (hm.get? hp)).symm

/-- The key of an entry stays where it is, or comes last. -/
theorem keys_mergeEntry (m : Properties) (key : String) (p : Property) :
    (m.mergeEntry key p).keys = appendNew m.keys [key] := by
  rw [mergeEntry]
  split <;> exact OrderedMap.keys_insert _ _ _

theorem valuesAt_insert (m : Properties) (key other : String) (p : Property) :
    valuesAt (OrderedMap.insert m key p) other =
      if other = key then p.values else m.valuesAt other := by
  rw [valuesAt, OrderedMap.get?_insert]
  split
  · rfl
  · rfl

theorem valuesAt_mergeEntry (m : Properties) (key other : String) {p : Property} (hp : p.Normal) :
    (m.mergeEntry key p).valuesAt other =
      if other = key then Value.addDistinct (m.valuesAt other) p.values else m.valuesAt other := by
  by_cases hkey : other = key
  · subst hkey
    rw [if_pos rfl, mergeEntry, valuesAt.eq_def m]
    split
    · next hnone =>
      -- Under a new key all values are kept.
      have hkept : Value.addDistinct [] p.values = p.values :=
        Value.addDistinct_eq_append hp.distinct
      rw [valuesAt_insert, if_pos rfl, hnone]
      exact hkept.symm
    · next old hold =>
      rw [valuesAt_insert, if_pos rfl, Property.values_absorbAll, hold]
      rfl
  · rw [if_neg hkey, mergeEntry]
    split <;> rw [valuesAt_insert, if_neg hkey]

theorem keys_foldl_mergeEntry (entries : List (String × Property)) (m : Properties) :
    OrderedMap.keys (entries.foldl (fun m e => Properties.mergeEntry m e.1 e.2) m) =
      appendNew m.keys (entries.map Prod.fst) := by
  induction entries generalizing m with
  | nil => rfl
  | cons e entries ih =>
    rw [List.foldl_cons, ih, keys_mergeEntry, List.map_cons, appendNew_cons]
    rfl

theorem keys_merge (m n : Properties) : (m.merge n).keys = appendNew m.keys n.keys :=
  keys_foldl_mergeEntry n.entries m

theorem valuesAt_foldl_mergeEntry {entries : List (String × Property)}
    (hentries : ∀ e ∈ entries, e.2.Normal) (m : Properties) (key : String) :
    valuesAt (entries.foldl (fun m e => m.mergeEntry e.1 e.2) m) key =
      Value.addDistinct (m.valuesAt key)
        ((entries.filter fun e => e.1 = key).flatMap fun e => e.2.values) := by
  induction entries generalizing m with
  | nil => rfl
  | cons e entries ih =>
    obtain ⟨he, hrest⟩ := List.forall_mem_cons.1 hentries
    rw [List.foldl_cons, ih hrest, valuesAt_mergeEntry m e.1 key he]
    by_cases hkey : key = e.1
    · rw [if_pos hkey, List.filter_cons, if_pos (decide_eq_true hkey.symm), List.flatMap_cons,
        Value.addDistinct_append]
    · have hnot : ¬decide (e.1 = key) = true := fun h => hkey (of_decide_eq_true h).symm
      rw [if_neg hkey, List.filter_cons, if_neg hnot]

/-- The values under a key grow by those that are not among them. -/
theorem valuesAt_merge (m : Properties) {n : Properties} (hn : n.Normal) (key : String) :
    (m.merge n).valuesAt key = Value.addDistinct (m.valuesAt key) (n.valuesAt key) := by
  rw [merge, valuesAt_foldl_mergeEntry hn, OrderedMap.filter_entries, valuesAt.eq_def n]
  cases n.get? key with
  | none => rfl
  | some p => exact congrArg _ (List.append_nil p.values)

theorem Normal.merge {m n : Properties} (hm : m.Normal) (hn : n.Normal) : (m.merge n).Normal :=
  forall_mem_merge (fun _ _ hp _ => hp.absorbAll _) hm hn

end Properties

end PropertyGraph
