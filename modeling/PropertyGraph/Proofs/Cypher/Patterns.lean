/-
The text of a query tells the query.

Each part of a query ends with a sign that no name and no number goes on with,
and so the text of a query can be taken apart from the front.  That leaves out
floats, and queries that choose what to return, as these are not quoted.

* **`unambiguous_nodePattern`**, **`unambiguous_relationPattern`**,
  **`unambiguous_fragment`** — what is matched;
* **`unambiguous_condition`** — what it must have;
* **`Query.text_inj`** — the query.
-/
import PropertyGraph.Cypher.Query
import PropertyGraph.Proofs.Cypher.Compiling
import PropertyGraph.Proofs.Cypher.Unambiguous

namespace PropertyGraph.Cypher

/-! ### Patterns -/

/-- The labels of a node pattern in a query. -/
def labelsText (labels : List String) : String :=
  String.join (labels.map fun l => ":" ++ quoteName l)

/-- A property in place. -/
def entryText (e : String × Property) : String := quoteName e.1 ++ ":" ++ propertyText e.2

/-- The properties of a node pattern in a query. -/
def propertiesText (properties : List (String × Property)) : String :=
  if properties.isEmpty then ""
  else " \x7b" ++ ", ".intercalate (properties.map entryText) ++ "\x7d"

/-- The type of a relationship pattern in a query. -/
def typeText (type : Option String) : String := type.elim "" fun t => ":" ++ quoteName t

theorem toList_nodePattern (p : NodePattern) (s : List Char) :
    p.text.toList ++ s = '(' :: ((quoteName p.name).toList ++ ((labelsText p.labels).toList ++
      ((propertiesText p.properties).toList ++ ')' :: s))) := by
  show ("(" ++ quoteName p.name ++ labelsText p.labels ++ propertiesText p.properties ++
    ")").toList ++ s = _
  simp

theorem toList_relationPattern (p : RelationPattern) (s : List Char) :
    p.text.toList ++ s = '-' :: '[' :: ((quoteName p.name).toList ++ ((typeText p.type).toList ++
      ']' :: '-' :: ((if p.directed then ['>'] else []) ++ s))) := by
  show ("-[" ++ quoteName p.name ++ typeText p.type ++
    if p.directed then "]->" else "]-").toList ++ s = _
  cases p.directed <;> simp

theorem toList_labelsText_cons (label : String) (labels : List String) (s : List Char) :
    (labelsText (label :: labels)).toList ++ s =
      ':' :: ((quoteName label).toList ++ ((labelsText labels).toList ++ s)) := by
  rw [labelsText, toList_join_cons]
  simp [labelsText]

theorem toList_propertiesText_cons (e : String × Property) (es : List (String × Property))
    (s : List Char) : (propertiesText (e :: es)).toList ++ s = ' ' :: '\x7b' ::
      ((", ".intercalate ((e :: es).map entryText)).toList ++ '\x7d' :: s) := by
  rw [propertiesText, List.isEmpty_cons, if_neg Bool.false_ne_true]
  simp

theorem toList_typeText_some (type : String) (s : List Char) :
    (typeText (some type)).toList ++ s = ':' :: ((quoteName type).toList ++ s) := by
  simp [typeText]

theorem unambiguous_labelsText :
    Unambiguous (fun labels => ∀ l ∈ labels, True) labelsText
      (fun s => Begins ' ' s ∨ Begins ')' s) := by
  refine (unambiguous_quoteName.behind ":").join ?_ ?_
  · intro l _ s c hc
    obtain rfl : ':' = c := by simpa using hc
    decide
  · rintro s (hs | hs)
    all_goals
      refine ⟨hs.endsName (by decide), ?_⟩
      rintro l - t rfl
      exact absurd hs (by simp [Begins])

theorem unambiguous_entryText : Unambiguous (fun e => e.2.floats = []) entryText EndsNumber := by
  have hcolon : ∀ (e : String × Property) (s : List Char), (entryText e).toList ++ s =
      (quoteName e.1).toList ++ ':' :: ((propertyText e.2).toList ++ s) := by
    intro e s
    simp [entryText]
  rintro ⟨k, p⟩ ⟨k', p'⟩ s t hp hp' hs ht heq
  rw [hcolon, hcolon] at heq
  have hbegins : ∀ r, EndsName (':' :: r) := fun r => Begins.endsName rfl (by decide)
  obtain ⟨rfl, hrest⟩ := unambiguous_quoteName trivial trivial (hbegins _) (hbegins _) heq
  obtain ⟨rfl, rfl⟩ := unambiguous_propertyText hp hp' hs ht (List.cons.inj hrest).2
  exact ⟨rfl, rfl⟩

theorem unambiguous_propertiesText :
    Unambiguous (fun entries => ∀ e ∈ entries, e.2.floats = []) propertiesText (Begins ')') := by
  have hlist : Unambiguous (fun l : List (String × Property) => ∀ e ∈ l, e.2.floats = [])
      (fun l => ", ".intercalate (l.map entryText)) (Begins '\x7d') := by
    refine unambiguous_entryText.intercalate ?_ ?_
    · exact fun s => Begins.endsNumber (c := ',') rfl (by decide)
    · intro s hs
      refine ⟨hs.endsNumber (by decide), ?_, ?_⟩
      · rintro e - t rfl
        obtain ⟨c, r, hcons, hc⟩ := exists_cons_quoteName e.1
        obtain rfl : c = '\x7d' := by simpa [Begins, entryText, hcons] using hs
        exact absurd hc (by decide)
      · rintro ⟨t, rfl⟩
        exact absurd (Option.some.inj hs) (by decide)
  refine (hlist.between " \x7b" "\x7d" fun _ => rfl).orEmpty ?_
  rintro s hs l - t rfl
  rw [String.toList_append, String.toList_append] at hs
  exact absurd (Option.some.inj hs) (by decide)

/-- A node pattern none of whose properties holds a float. -/
def NodePattern.FloatFree (p : NodePattern) : Prop := ∀ e ∈ p.properties, e.2.floats = []

theorem unambiguous_nodePattern :
    Unambiguous NodePattern.FloatFree NodePattern.text (fun _ => True) := by
  intro p q s t hp hq _ _ heq
  rw [toList_nodePattern, toList_nodePattern] at heq
  -- The properties begin with a blank, and the bracket follows where there are none.
  have hprops : ∀ (l : List (String × Property)) (r : List Char),
      Begins ' ' ((propertiesText l).toList ++ ')' :: r) ∨
        Begins ')' ((propertiesText l).toList ++ ')' :: r) := by
    intro l r
    cases l with
    | nil => exact .inr rfl
    | cons e l =>
      rw [toList_propertiesText_cons]
      exact .inl rfl
  have hlabels : ∀ (labels : List String) (l : List (String × Property)) (r : List Char),
      EndsName ((labelsText labels).toList ++ ((propertiesText l).toList ++ ')' :: r)) := by
    intro labels l r
    cases labels with
    | nil =>
      obtain h | h := hprops l r
      · exact Begins.endsName h (by decide)
      · exact Begins.endsName h (by decide)
    | cons label labels =>
      rw [toList_labelsText_cons]
      exact Begins.endsName rfl (by decide)
  obtain ⟨name, labels, properties⟩ := p
  obtain ⟨name', labels', properties'⟩ := q
  obtain ⟨rfl, h⟩ := unambiguous_quoteName trivial trivial (hlabels _ _ _) (hlabels _ _ _)
    (List.cons.inj heq).2
  obtain ⟨rfl, h'⟩ := unambiguous_labelsText (fun _ _ => trivial) (fun _ _ => trivial)
    (hprops _ _) (hprops _ _) h
  obtain ⟨rfl, hrest⟩ := unambiguous_propertiesText (s := ')' :: s) (t := ')' :: t)
    hp hq rfl rfl h'
  exact ⟨rfl, (List.cons.inj hrest).2⟩

theorem unambiguous_typeText :
    Unambiguous (fun type => ∀ t ∈ type, True) typeText (Begins ']') := by
  have htype : Unambiguous (fun _ => True) (fun t => ":" ++ quoteName t) (Begins ']') :=
    (unambiguous_quoteName.behind ":").mono fun _ hs => hs.endsName (by decide)
  refine htype.option ?_
  rintro s hs t - r rfl
  rw [String.toList_append] at hs
  exact absurd (Option.some.inj hs) (by decide)

theorem unambiguous_relationPattern :
    Unambiguous (fun _ => True) RelationPattern.text (Begins '(') := by
  intro p q s t _ _ hs ht heq
  rw [toList_relationPattern, toList_relationPattern] at heq
  -- The name ends at the colon of a type, or at the bracket where there is none.
  have htype : ∀ (type : Option String) (r : List Char),
      EndsName ((typeText type).toList ++ ']' :: r) := by
    intro type r
    cases type with
    | none => exact Begins.endsName (c := ']') rfl (by decide)
    | some type =>
      rw [toList_typeText_some]
      exact Begins.endsName rfl (by decide)
  obtain ⟨name, type, directed⟩ := p
  obtain ⟨name', type', directed'⟩ := q
  obtain ⟨rfl, hbehind⟩ := unambiguous_quoteName trivial trivial (htype _ _) (htype _ _)
    (List.cons.inj (List.cons.inj heq).2).2
  obtain ⟨rfl, hclose⟩ := unambiguous_typeText (s := ']' :: _) (t := ']' :: _)
    (fun _ _ => trivial) (fun _ _ => trivial) rfl rfl hbehind
  have harrow := (List.cons.inj (List.cons.inj hclose).2).2
  -- Were one of them an arrow and the other not, a node pattern would begin with its head.
  cases directed with
  | true =>
    cases directed' with
    | true => exact ⟨rfl, (List.cons.inj harrow).2⟩
    | false =>
      obtain rfl : _ = t := harrow
      exact absurd (Option.some.inj ht) (by decide)
  | false =>
    cases directed' with
    | true =>
      obtain rfl : s = _ := harrow
      exact absurd (Option.some.inj hs) (by decide)
    | false => exact ⟨rfl, harrow⟩

/-- A fragment none of whose properties holds a float. -/
def Fragment.FloatFree (f : Fragment) : Prop := ∀ p ∈ f.nodes, p.FloatFree

theorem Fragment.floatFree_path {source target : NodePattern} {relation : RelationPattern} :
    (path source relation target).FloatFree ↔ source.FloatFree ∧ target.FloatFree := by
  simp [Fragment.FloatFree, Fragment.nodes]

theorem toList_path (source target : NodePattern) (relation : RelationPattern) (s : List Char) :
    (Fragment.path source relation target).text.toList ++ s =
      source.text.toList ++ (relation.text.toList ++ (target.text.toList ++ s)) := by
  simp [Fragment.text]

theorem begins_nodePattern (p : NodePattern) (s : List Char) :
    Begins '(' (p.text.toList ++ s) := by
  rw [toList_nodePattern]
  rfl

theorem begins_fragment (f : Fragment) (s : List Char) : Begins '(' (f.text.toList ++ s) := by
  cases f with
  | path source relation target =>
    rw [toList_path]
    exact begins_nodePattern _ _
  | node p => exact begins_nodePattern p s

theorem unambiguous_fragment :
    Unambiguous Fragment.FloatFree Fragment.text (fun s => ¬Begins '-' s) := by
  have hnode : ∀ p : NodePattern, (Fragment.node p).text = p.text := fun _ => rfl
  -- Behind the first node pattern, a path goes on with a dash.
  have hdash : ∀ (r : RelationPattern) (s : List Char), Begins '-' (r.text.toList ++ s) := by
    intro r s
    rw [toList_relationPattern]
    rfl
  intro f f' s t hf hf' hs ht heq
  cases f with
  | path source relation target =>
    obtain ⟨hsource, htarget⟩ := Fragment.floatFree_path.1 hf
    cases f' with
    | path source' relation' target' =>
      obtain ⟨hsource', htarget'⟩ := Fragment.floatFree_path.1 hf'
      rw [toList_path, toList_path] at heq
      obtain ⟨rfl, hrest⟩ := unambiguous_nodePattern hsource hsource' trivial trivial heq
      obtain ⟨rfl, hfinish⟩ := unambiguous_relationPattern trivial trivial
        (begins_nodePattern _ _) (begins_nodePattern _ _) hrest
      obtain ⟨rfl, rfl⟩ := unambiguous_nodePattern htarget htarget' trivial trivial hfinish
      exact ⟨rfl, rfl⟩
    | node p =>
      rw [toList_path, hnode] at heq
      obtain ⟨rfl, rfl⟩ := unambiguous_nodePattern hsource (hf' p List.mem_cons_self) trivial
        trivial heq
      exact absurd (hdash _ _) ht
  | node p =>
    have hp := hf p List.mem_cons_self
    cases f' with
    | path source' relation' target' =>
      rw [hnode, toList_path] at heq
      obtain ⟨rfl, rfl⟩ := unambiguous_nodePattern hp (Fragment.floatFree_path.1 hf').1 trivial
        trivial heq
      exact absurd (hdash _ _) hs
    | node p' =>
      rw [hnode, hnode] at heq
      obtain ⟨rfl, rfl⟩ := unambiguous_nodePattern hp (hf' p' List.mem_cons_self) trivial trivial
        heq
      exact ⟨rfl, rfl⟩

theorem unambiguous_fragments :
    Unambiguous (fun fs : List Fragment => ∀ f ∈ fs, f.FloatFree)
      (fun fs => ", ".intercalate (fs.map Fragment.text)) (Begins ' ') := by
  refine unambiguous_fragment.intercalate ?_ ?_
  · intro s h
    exact absurd (Option.some.inj h) (by decide)
  · intro s hs
    refine ⟨fun h => absurd (hs.symm.trans h) (by decide), ?_, ?_⟩
    · rintro f - t rfl
      exact absurd (hs.symm.trans (begins_fragment f t)) (by decide)
    · rintro ⟨t, rfl⟩
      exact absurd (Option.some.inj hs) (by decide)

/-! ### Queries -/

theorem toList_condition (c : Condition) (s : List Char) :
    c.text.toList ++ s = (quoteName c.name).toList ++ '.' :: ((quoteName c.key).toList ++
      ' ' :: '=' :: ' ' :: ((propertyText c.property).toList ++ s)) := by
  simp [Condition.text]

/-- The text of a condition tells its variable and its key, and then its property. -/
theorem of_condition_text_eq {c c' : Condition} {s t : List Char}
    (h : c.text.toList ++ s = c'.text.toList ++ t) : c.name = c'.name ∧ c.key = c'.key ∧
      (propertyText c.property).toList ++ s = (propertyText c'.property).toList ++ t := by
  have hdot : ∀ r, EndsName ('.' :: r) := fun r => Begins.endsName rfl (by decide)
  have hblank : ∀ r, EndsName (' ' :: r) := fun r => Begins.endsName rfl (by decide)
  rw [toList_condition, toList_condition] at h
  obtain ⟨hname, hbehind⟩ := unambiguous_quoteName trivial trivial (hdot _) (hdot _) h
  obtain ⟨hkey, hequals⟩ := unambiguous_quoteName trivial trivial (hblank _) (hblank _)
    (List.cons.inj hbehind).2
  exact ⟨hname, hkey, (List.cons.inj (List.cons.inj (List.cons.inj hequals).2).2).2⟩

theorem unambiguous_condition :
    Unambiguous (fun c => c.property.floats = []) Condition.text EndsNumber := by
  rintro ⟨name, key, p⟩ ⟨name', key', p'⟩ s t hp hp' hs ht heq
  obtain ⟨rfl, rfl, hproperty⟩ := of_condition_text_eq heq
  obtain ⟨rfl, rfl⟩ := unambiguous_propertyText hp hp' hs ht hproperty
  exact ⟨rfl, rfl⟩

/-- The conditions of a query with the keyword in front of them. -/
def conditionsText (conditions : List Condition) : String :=
  if conditions.isEmpty then ""
  else " WHERE " ++ " AND ".intercalate (conditions.map Condition.text)

theorem unambiguous_conditionsText :
    Unambiguous (fun cs => ∀ c ∈ cs, c.property.floats = []) conditionsText
      (· = " RETURN *".toList) := by
  have hlist : Unambiguous (fun cs : List Condition => ∀ c ∈ cs, c.property.floats = [])
      (fun cs => " AND ".intercalate (cs.map Condition.text)) (· = " RETURN *".toList) := by
    refine unambiguous_condition.intercalate ?_ ?_
    · exact fun s => Begins.endsNumber (c := ' ') rfl (by decide)
    · rintro s rfl
      refine ⟨Begins.endsNumber (c := ' ') rfl (by decide), ?_, by decide⟩
      intro c _ t h
      obtain ⟨d, r, hcons, hd⟩ := exists_cons_quoteName c.name
      obtain rfl : ' ' = d := by
        simpa [Condition.text, hcons] using congrArg List.head? h
      exact absurd hd (by decide)
  refine (hlist.behind " WHERE ").orEmpty ?_
  rintro s rfl cs - t h
  rw [String.toList_append, List.append_assoc] at h
  exact absurd (List.cons.inj (List.cons.inj h).2).1 (by decide)

/-- A query none of whose properties holds a float. -/
def Query.FloatFree (q : Query) : Prop :=
  (∀ f ∈ q.fragments, f.FloatFree) ∧ ∀ c ∈ q.conditions, c.property.floats = []

/-- No text in a query is read as a part of its pattern: without floats, the text
of a query that returns everything tells its fragments and its conditions. -/
theorem Query.text_inj {q q' : Query} (hq : q.FloatFree) (hq' : q'.FloatFree)
    (hreturns : q.returns = []) (hreturns' : q'.returns = []) (heq : q.text = q'.text) :
    q = q' := by
  have htext : ∀ {q : Query}, q.returns = [] → q.text.toList =
      "MATCH ".toList ++ ((", ".intercalate (q.fragments.map Fragment.text)).toList ++
        ((conditionsText q.conditions).toList ++ " RETURN *".toList)) := by
    intro q hreturns
    rw [Query.text, hreturns]
    simp [conditionsText]
  -- The fragments end at a blank, whether conditions follow them or not.
  have hblank : ∀ conditions, Begins ' ' ((conditionsText conditions).toList ++
      " RETURN *".toList) := by
    intro conditions
    cases conditions with
    | nil => rfl
    | cons c cs =>
      rw [conditionsText, List.isEmpty_cons, if_neg Bool.false_ne_true, String.toList_append]
      rfl
  have hlists := congrArg String.toList heq
  rw [htext hreturns, htext hreturns'] at hlists
  obtain ⟨hf, h⟩ := unambiguous_fragments hq.1 hq'.1 (hblank _) (hblank _)
    (List.append_cancel_left hlists)
  obtain ⟨hc, -⟩ := unambiguous_conditionsText hq.2 hq'.2 rfl rfl h
  cases q
  cases q'
  cases hf
  cases hc
  cases hreturns
  cases hreturns'
  rfl

end PropertyGraph.Cypher
