/-
Texts that tell what they are the text of.

A part of a query is unambiguous if its text can be read off from the front: with
whatever may follow it, the text tells the part and what follows.  Parts put next
to each other are unambiguous again, if each of them ends where the next one
cannot be taken for more of it.

* **`Unambiguous.between`**, **`Unambiguous.option`**, **`Unambiguous.join`**,
  **`Unambiguous.intercalate`** — texts made of others;
* **`unambiguous_quoteName`**, **`unambiguous_valueText`** — names and scalars,
  from what reads them back;
* **`unambiguous_propertyText`** — literals of properties.
-/
import PropertyGraph.Proofs.Cypher.Lexing
import PropertyGraph.Proofs.Record.Lines

namespace PropertyGraph.Cypher

/-- Texts that can be read off from the front, of parts that meet a condition and
before a rest that meets another. -/
def Unambiguous {α : Type} (P : α → Prop) (text : α → String) (Ends : List Char → Prop) : Prop :=
  ∀ ⦃a b : α⦄ ⦃s t : List Char⦄, P a → P b → Ends s → Ends t →
    (text a).toList ++ s = (text b).toList ++ t → a = b ∧ s = t

variable {α : Type} {P : α → Prop} {text : α → String} {Ends Ends' : List Char → Prop}

/-- A rest does not begin like a part. -/
def Apart (P : α → Prop) (text : α → String) (s : List Char) : Prop :=
  ∀ a, P a → ∀ t, s ≠ (text a).toList ++ t

/-! ### Signs around a part -/

/-- A part with the same text in front of it each time. -/
theorem Unambiguous.behind (opening : String) (h : Unambiguous P text Ends) :
    Unambiguous P (fun a => opening ++ text a) Ends := by
  intro a b s t ha hb hs ht heq
  rw [String.toList_append, String.toList_append, List.append_assoc, List.append_assoc] at heq
  exact h ha hb hs ht (List.append_cancel_left heq)

/-- A part between the same texts each time, the second of which ends it. -/
theorem Unambiguous.between (opening closing : String) (h : Unambiguous P text Ends)
    (hclose : ∀ s, Ends (closing.toList ++ s)) :
    Unambiguous P (fun a => opening ++ text a ++ closing) Ends' := by
  have hclosed : ∀ (a : α) (s : List Char), (opening ++ text a ++ closing).toList ++ s =
      (opening ++ text a).toList ++ (closing.toList ++ s) := by
    intro a s
    rw [String.toList_append, List.append_assoc]
  intro a b s t ha hb _ _ heq
  obtain ⟨rfl, hrest⟩ := h.behind opening ha hb (hclose s) (hclose t)
    ((hclosed a s).symm.trans (heq.trans (hclosed b t)))
  exact ⟨rfl, List.append_cancel_left hrest⟩

/-- A part before fewer rests. -/
theorem Unambiguous.mono (h : Unambiguous P text Ends) (hends : ∀ s, Ends' s → Ends s) :
    Unambiguous P text Ends' :=
  fun _ _ s t ha hb hs ht heq => h ha hb (hends s hs) (hends t ht) heq

/-- A part that may be missing. -/
theorem Unambiguous.option (h : Unambiguous P text Ends) (hends : ∀ s, Ends s → Apart P text s) :
    Unambiguous (fun o : Option α => ∀ a ∈ o, P a) (fun o => o.elim "" text) Ends := by
  intro o o' s t ho ho' hs ht heq
  cases o with
  | none =>
    cases o' with
    | none => exact ⟨rfl, heq⟩
    | some b => exact absurd heq (hends s hs b (ho' b rfl) t)
  | some a =>
    cases o' with
    | none => exact absurd heq.symm (hends t ht a (ho a rfl) s)
    | some b =>
      obtain ⟨rfl, rfl⟩ := h (ho a rfl) (ho' b rfl) hs ht heq
      exact ⟨rfl, rfl⟩

/-- A list that is left out if it is empty. -/
theorem Unambiguous.orEmpty {Q : List α → Prop} {lists : List α → String}
    (h : Unambiguous Q lists Ends) (hends : ∀ s, Ends s → Apart Q lists s) :
    Unambiguous Q (fun l => if l.isEmpty then "" else lists l) Ends := by
  intro l l' s t hl hl' hs ht heq
  cases l with
  | nil =>
    cases l' with
    | nil => exact ⟨rfl, heq⟩
    | cons b l' => exact absurd heq (hends s hs (b :: l') hl' t)
  | cons a l =>
    cases l' with
    | nil => exact absurd heq.symm (hends t ht (a :: l) hl s)
    | cons b l' => exact h hl hl' hs ht heq

/-! ### Lists of parts -/

theorem toList_join_cons (a : α) (l : List α) (s : List Char) :
    (String.join ((a :: l).map text)).toList ++ s =
      (text a).toList ++ ((String.join (l.map text)).toList ++ s) := by
  simp [String.toList_join]

/-- What follows a part is either another one or the rest. -/
theorem ends_join (hnext : ∀ a, P a → ∀ s, Ends ((text a).toList ++ s))
    (hends : ∀ s, Ends' s → Ends s ∧ Apart P text s) {l : List α} (hl : ∀ a ∈ l, P a)
    {s : List Char} (hs : Ends' s) : Ends ((String.join (l.map text)).toList ++ s) := by
  cases l with
  | nil => simpa using (hends s hs).1
  | cons a l =>
    rw [toList_join_cons]
    exact hnext a (hl a List.mem_cons_self) _

/-- Parts one after the other, where any of them may follow any other. -/
theorem Unambiguous.join (h : Unambiguous P text Ends)
    (hnext : ∀ a, P a → ∀ s, Ends ((text a).toList ++ s))
    (hends : ∀ s, Ends' s → Ends s ∧ Apart P text s) :
    Unambiguous (fun l : List α => ∀ a ∈ l, P a) (fun l => String.join (l.map text)) Ends' := by
  intro l
  induction l with
  | nil =>
    intro l' s t _ hl' hs ht heq
    cases l' with
    | nil => exact ⟨rfl, by simpa using heq⟩
    | cons b l' =>
      rw [toList_join_cons] at heq
      exact absurd (by simpa using heq) ((hends s hs).2 b (hl' b List.mem_cons_self) _)
  | cons a l ih =>
    intro l' s t hl hl' hs ht heq
    obtain ⟨ha, hl⟩ := List.forall_mem_cons.1 hl
    cases l' with
    | nil =>
      rw [toList_join_cons] at heq
      exact absurd (by simpa using heq.symm) ((hends t ht).2 a ha _)
    | cons b l' =>
      obtain ⟨hb, htail⟩ := List.forall_mem_cons.1 hl'
      rw [toList_join_cons, toList_join_cons] at heq
      obtain ⟨rfl, hrest⟩ := h ha hb (ends_join hnext hends hl hs)
        (ends_join hnext hends htail ht) heq
      obtain ⟨rfl, rfl⟩ := ih hl htail hs ht hrest
      exact ⟨rfl, rfl⟩

theorem toList_intercalate_cons (separator : String) (a : α) (l : List α) (s : List Char) :
    (separator.intercalate ((a :: l).map text)).toList ++ s =
      (text a).toList ++
        ((String.join (l.map fun b => separator ++ text b)).toList ++ s) := by
  induction l generalizing a with
  | nil => simp
  | cons b l ih =>
    rw [toList_join_cons, String.toList_append, List.append_assoc, ← ih b]
    simp [String.toList_intercalate]

/-- Parts with a separator between them. -/
theorem Unambiguous.intercalate {separator : String} (h : Unambiguous P text Ends)
    (hnext : ∀ s, Ends (separator.toList ++ s))
    (hends : ∀ s, Ends' s → Ends s ∧ Apart P text s ∧ ¬separator.toList <+: s) :
    Unambiguous (fun l : List α => ∀ a ∈ l, P a) (fun l => separator.intercalate (l.map text))
      Ends' := by
  have hnil : ∀ s : List Char, (separator.intercalate (([] : List α).map text)).toList ++ s = s :=
    fun s => by simp
  -- Behind the first part, each part has the separator in front of it.
  have hbegin : ∀ a, P a → ∀ s, Ends ((separator ++ text a).toList ++ s) := by
    intro a _ s
    rw [String.toList_append, List.append_assoc]
    exact hnext _
  have hrest : ∀ s, Ends' s → Ends s ∧ Apart P (fun a => separator ++ text a) s := by
    refine fun s hs => ⟨(hends s hs).1, fun a _ t heq => (hends s hs).2.2 ?_⟩
    rw [heq, String.toList_append, List.append_assoc]
    exact List.prefix_append _ _
  intro l l' s t hl hl' hs ht heq
  cases l with
  | nil =>
    cases l' with
    | nil => exact ⟨rfl, by rwa [hnil, hnil] at heq⟩
    | cons b l' =>
      rw [hnil, toList_intercalate_cons] at heq
      exact absurd heq ((hends s hs).2.1 b (hl' b List.mem_cons_self) _)
  | cons a l =>
    obtain ⟨ha, hl⟩ := List.forall_mem_cons.1 hl
    cases l' with
    | nil =>
      rw [hnil, toList_intercalate_cons] at heq
      exact absurd heq.symm ((hends t ht).2.1 a ha _)
    | cons b l' =>
      obtain ⟨hb, htail⟩ := List.forall_mem_cons.1 hl'
      rw [toList_intercalate_cons, toList_intercalate_cons] at heq
      obtain ⟨rfl, hbehind⟩ := h ha hb (ends_join hbegin hrest hl hs)
        (ends_join hbegin hrest htail ht) heq
      obtain ⟨rfl, rfl⟩ := (h.behind separator).join hbegin hrest hl htail hs ht hbehind
      exact ⟨rfl, rfl⟩

/-! ### Names and literals -/

theorem unambiguous_quoteName : Unambiguous (fun _ => True) quoteName EndsName := by
  intro a b s t _ _ hs ht heq
  have hread := congrArg readName? heq
  rw [readName?_quoteName a hs, readName?_quoteName b ht, Option.some.injEq,
    Prod.mk.injEq] at hread
  exact ⟨String.toList_inj.1 hread.1, hread.2⟩

/-- A name begins with a backquote or with one of its characters. -/
theorem exists_cons_quoteName (name : String) :
    ∃ c rest, (quoteName name).toList = c :: rest ∧ (c = '\x60' ∨ isNameChar c = true) := by
  rw [toList_quoteName, nameText]
  split
  · next hplain =>
    rw [isPlainName.eq_def] at hplain
    split at hplain
    · exact absurd hplain Bool.false_ne_true
    · next c rest hname =>
      refine ⟨c, rest, hname, .inr ?_⟩
      obtain ⟨hc, -⟩ := Bool.and_eq_true_iff.1 hplain
      rw [isNameChar, Char.isAlphanum]
      simp only [Bool.or_eq_true] at hc ⊢
      exact hc.imp_left .inl
  · exact ⟨'\x60', _, rfl, .inl rfl⟩

/-- What follows a number does not go on with it. -/
def EndsNumber (rest : List Char) : Prop := ∀ c ∈ rest.head?, c.isDigit = false

theorem toDigits_append_inj {m n : Nat} {s t : List Char} (hs : EndsNumber s) (ht : EndsNumber t)
    (heq : Nat.toDigits 10 m ++ s = Nat.toDigits 10 n ++ t) : m = n ∧ s = t := by
  obtain ⟨hdigits, hrest⟩ := Text.append_inj_of_head? (Text.all_isDigit_toDigits m)
    (Text.all_isDigit_toDigits n) hs ht heq
  have hvalue := congrArg (Text.digitsValue 0) hdigits
  rw [Text.digitsValue_toDigits, Text.digitsValue_toDigits] at hvalue
  exact ⟨hvalue, hrest⟩

theorem unambiguous_toString : Unambiguous (fun _ => True) (fun n : Int => toString n)
    EndsNumber := by
  intro m n s t _ _ hs ht heq
  -- The sign tells the negative numbers from the others.
  have hminus : ∀ (k : Nat) (r r' : List Char), '-' :: r ≠ Nat.toDigits 10 k ++ r' := by
    intro k r r' h
    obtain ⟨c, ds, hds⟩ := List.exists_cons_of_ne_nil (Nat.toDigits_ne_nil (n := k) (b := 10))
    have hc := List.all_eq_true.1 (Text.all_isDigit_toDigits k) c (hds ▸ List.mem_cons_self)
    rw [hds] at h
    obtain rfl := (List.cons.inj h).1
    exact absurd hc (by decide)
  simp only [Text.toList_toString_int] at heq
  by_cases hm : m < 0 <;> by_cases hn : n < 0
  · rw [if_pos hm, if_pos hn] at heq
    obtain ⟨habs, rfl⟩ := toDigits_append_inj hs ht (List.cons.inj heq).2
    exact ⟨by omega, rfl⟩
  · rw [if_pos hm, if_neg hn] at heq
    exact absurd heq (hminus _ _ _)
  · rw [if_neg hm, if_pos hn] at heq
    exact absurd heq.symm (hminus _ _ _)
  · rw [if_neg hm, if_neg hn] at heq
    obtain ⟨habs, rfl⟩ := toDigits_append_inj hs ht heq
    exact ⟨by omega, rfl⟩

/-- The kind of the literal that begins with a character. -/
def kindOfHead (c : Char) : String :=
  if c = '"' then "string" else if c = 't' ∨ c = 'f' then "boolean" else "integer"

/-- A literal that is no float shows its kind at once, and is no list. -/
theorem exists_cons_valueText {v : Value} (hv : v.float? = none) :
    ∃ c rest, (valueText v).toList = c :: rest ∧ kindOfHead c = v.kind ∧ c ≠ '[' ∧ c ≠ ']' := by
  cases v with
  | boolean b => cases b <;> exact ⟨_, _, rfl, by decide, by decide, by decide⟩
  | integer n =>
    obtain ⟨c, ds, hds⟩ := List.exists_cons_of_ne_nil (l := (toString n.toInt).toList) (by
      rw [Text.toList_toString_int]
      split
      · exact List.cons_ne_nil _ _
      · exact Nat.toDigits_ne_nil)
    refine ⟨c, ds, hds, ?_⟩
    obtain rfl | hdigit := Text.mem_toString_int (hds ▸ List.mem_cons_self : c ∈ _)
    · exact ⟨by rfl, by decide, by decide⟩
    · exact Text.forall_ascii (P := fun c => c.isDigit = true →
        kindOfHead c = "integer" ∧ c ≠ '[' ∧ c ≠ ']') (by decide) (Text.isDigit_lt hdigit) hdigit
  | float x => cases hv
  | text s =>
    exact ⟨'"', _, String.toList_ofList, by rfl, by decide, by decide⟩

theorem unambiguous_valueText :
    Unambiguous (fun v => v.float? = none) valueText EndsNumber := by
  intro v w s t hv hw hs ht heq
  have hkind : v.kind = w.kind := by
    obtain ⟨c, r, hc, hkc, -⟩ := exists_cons_valueText hv
    obtain ⟨d, r', hd, hkd, -⟩ := exists_cons_valueText hw
    rw [hc, hd] at heq
    rw [← hkc, ← hkd, (List.cons.inj heq).1]
  cases v with
  | boolean b =>
    cases w with
    | boolean b' => cases b <;> cases b' <;> simp_all [valueText]
    | _ => simp [Value.kind] at hkind
  | integer n =>
    cases w with
    | integer m =>
      obtain ⟨hnumber, hrest⟩ := unambiguous_toString trivial trivial hs ht heq
      exact ⟨congrArg Value.integer (Int64.toInt_inj.1 hnumber), hrest⟩
    | _ => simp [Value.kind] at hkind
  | float x => cases hv
  | text a =>
    cases w with
    | text b =>
      have hread := congrArg readText? heq
      rw [readText?_valueText, readText?_valueText, Option.some.injEq, Prod.mk.injEq] at hread
      exact ⟨congrArg Value.text (String.toList_inj.1 hread.1), hread.2⟩
    | _ => simp [Value.kind] at hkind

/-- A rest that begins with a character. -/
def Begins (c : Char) (rest : List Char) : Prop := rest.head? = some c

theorem Begins.endsNumber {c : Char} {rest : List Char} (h : Begins c rest)
    (hc : c.isDigit = false) : EndsNumber rest := by
  intro d hd
  obtain rfl : c = d := Option.some.inj (h.symm.trans hd)
  exact hc

theorem Begins.endsName {c : Char} {rest : List Char} (h : Begins c rest)
    (hc : c ≠ '\x60' ∧ isNameChar c = false) : EndsName rest := by
  intro d hd
  obtain rfl : c = d := Option.some.inj (h.symm.trans hd)
  exact hc

/-- Lists of scalars in their brackets. -/
theorem unambiguous_severalText {Ends : List Char → Prop} :
    Unambiguous (fun vs => ∀ v ∈ vs, v.float? = none) (fun vs => propertyText (.several vs))
      Ends := by
  have hlist : Unambiguous (fun vs : List Value => ∀ v ∈ vs, v.float? = none)
      (fun vs => ", ".intercalate (vs.map valueText)) (Begins ']') := by
    refine unambiguous_valueText.intercalate ?_ ?_
    · exact fun s => Begins.endsNumber (c := ',') rfl (by decide)
    · intro s hs
      refine ⟨hs.endsNumber (by decide), ?_, ?_⟩
      · rintro v hv t rfl
        obtain ⟨c, r, hcons, -, -, hc⟩ := exists_cons_valueText hv
        rw [Begins, hcons] at hs
        exact hc (Option.some.inj hs)
      · rintro ⟨t, rfl⟩
        exact absurd (Option.some.inj hs) (by decide)
  exact hlist.between "[" "]" fun _ => rfl

theorem unambiguous_propertyText :
    Unambiguous (fun p => p.floats = []) propertyText EndsNumber := by
  -- No scalar begins with the bracket of a list.
  have hapart : ∀ {v : Value} (vs : List Value) (r r' : List Char), v.float? = none →
      (propertyText (.single v)).toList ++ r ≠ (propertyText (.several vs)).toList ++ r' := by
    intro v vs r r' hv h
    obtain ⟨c, cs, hcons, -, hc, -⟩ := exists_cons_valueText hv
    rw [propertyText, propertyText, hcons, String.toList_append, String.toList_append,
      List.append_assoc, List.append_assoc] at h
    exact hc (List.cons.inj h).1
  intro p q s t hp hq hs ht heq
  replace hp := List.filterMap_eq_nil_iff.1 hp
  replace hq := List.filterMap_eq_nil_iff.1 hq
  cases p with
  | single v =>
    have hv : v.float? = none := hp v List.mem_cons_self
    cases q with
    | single w =>
      obtain ⟨rfl, rfl⟩ := unambiguous_valueText hv (hq w List.mem_cons_self) hs ht heq
      exact ⟨rfl, rfl⟩
    | several ws => exact absurd heq (hapart ws s t hv)
  | several vs =>
    cases q with
    | single w => exact absurd heq.symm (hapart vs t s (hq w List.mem_cons_self))
    | several ws =>
      obtain ⟨rfl, rfl⟩ := unambiguous_severalText hp hq hs ht heq
      exact ⟨rfl, rfl⟩

end PropertyGraph.Cypher
