/-
When a text gets a `LIMIT` of its own behind it.

The guard looks behind the first `LIMIT` token alone.  An integer there keeps it
from appending, whatever else the text asks for; anything else there makes it
append, even where a later `LIMIT` has its number.  Digits count as an integer in
any number, so one that no ceiling reaches is cut down and not passed over.

* **`RequestsFirst`** — the first `LIMIT` stands right before an integer;
* **`requestsFirst_of_requested?`** — what the guard finds is that integer;
* **`tokens_of_accepted`** — a text is kept, has its number replaced, or gets a
  `LIMIT` behind it;
* **`length_ne_of_propertyNamedLimit`** — a property may be named like the word, and
  then there are two.
-/
import PropertyGraph.Proofs.Guard.Resetting

namespace PropertyGraph.Guard

/-! ### The first request -/

/-- The first `LIMIT` stands right before an integer: digits, however many, or a
number of 128 bits with a sign. -/
structure RequestsFirst (tokens : List (List Char)) (literal : List Char) (n : Int) : Prop where
  /-- The integer is the token after the first `LIMIT`. -/
  behind : ∃ rest, tokens.dropWhile (· ≠ limitWord) = limitWord :: literal :: rest
  value : Text.intOfDigits? literal = some n
  /-- A number too large to be kept must be without a sign. -/
  plain : literal.all Char.isDigit = true ∨ Text.within 128 n = some n

namespace RequestsFirst

variable {tokens : List (List Char)} {literal literal' : List Char} {n n' : Int}

theorem requests (h : RequestsFirst tokens literal n) : Requests tokens literal n :=
  ⟨h.behind.elim fun _ hrest => infix_of_dropWhile hrest, h.value⟩

/-- There is only one first request. -/
theorem unique (h : RequestsFirst tokens literal n) (h' : RequestsFirst tokens literal' n') :
    literal' = literal ∧ n' = n := by
  obtain ⟨rest, hrest⟩ := h.behind
  obtain ⟨rest', hrest'⟩ := h'.behind
  rw [hrest] at hrest'
  cases hrest'
  exact ⟨rfl, Option.some.inj (h'.value.symm.trans h.value)⟩

/-- The guard finds the first request.  It may take a number for a smaller one, but
then both are above all ceilings. -/
theorem exists_requested? (h : RequestsFirst tokens literal n) :
    ∃ m, requested? tokens = some (literal, m) ∧
      ∀ limit : Int64, limit.toInt < m ↔ limit.toInt < n := by
  have hfound : ∀ {m}, literalValue? literal = some m → requested? tokens = some (literal, m) :=
    fun hm => requested?_eq_some_iff.2 ⟨h.behind, hm⟩
  cases hwithin : Text.within 128 n with
  | some m =>
    obtain rfl : n = m := by
      rw [Text.within, Option.ite_none_right_eq_some] at hwithin
      exact Option.some.inj hwithin.2
    refine ⟨n, hfound ?_, fun _ => Iff.rfl⟩
    rw [literalValue?, h.value, Option.bind_some, hwithin]
  | none =>
    have hdigits : literal.all Char.isDigit = true :=
      h.plain.resolve_right fun hsome => Option.some_ne_none n (hsome.symm.trans hwithin)
    have hne : literal ≠ [] := by
      rintro rfl
      cases h.value
    have hnonneg : 0 ≤ n := by
      have hvalue := h.value
      rw [Text.intOfDigits?_of_all_isDigit hne hdigits] at hvalue
      exact Option.some.inj hvalue ▸ Int.natCast_nonneg _
    -- Digits that do not fit write a number above all ceilings, and count as one.
    have hlarge : ¬n < Nat.pow 2 127 := by
      intro hlt
      rw [Text.within, if_pos ⟨by omega, hlt⟩] at hwithin
      cases hwithin
    refine ⟨Nat.pow 2 127 - 1, hfound ?_, fun limit => ?_⟩
    · rw [literalValue?, h.value, Option.bind_some, hwithin]
      exact if_pos hdigits
    · have := lt_of_int64 limit
      exact iff_of_true this (by omega)

end RequestsFirst

/-- What the guard finds is a first request. -/
theorem requestsFirst_of_requested? {s literal : List Char} {m : Int}
    (h : requested? (tokens s) = some (literal, m)) :
    ∃ n, RequestsFirst (tokens s) literal n := by
  obtain ⟨hne, hvalue⟩ := of_requested? h
  obtain ⟨hbehind, -⟩ := requested?_eq_some_iff.1 h
  rw [literalValue?] at hvalue
  split at hvalue
  · next n hn =>
    obtain ⟨k, hk, hwithin⟩ := Option.bind_eq_some_iff.1 hn
    rw [Text.within, Option.ite_none_right_eq_some] at hwithin
    obtain rfl := Option.some.inj hwithin.2
    exact ⟨k, hbehind, hk, .inr (if_pos hwithin.1)⟩
  · rw [Option.ite_none_right_eq_some] at hvalue
    exact ⟨_, hbehind, Text.intOfDigits?_of_all_isDigit hne hvalue.1, .inl hvalue.1⟩

/-! ### The three outcomes -/

variable {searchable : List Char → Bool} {limit : Int64}

/-- A text under a ceiling has kept its first request, has had it reset, or has got
another behind it. -/
theorem applyCeiling_cases (searchable : List Char → Bool) (hlimit : 0 < limit.toInt)
    (s : List Char) :
    let ceiling := (toString limit.toInt).toList
    let t := (applyCeiling searchable limit s).1
    (∃ literal n, RequestsFirst (tokens s) literal n ∧ n ≤ limit.toInt ∧ t = s) ∨
      (∃ literal n, RequestsFirst (tokens s) literal n ∧ limit.toInt < n ∧
        searchable literal = true ∧ (tokens t).length = (tokens s).length) ∨
      ((∀ literal n, RequestsFirst (tokens s) literal n →
          limit.toInt < n ∧ searchable literal = false) ∧
        tokens t = tokens s ++ [limitWord, ceiling]) := by
  intro ceiling t
  have hceiling : IsLiteral ceiling := isLiteral_toString hlimit
  cases hrequested : requested? (tokens s) with
  | none =>
    have ht : t = appendLimit ceiling s := by
      show (applyCeiling searchable limit s).1 = _
      simp only [applyCeiling, if_pos hlimit, hrequested, ceiling]
    refine .inr (.inr ⟨fun literal n hfirst => ?_, ?_⟩)
    · obtain ⟨m, hm, -⟩ := hfirst.exists_requested?
      rw [hrequested] at hm
      cases hm
    · rw [ht]
      exact tokens_append_limit hceiling (words_appendLimit s hceiling)
  | some found =>
    obtain ⟨literal, m⟩ := found
    obtain ⟨n, hfirst⟩ := requestsFirst_of_requested? hrequested
    -- The guard compares the ceiling with its own reading of the number.
    have hiff : limit.toInt < m ↔ limit.toInt < n := by
      obtain ⟨m', hm', hiff⟩ := hfirst.exists_requested?
      rw [hrequested] at hm'
      cases hm'
      exact hiff limit
    by_cases hlt : limit.toInt < n
    · have ht : t = resetLimit searchable literal ceiling s := by
        show (applyCeiling searchable limit s).1 = _
        simp only [applyCeiling, if_pos hlimit, hrequested, if_pos (hiff.2 hlt), ceiling]
      have hliteral : IsLiteral literal :=
        isLiteral_of_requested? (Int.lt_trans hlimit (hiff.2 hlt)) hrequested
      cases hsearchable : searchable literal with
      | true =>
        rw [resetLimit, if_pos hsearchable] at ht
        refine .inr (.inl ⟨literal, n, hfirst, hlt, hsearchable, ?_⟩)
        rw [ht]
        exact length_tokens_replaceLimit hliteral hceiling s
      | false =>
        rw [resetLimit, hsearchable, if_neg Bool.false_ne_true] at ht
        refine .inr (.inr ⟨fun literal' n' hfirst' => ?_, ?_⟩)
        · obtain ⟨rfl, rfl⟩ := hfirst.unique hfirst'
          exact ⟨hlt, hsearchable⟩
        · rw [ht]
          exact tokens_append_limit hceiling (words_append_limit s hceiling)
    · refine .inl ⟨literal, n, hfirst, Int.not_lt.1 hlt, ?_⟩
      show (applyCeiling searchable limit s).1 = s
      simp only [applyCeiling, if_pos hlimit, hrequested, if_neg (mt hiff.1 hlt)]

/-- **An integer behind the first `LIMIT` keeps the guard from adding another.**  A
text that is let through under a ceiling has as many tokens as before just if
its first `LIMIT` stands right before an integer, for which a pattern can be
built if it is above the ceiling.  If it is not above, the text is as it was.  In
all other cases there are two tokens more, a `LIMIT` and the ceiling behind those of
the text; so it is, above all, where no `LIMIT` stands before an integer. -/
theorem tokens_of_accepted {text query : String} {warning : Option String}
    (hlimit : 0 < limit.toInt) (h : checkWith searchable limit text = .accepted query warning) :
    let ceiling := (toString limit.toInt).toList
    let old := tokens text.toList
    let new := tokens query.toList
    (new.length = old.length ↔
        ∃ literal n, RequestsFirst old literal n ∧ (limit.toInt < n → searchable literal = true)) ∧
      (∀ literal n, RequestsFirst old literal n → n ≤ limit.toInt → query = text) ∧
      (new = old ++ [limitWord, ceiling] ↔
        ∀ literal n, RequestsFirst old literal n →
          limit.toInt < n ∧ searchable literal = false) ∧
      ((∀ literal n, ¬Requests old literal n) → new = old ++ [limitWord, ceiling]) := by
  intro ceiling old new
  obtain ⟨-, hquery, -⟩ := checkWith_eq_accepted_iff.1 h
  have hlonger : new = old ++ [limitWord, ceiling] → new.length ≠ old.length := by
    intro heq hlength
    rw [heq, List.length_append] at hlength
    exact absurd hlength (by simp)
  have hcases := applyCeiling_cases searchable hlimit text.toList
  rw [← hquery] at hcases
  obtain ⟨literal, n, hfirst, hle, hsame⟩ | ⟨literal, n, hfirst, hlt, hsearchable, hlength⟩ |
    ⟨hnot, hnew⟩ := hcases
  · -- The request is kept, and the text with it.
    have hlength : new.length = old.length := congrArg (fun s => (tokens s).length) hsame
    have hnlt : ¬limit.toInt < n := Int.not_lt.2 hle
    refine ⟨iff_of_true hlength ⟨literal, n, hfirst, fun hlt => absurd hlt hnlt⟩,
      fun _ _ _ _ => String.toList_inj.1 hsame, iff_of_false ?_ ?_, fun hnone => ?_⟩
    · exact fun hnew => hlonger hnew hlength
    · exact fun hnot => hnlt (hnot literal n hfirst).1
    · exact absurd hfirst.requests (hnone literal n)
  · -- The request is reset in its place.
    refine ⟨iff_of_true hlength ⟨literal, n, hfirst, fun _ => hsearchable⟩,
      fun literal' n' hfirst' hle => ?_, iff_of_false ?_ ?_, fun hnone => ?_⟩
    · obtain ⟨-, rfl⟩ := hfirst.unique hfirst'
      exact absurd hlt (Int.not_lt.2 hle)
    · exact fun hnew => hlonger hnew hlength
    · exact fun hnot => Bool.false_ne_true ((hnot literal n hfirst).2.symm.trans hsearchable)
    · exact absurd hfirst.requests (hnone literal n)
  · -- Another request is put behind the text.
    refine ⟨iff_of_false (hlonger hnew) ?_, fun literal n hfirst hle => ?_,
      iff_of_true hnew hnot, fun _ => hnew⟩
    · rintro ⟨literal, n, hfirst, hsearchable⟩
      obtain ⟨hlt, hfalse⟩ := hnot literal n hfirst
      exact Bool.false_ne_true (hfalse.symm.trans (hsearchable hlt))
    · exact absurd (hnot literal n hfirst).1 (Int.not_lt.2 hle)

/-- A text whose first `LIMIT` has a number, and whose other ones a comparison and a
parameter. -/
def askingFirst : String :=
  "MATCH (a) WITH a limit 300 MATCH (b) WHERE b.limit > 3 RETURN b LIMIT $n"

theorem tokens_of_accepted_askingFirst :
    ∃ query, checkWith (fun _ => true) 250 askingFirst =
        .accepted query (some "LIMIT reset to 250") ∧
      RequestsFirst (tokens askingFirst.toList) "300".toList 300 ∧
      (tokens query.toList).length = (tokens askingFirst.toList).length := by
  have haccepted : checkWith (fun _ => true) 250 askingFirst =
      .accepted "MATCH (a) WITH a limit 250 MATCH (b) WHERE b.limit > 3 RETURN b LIMIT $n"
        (some "LIMIT reset to 250") := by decide +kernel
  have hfirst : RequestsFirst (tokens askingFirst.toList) "300".toList 300 := by
    refine ⟨⟨["MATCH", "B", "WHERE", "B", "LIMIT", ">", "3", "RETURN", "B", "LIMIT", "$N"].map
      String.toList, ?_⟩, ?_, .inl ?_⟩ <;> decide +kernel
  exact ⟨_, haccepted, hfirst,
    (tokens_of_accepted (by decide) haccepted).1.2 ⟨_, _, hfirst, fun _ => rfl⟩⟩

/-- A number behind a later `LIMIT` does not keep the guard from adding one, where the
first is the name of a property. -/
theorem length_ne_of_propertyNamedLimit :
    let text := "MATCH (a) WHERE a.limit > 3 RETURN a LIMIT 10"
    ∃ query, check 250 text = .accepted query none ∧
      Requests (tokens text.toList) "10".toList 10 ∧
      tokens query.toList = tokens text.toList ++ [limitWord, "250".toList] ∧
      (tokens query.toList).length ≠ (tokens text.toList).length ∧ query ≠ text := by
  refine ⟨"MATCH (a) WHERE a.limit > 3 RETURN a LIMIT 10 LIMIT 250", ?_, ⟨⟨["MATCH", "A", "WHERE",
    "A", "LIMIT", ">", "3", "RETURN", "A"].map String.toList, [], ?_⟩, ?_⟩, ?_, ?_, ?_⟩ <;>
    decide +kernel

end PropertyGraph.Guard
