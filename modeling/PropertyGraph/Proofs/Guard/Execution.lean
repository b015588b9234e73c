/-
What the guard lets through, and what comes of it.

A text is permitted by its words alone, whatever the ceiling: every required
word occurs in it and no forbidden one does.  The text that is run is another
one, but it is permitted too.

* **`rejection?_eq_none_iff`**, **`rejection?_eq_missing_iff`**,
  **`rejection?_eq_forbidden_iff`** — when a text is rejected, and why;
* **`permitted_applyCeiling_iff`** — a ceiling makes no difference;
* **`executionOf_rejected`**, **`executionOf_accepted`** — the calls of the
  runner;
* **`guarded_execution`** — all of that about a text and a runner.
-/
import PropertyGraph.Proofs.Guard.Ceiling
import PropertyGraph.Result.Response

namespace PropertyGraph

namespace Guard

/-- Every required word occurs in a text, and no forbidden one. -/
def Permitted (s : List Char) : Prop :=
  (∀ k ∈ requiredWords, Occurs k s) ∧ ∀ k ∈ forbiddenWords, ¬Occurs k s

/-- The first word of a list that meets a condition. -/
def IsFirst (l : List String) (P : String → Prop) (k : String) : Prop :=
  ∃ before after, l = before ++ k :: after ∧ P k ∧ ∀ k' ∈ before, ¬P k'

theorem find?_eq_some_iff_isFirst {l : List String} {p : String → Bool} {P : String → Prop}
    (h : ∀ k, p k = true ↔ P k) {k : String} : l.find? p = some k ↔ IsFirst l P k := by
  rw [List.find?_eq_some_iff_append]
  simp only [IsFirst, h, Bool.not_eq_true', ← Bool.not_eq_true]
  constructor
  · rintro ⟨hk, before, after, hl, hbefore⟩
    exact ⟨before, after, hl, hk, hbefore⟩
  · rintro ⟨before, after, hl, hk, hbefore⟩
    exact ⟨hk, before, after, hl, hbefore⟩

/-! ### Decisions -/

variable {s : List Char}

theorem rejection?_eq_missing_iff {k : String} :
    rejection? (tokens s) = some (.missing k) ↔ IsFirst requiredWords (fun k => ¬Occurs k s) k := by
  rw [← find?_eq_some_iff_isFirst (p := fun k => k.toList ∉ tokens s) (by simp [occurs_iff]),
    rejection?]
  split
  · next hfound => rw [hfound, Option.some.injEq, Option.some.injEq, Rejection.missing.injEq]
  · next hnone => rw [hnone]; simp

theorem forall_required_iff :
    (∀ k ∈ requiredWords, Occurs k s) ↔
      (requiredWords.find? fun k => k.toList ∉ tokens s) = none := by
  simp only [List.find?_eq_none, decide_eq_true_eq, Decidable.not_not, occurs_iff]

theorem rejection?_eq_forbidden_iff {k : String} :
    rejection? (tokens s) = some (.forbidden k) ↔
      (∀ k' ∈ requiredWords, Occurs k' s) ∧ IsFirst forbiddenWords (Occurs · s) k := by
  rw [forall_required_iff,
    ← find?_eq_some_iff_isFirst (p := fun k => k.toList ∈ tokens s) (by simp [occurs_iff]),
    rejection?]
  split
  · next hfound => rw [hfound]; simp
  · next hnone => rw [hnone]; simp

theorem rejection?_eq_none_iff : rejection? (tokens s) = none ↔ Permitted s := by
  rw [Permitted, forall_required_iff, rejection?]
  split
  · next hfound => rw [hfound]; simp
  · next hnone => rw [hnone]; simp [List.find?_eq_none, occurs_iff]

/-- No required or forbidden word begins like a number, or is the word before
one. -/
theorem keyword_of_mem {k : String} (hk : k ∈ requiredWords ++ forbiddenWords) :
    ¬BeginsNumeric k.toList ∧ k.toList ≠ limitWord := by
  have hall : ∀ k ∈ requiredWords ++ forbiddenWords,
      (k.toList.head?.all fun c => !decide (IsNumeric c)) = true ∧ k.toList ≠ limitWord := by decide
  refine ⟨?_, (hall k hk).2⟩
  rintro ⟨c, rest, hcons, hc⟩
  simpa [hcons, hc] using (hall k hk).1

theorem permitted_applyCeiling_iff (searchable : List Char → Bool) (limit : Int64) :
    Permitted (applyCeiling searchable limit s).1 ↔ Permitted s := by
  have hsame : ∀ k ∈ requiredWords ++ forbiddenWords,
      (Occurs k (applyCeiling searchable limit s).1 ↔ Occurs k s) := by
    intro k hk
    obtain ⟨hnumeric, hlimit⟩ := keyword_of_mem hk
    rw [occurs_iff, occurs_iff, mem_tokens_applyCeiling_iff searchable limit s hnumeric hlimit]
  refine and_congr (forall₂_congr fun k hk => ?_) (forall₂_congr fun k hk => not_congr ?_)
  · exact hsame k (List.mem_append_left _ hk)
  · exact hsame k (List.mem_append_right _ hk)

section

variable {searchable : List Char → Bool} {limit : Int64} {text : String}

theorem checkWith_eq_rejected_iff {r : Rejection} :
    checkWith searchable limit text = .rejected r ↔ rejection? (tokens text.toList) = some r := by
  rw [checkWith]
  split
  · next hsome => rw [hsome, Verdict.rejected.injEq, Option.some.injEq]
  · next hnone => simp [hnone]

theorem checkWith_eq_accepted_iff {query : String} {warning : Option String} :
    checkWith searchable limit text = .accepted query warning ↔
      Permitted text.toList ∧
        query.toList = (applyCeiling searchable limit text.toList).1 ∧
        warning = (applyCeiling searchable limit text.toList).2 := by
  rw [← rejection?_eq_none_iff, checkWith]
  split
  · next hsome => simp [hsome]
  · next hnone =>
    simp only [hnone, Verdict.accepted.injEq, true_and, eq_comm (b := warning)]
    refine and_congr_left' ?_
    rw [← String.toList_inj, String.toList_ofList, eq_comm]

end

end Guard

/-! ### Runs -/

section

variable {σ : Type}

/-- A runner that also writes down the texts that it is called with. -/
def recorded (run : String → StateM σ (Except RunFailure ResultSet)) (query : String) :
    StateT (List String) (StateM σ) (Except RunFailure ResultSet) := do
  modify (· ++ [query])
  run query

theorem run_recorded (run : String → StateM σ (Except RunFailure ResultSet)) (query : String)
    (calls : List String) (world : σ) :
    ((recorded run query).run calls).run world =
      ((((run query).run world).1, calls ++ [query]), ((run query).run world).2) :=
  rfl

/-- What `executeWith` answers, the texts that it calls the runner with, and the
world that this leaves. -/
def executionOf (searchable : List Char → Bool)
    (run : String → StateM σ (Except RunFailure ResultSet)) (limit : Int64) (text : String)
    (world : σ) : (Response × List String) × σ :=
  ((executeWith searchable (recorded run) limit text).run []).run world

variable {searchable : List Char → Bool} {run : String → StateM σ (Except RunFailure ResultSet)}
  {limit : Int64} {text : String}

theorem executionOf_rejected {r : Rejection}
    (h : Guard.checkWith searchable limit text = .rejected r) (world : σ) :
    executionOf searchable run limit text world =
      (({ success := false, message := r.message }, []), world) := by
  rw [executionOf, executeWith, h]
  rfl

theorem executionOf_accepted {query : String} {warning : Option String}
    (h : Guard.checkWith searchable limit text = .accepted query warning) (world : σ) :
    executionOf searchable run limit text world =
      ((match ((run query).run world).1 with
        | .ok result =>
          { success := true
            message := "Query executed successfully. (" ++ toString result.matched.length ++
              " results)"
            warning, query := some query, result }
        | .error failure =>
          { success := false
            message := "Something went wrong. (" ++ failure.message ++ ")"
            warning, query := some query, result := {} }, [query]), ((run query).run world).2) := by
  rw [executionOf, executeWith, h]
  simp only [StateT.run_bind, run_recorded, List.nil_append]
  rcases (run query).run world with ⟨_ | _, _⟩ <;> rfl

end

/-- For every text, every ceiling and every runner: a text is accepted exactly if
`MATCH` and `RETURN` occur in it and none of `DETACH`, `DELETE`, `UPDATE`, `SET` and
`MERGE` does; a rejection names the first of these words that is to blame, missing ones
before forbidden ones; what is accepted to be run is permitted itself; and the runner is
called with that, once, or not at all.  If it fails, the response says so and has no
result. -/
theorem guarded_execution (searchable : List Char → Bool) (limit : Int64) (text : String) :
    let verdict := Guard.checkWith searchable limit text
    let required := ["MATCH", "RETURN"]
    let forbidden := ["DETACH", "DELETE", "UPDATE", "SET", "MERGE"]
    let permitted : List Char → Prop := fun s =>
      (∀ k ∈ required, Guard.Occurs k s) ∧ ∀ k ∈ forbidden, ¬Guard.Occurs k s
    ((∃ query warning, verdict = .accepted query warning) ↔ permitted text.toList) ∧
      (∀ k, verdict = .rejected (.missing k) ↔
        Guard.IsFirst required (fun k => ¬Guard.Occurs k text.toList) k) ∧
      (∀ k, verdict = .rejected (.forbidden k) ↔
        (∀ k' ∈ required, Guard.Occurs k' text.toList) ∧
          Guard.IsFirst forbidden (fun k => Guard.Occurs k text.toList) k) ∧
      (∀ query warning, verdict = .accepted query warning → permitted query.toList) ∧
      ∀ (σ : Type) (run : String → StateM σ (Except RunFailure ResultSet)) (world : σ),
        let outcome := executionOf searchable run limit text world
        (∀ r, verdict = .rejected r →
          outcome = (({ success := false, message := r.message }, []), world)) ∧
        ∀ query warning, verdict = .accepted query warning →
          outcome.1.2 = [query] ∧ outcome.2 = ((run query).run world).2 ∧
          (∀ result, ((run query).run world).1 = .ok result →
            outcome.1.1 =
              { success := true
                message := "Query executed successfully. (" ++
                  toString result.matched.length ++ " results)"
                warning, query := some query, result }) ∧
          ∀ failure, ((run query).run world).1 = .error failure →
            outcome.1.1 =
              { success := false
                message := "Something went wrong. (" ++ failure.message ++ ")"
                warning, query := some query, result := {} } := by
  intro verdict required forbidden permitted
  refine ⟨?_, ?_, ?_, ?_, ?_⟩
  · show _ ↔ Guard.Permitted text.toList
    simp only [verdict, Guard.checkWith_eq_accepted_iff]
    constructor
    · rintro ⟨_, _, hpermitted, -⟩
      exact hpermitted
    · exact fun hpermitted => ⟨_, _, hpermitted, String.toList_ofList, rfl⟩
  · exact fun k => Guard.checkWith_eq_rejected_iff.trans Guard.rejection?_eq_missing_iff
  · exact fun k => Guard.checkWith_eq_rejected_iff.trans Guard.rejection?_eq_forbidden_iff
  · intro query warning h
    obtain ⟨hpermitted, hquery, -⟩ := Guard.checkWith_eq_accepted_iff.1 h
    show Guard.Permitted query.toList
    rw [hquery]
    exact (Guard.permitted_applyCeiling_iff searchable limit).2 hpermitted
  · intro σ run world outcome
    refine ⟨fun r h => executionOf_rejected h world, fun query warning h => ?_⟩
    have houtcome : outcome = _ := executionOf_accepted h world
    refine ⟨by rw [houtcome], by rw [houtcome], fun result hok => ?_, fun failure herror => ?_⟩
    · rw [houtcome, hok]
    · rw [houtcome, herror]

end PropertyGraph
