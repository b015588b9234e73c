/-
The search for the variables of nodes, step by step.

The variable of a node is searched for among the plain name and its numbered
forms, and each search finds the names of the searches before it taken.  Here
both the search and the pass over the nodes are relations that hold only of runs
that end, without a bound on how far a search may go.  Numbered forms can be the
plain names of other nodes, so a search may have to go past several of them.

* **`search_iff`** — a search ends, and it ends at the name that is chosen;
* **`assigns_iff`** — so the pass ends, with the names that are assigned;
* **`quoteName_inj`** — names differ as they stand in a query;
* **`assigns_apart`** — no two nodes are given one variable, by its name or as it
  stands in a query.
-/
import PropertyGraph.Proofs.Cypher.Lexing
import PropertyGraph.Proofs.Cypher.Naming

namespace PropertyGraph.Cypher

variable {config : MatchConfig} {taken : List String} {name : String}

/-! ### One search -/

/-- A search for a free name that ends at a candidate.  A candidate that is taken
is followed by the name with the next number behind it. -/
inductive Search (taken : List String) (name : String) : Nat → String → String → Prop
  | free {number : Nat} {candidate : String} (h : candidate ∉ taken) :
      Search taken name number candidate candidate
  | next {number : Nat} {candidate found : String} (h : candidate ∈ taken)
      (rest : Search taken name (number + 1) (name ++ "_" ++ toString number) found) :
      Search taken name number candidate found

/-- A search ends at one name only. -/
theorem Search.unique {number : Nat} {candidate found found' : String}
    (h : Search taken name number candidate found)
    (h' : Search taken name number candidate found') : found = found' := by
  induction h with
  | free hfree =>
    cases h' with
    | free => rfl
    | next htaken _ => exact absurd htaken hfree
  | next htaken _ ih =>
    cases h' with
    | free hfree => exact absurd htaken hfree
    | next _ rest' => exact ih rest'

/-- A search ends at the candidate or at a numbered form. -/
theorem Search.form {number : Nat} {candidate found : String}
    (h : Search taken name number candidate found) :
    found = candidate ∨ ∃ k, number ≤ k ∧ found = name ++ "_" ++ toString k := by
  induction h with
  | free => exact .inl rfl
  | @next number _ found _ _ ih =>
    refine .inr ?_
    obtain hfound | ⟨k, hk, hfound⟩ := ih
    · exact ⟨number, Nat.le_refl number, hfound⟩
    · exact ⟨k, by omega, hfound⟩

/-- If the plain name is taken, the first numbered form that is not is chosen. -/
theorem exists_freshName_eq_numbered (htaken : name ∈ taken) :
    ∃ k, freshName taken name = numbered name k ∧ ∀ j < k, numbered name j ∈ taken := by
  have hfree := freshName_notMem taken name
  have hfresh : freshName taken name =
      (((List.range taken.length).map (numbered name)).find? fun candidate =>
        candidate ∉ taken).getD name := if_pos htaken
  rw [List.find?_map] at hfresh
  cases hk : (List.range taken.length).find?
      ((fun candidate => decide (candidate ∉ taken)) ∘ numbered name) with
  | none =>
    -- The plain name would be chosen, and it is taken.
    rw [hk] at hfresh
    have hname : freshName taken name = name := hfresh
    rw [hname] at hfree
    exact absurd htaken hfree
  | some k =>
    rw [hk] at hfresh
    refine ⟨k, hfresh, fun j hj => ?_⟩
    have hbefore := (List.find?_range_eq_some.1 hk).2.2 j hj
    simpa using hbefore

/-- The search goes on from any numbered form before the free one.  The induction
is on how many forms are still ahead. -/
theorem search_numbered {k : Nat} (hfree : numbered name k ∉ taken)
    (htaken : ∀ j < k, numbered name j ∈ taken) (ahead : Nat) {j : Nat} (hj : j + ahead = k) :
    Search taken name (j + 3) (numbered name j) (numbered name k) := by
  induction ahead generalizing j with
  | zero =>
    rw [Nat.add_zero] at hj
    subst hj
    exact .free hfree
  | succ ahead ih => exact .next (htaken j (by omega)) (ih (by omega))

/-- **A search ends**, at the name that is chosen. -/
theorem search_freshName (taken : List String) (name : String) :
    Search taken name 2 name (freshName taken name) := by
  by_cases htaken : name ∈ taken
  · obtain ⟨k, hk, hbefore⟩ := exists_freshName_eq_numbered htaken
    have hfree : numbered name k ∉ taken := hk ▸ freshName_notMem taken name
    rw [hk]
    exact .next htaken (search_numbered hfree hbefore k (Nat.zero_add k))
  · have hplain : freshName taken name = name := if_neg htaken
    rw [hplain]
    exact .free htaken

theorem search_iff {found : String} :
    Search taken name 2 name found ↔ found = freshName taken name := by
  constructor
  · intro h
    exact h.unique (search_freshName taken name)
  · rintro rfl
    exact search_freshName taken name

/-! ### The pass over the nodes -/

/-- A pass over nodes that ends: a search for each, which finds the names taken
that were so before the pass and those of the searches before it. -/
inductive Assigns (config : MatchConfig) : List String → List NodeId → List String → Prop
  | nil (taken : List String) : Assigns config taken [] []
  | cons {taken : List String} {id : NodeId} {ids : List NodeId} {name : String}
      {names : List String}
      (search : Search taken (config.nodePrefix ++ id.display) 2
        (config.nodePrefix ++ id.display) name)
      (rest : Assigns config (taken ++ [name]) ids names) :
      Assigns config taken (id :: ids) (name :: names)

/-- A pass ends with one list of names only. -/
theorem Assigns.unique {ids : List NodeId} {names names' : List String}
    (h : Assigns config taken ids names) (h' : Assigns config taken ids names') :
    names = names' := by
  induction h generalizing names' with
  | nil =>
    cases h'
    rfl
  | cons search _ ih =>
    obtain _ | ⟨search', rest'⟩ := h'
    obtain rfl := search.unique search'
    rw [ih rest']

/-- A pass ends, with the names that are assigned behind those before. -/
theorem exists_assigns_assignFrom (config : MatchConfig) (assigned : List (NodeId × String))
    (ids : List NodeId) :
    ∃ names, Assigns config (assigned.map Prod.snd) ids names ∧
      (assignFrom config assigned ids).map Prod.snd = assigned.map Prod.snd ++ names := by
  induction ids generalizing assigned with
  | nil => exact ⟨[], .nil _, (List.append_nil _).symm⟩
  | cons id ids ih =>
    let name := freshName (assigned.map Prod.snd) (config.nodePrefix ++ id.display)
    obtain ⟨names, hnames, heq⟩ := ih (assigned ++ [(id, name)])
    rw [List.map_append, List.map_singleton] at hnames heq
    refine ⟨name :: names, .cons (search_iff.2 rfl) hnames, ?_⟩
    rw [assignFrom, heq, List.append_assoc]
    rfl

/-- Distinct nodes are assigned one name each, in their order. -/
theorem map_snd_assignVariables (config : MatchConfig) {ids : List NodeId} (hids : ids.Nodup) :
    (assignVariables config ids).map Prod.snd =
      ids.map (variableOf (assignVariables config ids)) := by
  have hkeys : (assignVariables config ids).map Prod.fst = ids := map_fst_assignFrom [] ids
  have hvariable : ∀ e ∈ assignVariables config ids,
      e.2 = variableOf (assignVariables config ids) e.1 := by
    intro e he
    have hid : e.1 ∈ ids := by
      rw [← hkeys]
      exact List.mem_map_of_mem he
    -- The node has one entry, which is the one that its variable is read from.
    have hentry := List.inj_on_of_nodup_map (hkeys.symm ▸ hids) he
      (mem_assignVariables config hid) rfl
    exact congrArg Prod.snd hentry
  calc (assignVariables config ids).map Prod.snd
      = (assignVariables config ids).map
          (variableOf (assignVariables config ids) ∘ Prod.fst) := List.map_congr_left hvariable
    _ = ids.map (variableOf (assignVariables config ids)) := by rw [← List.map_map, hkeys]

theorem assigns_iff {ids : List NodeId} (hids : ids.Nodup) {names : List String} :
    Assigns config [] ids names ↔ names = ids.map (variableOf (assignVariables config ids)) := by
  obtain ⟨names', hrun, heq⟩ := exists_assigns_assignFrom config [] ids
  have hnames : names' = ids.map (variableOf (assignVariables config ids)) := by
    rw [← map_snd_assignVariables config hids]
    exact heq.symm
  constructor
  · intro h
    exact (h.unique hrun).trans hnames
  · rintro rfl
    exact hnames ▸ hrun

/-- The name of each node is its plain name or a numbered form. -/
theorem Assigns.form {ids : List NodeId} {names : List String}
    (h : Assigns config taken ids names) :
    List.Forall₂ (fun id name => name = config.nodePrefix ++ id.display ∨
      ∃ k, 2 ≤ k ∧ name = config.nodePrefix ++ id.display ++ "_" ++ toString k) ids names := by
  induction h with
  | nil => exact .nil
  | cons search _ ih => exact .cons search.form ih

/-! ### Names in a query -/

/-- Names are read back, so no two of them stand in a query alike. -/
theorem quoteName_inj {name name' : String} : quoteName name = quoteName name' ↔ name = name' := by
  constructor
  · intro h
    have hends : EndsName [] := by
      intro c hc
      cases hc
    have hread := readName?_quoteName name hends
    rw [h, readName?_quoteName name' hends, Option.some.injEq, Prod.mk.injEq] at hread
    exact (String.toList_inj.1 hread.1).symm
  · rintro rfl
    rfl

/-- **No two nodes are given one variable.**  Whatever the prefix and the names of
the nodes, the pass over distinct nodes ends, with the variables that queries use.
Each is the plain name of its node or a form with a number from two on, and they
differ, as names and as they stand in a query. -/
theorem assigns_apart (config : MatchConfig) {ids : List NodeId} (hids : ids.Nodup) :
    let nameOf := variableOf (assignVariables config ids)
    (∀ names, Assigns config [] ids names ↔ names = ids.map nameOf) ∧
      (∀ id ∈ ids, nameOf id = config.nodePrefix ++ id.display ∨
        ∃ k, 2 ≤ k ∧ nameOf id = config.nodePrefix ++ id.display ++ "_" ++ toString k) ∧
      (ids.map nameOf).Nodup ∧ (ids.map fun id => quoteName (nameOf id)).Nodup := by
  intro nameOf
  have hrun : Assigns config [] ids (ids.map nameOf) := (assigns_iff hids).2 rfl
  have hform := List.forall₂_map_right_iff.1 hrun.form
  have hnodup : (ids.map nameOf).Nodup := by
    rw [← map_snd_assignVariables config hids]
    exact nodup_assignVariables config ids
  refine ⟨fun names => assigns_iff hids, fun id hid => ?_, hnodup, ?_⟩
  · exact List.forall₂_same.1 hform id hid
  · -- Quoting keeps names apart, whether they need quotes or not.
    have hquoted := hnodup.map fun name name' => quoteName_inj.1
    rwa [List.map_map] at hquoted

/-- Nodes whose plain names are the numbered forms of others. -/
def crossing : List NodeId :=
  [.int 1, .text "1", .text "1_2", .text "1_2_2", .text "a`b"]

theorem assigns_apart_crossing :
    crossing.Nodup ∧
      Assigns {} [] crossing ["n1", "n1_2", "n1_2_2", "n1_2_2_2", "na`b"] ∧
      (crossing.map fun id => quoteName (variableOf (assignVariables {} crossing) id)).Nodup := by
  have hids : crossing.Nodup := by decide
  obtain ⟨hends, -, -, hquoted⟩ := assigns_apart {} hids
  exact ⟨hids, (hends _).2 (by decide), hquoted⟩

end PropertyGraph.Cypher
