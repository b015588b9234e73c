/-
The variables that a query gives to nodes.

A variable is the first free one of the plain name and its numbered forms.  There
is a free one among as many forms as names are taken, as the plain name is taken
too; so no two nodes of a query have one variable.

* **`freshName_notMem`** — the name that is chosen is free;
* **`nodup_assignFrom`** — so the names that are assigned differ;
* **`nodeName`** — the variable of a node in the query for a pattern graph;
* **`nodeName_inj`** — it tells the node.
-/
import Mathlib.Data.List.Nodup
import Mathlib.Data.List.Perm.Subperm
import PropertyGraph.Proofs.Cypher.Coverage
import PropertyGraph.Proofs.Text.Numeral

namespace PropertyGraph.Cypher

variable {config : MatchConfig}

/-! ### Free names -/

/-- The numbered form of a name. -/
def numbered (name : String) (i : Nat) : String := name ++ "_" ++ toString (i + 2)

theorem numbered_inj {name : String} {i j : Nat} : numbered name i = numbered name j ↔ i = j := by
  constructor
  · intro h
    rw [numbered, numbered, String.append_right_inj] at h
    have hdigits : Text.digitsValue 0 (toString (i + 2)).toList =
        Text.digitsValue 0 (toString (j + 2)).toList := by rw [h]
    rw [Text.toList_toString_nat, Text.toList_toString_nat, Text.digitsValue_toDigits,
      Text.digitsValue_toDigits] at hdigits
    omega
  · rintro rfl
    rfl

/-- It is longer than the name. -/
theorem numbered_ne (name : String) (i : Nat) : numbered name i ≠ name := by
  intro h
  have hlength := congrArg String.length h
  rw [numbered, String.append_assoc, String.length_append, String.length_append] at hlength
  have hone : "_".length = 1 := by decide
  omega

/-- **The name that is chosen is free.**  Were all numbered forms taken, they and the
plain name would be more than there are. -/
theorem freshName_notMem (taken : List String) (name : String) : freshName taken name ∉ taken := by
  let forms := (List.range taken.length).map (numbered name)
  have hfresh : freshName taken name =
      if name ∈ taken then (forms.find? fun candidate => candidate ∉ taken).getD name
      else name := rfl
  rw [hfresh]
  split
  case isFalse hfree => exact hfree
  case isTrue htaken =>
    cases hfound : forms.find? fun candidate => candidate ∉ taken with
    | some candidate => simpa using List.find?_some hfound
    | none =>
      have hall : ∀ candidate ∈ forms, candidate ∈ taken := by
        simpa using List.find?_eq_none.1 hfound
      have hnodup : (name :: forms).Nodup := by
        refine List.nodup_cons.2 ⟨fun hmem => ?_,
          List.nodup_range.map fun i j h => numbered_inj.1 h⟩
        obtain ⟨i, -, hi⟩ := List.mem_map.1 hmem
        exact numbered_ne name i hi
      have hle := (List.subperm_of_subset hnodup
        (List.cons_subset.2 ⟨htaken, hall⟩ : name :: forms ⊆ taken)).length_le
      rw [List.length_cons, List.length_map, List.length_range] at hle
      omega

/-! ### Assigned names -/

theorem nodup_assignFrom {assigned : List (NodeId × String)}
    (h : (assigned.map Prod.snd).Nodup) (ids : List NodeId) :
    ((assignFrom config assigned ids).map Prod.snd).Nodup := by
  induction ids generalizing assigned with
  | nil => exact h
  | cons id ids ih =>
    refine ih ?_
    rw [List.map_append, List.map_singleton, ← List.concat_eq_append, List.nodup_concat]
    exact ⟨freshName_notMem _ _, h⟩

theorem nodup_assignVariables (config : MatchConfig) (ids : List NodeId) :
    ((assignVariables config ids).map Prod.snd).Nodup := by
  refine nodup_assignFrom ?_ ids
  exact List.nodup_nil

theorem variableOf_inj {ids : List NodeId} {id id' : NodeId} (hid : id ∈ ids) (hid' : id' ∈ ids) :
    variableOf (assignVariables config ids) id = variableOf (assignVariables config ids) id' ↔
      id = id' := by
  constructor
  · intro h
    exact congrArg Prod.fst (List.inj_on_of_nodup_map (nodup_assignVariables config ids)
      (mem_assignVariables config hid) (mem_assignVariables config hid') h)
  · rintro rfl
    rfl

/-- The variable of a node in the query for a pattern graph. -/
def nodeName (config : MatchConfig) (p : PatternGraph) (id : NodeId) : String :=
  variableOf (assignVariables config (constraints config p.nodes).keys) id

/-- **No two nodes of a query have one variable.** -/
theorem nodeName_inj {p : PatternGraph} {id id' : NodeId}
    (hid : id ∈ p.nodes.map PatternNode.id) (hid' : id' ∈ p.nodes.map PatternNode.id) :
    nodeName config p id = nodeName config p id' ↔ id = id' :=
  variableOf_inj (mem_keys_constraints.2 hid) (mem_keys_constraints.2 hid')

end PropertyGraph.Cypher
