/-
What a list of indices tells about a path.

The indices of a path come in pairs, a relation and the node that it leads to.
The indices of a walk tell each of its relations with the ends that it has, however
often nodes and relations are met again.  Any other list of indices is read up to
the first pair that is out of range: the pairs before it are taken as steps, the
sign of the first index telling which end of the relation the step leaves.

* **`Resolves`** — the relations that pairs in range stand for;
* **`resolves_iff`** — those that are found are the relations of the longest row
  of pairs in range;
* **`path_keepsDirection`** — the relations of a path have the ends and the
  direction that the walk gives them.
-/
import PropertyGraph.Proofs.Result.Paths

namespace PropertyGraph.Walk

variable {nodes : List Int64} {relations : List LooseRelation}

/-! ### Pairs of indices -/

/-- The pairs of a list of indices; an index without a partner is left out. -/
def pairs : List Int → List (Int × Int)
  | r :: n :: indices => (r, n) :: pairs indices
  | _ => []

/-- The first index of a pair, its sign aside, is the number of a relation counted
from one, the second that of a node counted from zero. -/
def InRange (nodes : List Int64) (relations : List LooseRelation) (p : Int × Int) : Prop :=
  (p.1 ≠ 0 ∧ p.1.natAbs ≤ relations.length) ∧ 0 ≤ p.2 ∧ p.2 < nodes.length

instance (p : Int × Int) : Decidable (InRange nodes relations p) :=
  inferInstanceAs (Decidable ((_ ∧ _) ∧ _ ∧ _))

/-- The relations that pairs stand for, from a node on.  A relation with a plus
sign points from the node at hand to the next one, with a minus sign from the next
one to the node at hand. -/
inductive Resolves (nodes : List Int64) (relations : List LooseRelation) :
    Int64 → List (Int × Int) → List FoundRelation → Prop
  | nil (previous : Int64) : Resolves nodes relations previous [] []
  | along {previous next : Int64} {pairs : List (Int × Int)} {found : List FoundRelation}
      {i j : Nat} {s n : Int} {r : LooseRelation} (relation : relations[i]? = some r)
      (node : nodes[j]? = some next) (signed : s = (i : Int) + 1) (plain : n = j)
      (rest : Resolves nodes relations next pairs found) :
      Resolves nodes relations previous ((s, n) :: pairs)
        (⟨r.id, previous, next, r.label, r.properties⟩ :: found)
  | against {previous next : Int64} {pairs : List (Int × Int)} {found : List FoundRelation}
      {i j : Nat} {s n : Int} {r : LooseRelation} (relation : relations[i]? = some r)
      (node : nodes[j]? = some next) (signed : s = -((i : Int) + 1)) (plain : n = j)
      (rest : Resolves nodes relations next pairs found) :
      Resolves nodes relations previous ((s, n) :: pairs)
        (⟨r.id, next, previous, r.label, r.properties⟩ :: found)

/-! ### Looking indices up -/

theorem atSigned?_eq_none_iff {α : Type} {l : List α} {r : Int} :
    atSigned? l r = none ↔ ¬(r ≠ 0 ∧ r.natAbs ≤ l.length) := by
  rw [atSigned?]
  split
  · next hzero => exact iff_of_true rfl fun h => h.1 hzero
  · next hne =>
    rw [List.getElem?_eq_none_iff]
    omega

theorem at?_eq_none_iff {α : Type} {l : List α} {n : Int} :
    at? l n = none ↔ ¬(0 ≤ n ∧ n < l.length) := by
  rw [at?]
  split
  · next hneg => exact iff_of_true rfl fun h => absurd h.1 (by omega)
  · next hpos =>
    rw [List.getElem?_eq_none_iff]
    omega

/-- A pair out of range ends the walk. -/
theorem resolve_of_not_inRange {r n : Int} (h : ¬InRange nodes relations (r, n))
    (previous : Int64) (indices : List Int) :
    resolve nodes relations previous (r :: n :: indices) = [] := by
  rw [resolve]
  split
  · next relation next hrelation hnode =>
    -- Both indices are found, so the pair would be in range.
    have hr : r ≠ 0 ∧ r.natAbs ≤ relations.length := by
      by_contra hout
      rw [atSigned?_eq_none_iff.2 hout] at hrelation
      cases hrelation
    have hn : 0 ≤ n ∧ n < nodes.length := by
      by_contra hout
      rw [at?_eq_none_iff.2 hout] at hnode
      cases hnode
    exact absurd ⟨hr, hn⟩ h
  · rfl

/-- A pair in range is a relation with its sign, and a node. -/
theorem InRange.exists_eq {r n : Int} (h : InRange nodes relations (r, n)) :
    ∃ (i j : Nat) (relation : LooseRelation) (next : Int64),
      (r = (i : Int) + 1 ∨ r = -((i : Int) + 1)) ∧ n = (j : Int) ∧
        relations[i]? = some relation ∧ nodes[j]? = some next := by
  obtain ⟨⟨hne, hle⟩, hnonneg, hlt⟩ := h
  dsimp only at hne hle hnonneg hlt
  have hi : r.natAbs - 1 < relations.length := by omega
  have hj : n.toNat < nodes.length := by omega
  refine ⟨r.natAbs - 1, n.toNat, _, _, ?_, ?_, List.getElem?_eq_getElem hi,
    List.getElem?_eq_getElem hj⟩
  · omega
  · omega

theorem resolve_along {i j : Nat} {r : LooseRelation} {next : Int64}
    (relation : relations[i]? = some r) (node : nodes[j]? = some next) (previous : Int64)
    (indices : List Int) :
    resolve nodes relations previous (((i : Int) + 1) :: (j : Int) :: indices) =
      ⟨r.id, previous, next, r.label, r.properties⟩ :: resolve nodes relations next indices := by
  have hsign : (i : Int) + 1 = if true then (i : Int) + 1 else -((i : Int) + 1) := rfl
  obtain ⟨hat, hforward⟩ := atSigned?_eq (l := relations) hsign
  rw [resolve, hat, relation, at?_natCast, node]
  dsimp only
  rw [hforward]
  rfl

theorem resolve_against {i j : Nat} {r : LooseRelation} {next : Int64}
    (relation : relations[i]? = some r) (node : nodes[j]? = some next) (previous : Int64)
    (indices : List Int) :
    resolve nodes relations previous (-((i : Int) + 1) :: (j : Int) :: indices) =
      ⟨r.id, next, previous, r.label, r.properties⟩ :: resolve nodes relations next indices := by
  have hsign : -((i : Int) + 1) = if false then (i : Int) + 1 else -((i : Int) + 1) := rfl
  obtain ⟨hat, hforward⟩ := atSigned?_eq (l := relations) hsign
  rw [resolve, hat, relation, at?_natCast, node]
  dsimp only
  rw [hforward]
  rfl

/-! ### The pairs that are read -/

/-- The pairs that are read: all up to the first one out of range. -/
def readPairs (nodes : List Int64) (relations : List LooseRelation) (indices : List Int) :
    List (Int × Int) :=
  (pairs indices).takeWhile fun p => InRange nodes relations p

/-- The relations that are found are those of the pairs that are read.  The
induction takes one pair at a time. -/
theorem resolves_resolve (nodes : List Int64) (relations : List LooseRelation)
    (previous : Int64) (indices : List Int) :
    Resolves nodes relations previous (readPairs nodes relations indices)
      (resolve nodes relations previous indices) := by
  induction indices using pairs.induct generalizing previous with
  | case1 r n indices ih =>
    rw [readPairs, pairs]
    by_cases hin : InRange nodes relations (r, n)
    · rw [List.takeWhile_cons_of_pos (by simpa using hin)]
      obtain ⟨i, j, relation, next, rfl | rfl, rfl, hrelation, hnode⟩ := hin.exists_eq
      · rw [resolve_along hrelation hnode]
        exact .along hrelation hnode rfl rfl (ih next)
      · rw [resolve_against hrelation hnode]
        exact .against hrelation hnode rfl rfl (ih next)
    · rw [List.takeWhile_cons_of_neg (by simpa using hin), resolve_of_not_inRange hin]
      exact .nil previous
  | case2 indices hshort =>
    have hpairs : pairs indices = [] := by
      rw [pairs]
      exact hshort
    have hresolve : resolve nodes relations previous indices = [] := by
      rw [resolve]
      exact hshort
    rw [readPairs, hpairs, hresolve]
    exact .nil previous

theorem Resolves.length_eq {previous : Int64} {ps : List (Int × Int)}
    {found : List FoundRelation} (h : Resolves nodes relations previous ps found) :
    found.length = ps.length := by
  induction h with
  | nil => rfl
  | along _ _ _ _ _ ih => rw [List.length_cons, List.length_cons, ih]
  | against _ _ _ _ _ ih => rw [List.length_cons, List.length_cons, ih]

/-- What pairs stand for is found by reading their indices. -/
theorem Resolves.eq_resolve {previous : Int64} {ps : List (Int × Int)}
    {found : List FoundRelation} (h : Resolves nodes relations previous ps found) :
    found = resolve nodes relations previous (ps.flatMap fun p => [p.1, p.2]) := by
  induction h with
  | nil => rfl
  | along relation node signed plain _ ih =>
    rw [signed, plain, List.flatMap_cons, List.cons_append, List.cons_append, List.nil_append,
      resolve_along relation node, ← ih]
  | against relation node signed plain _ ih =>
    rw [signed, plain, List.flatMap_cons, List.cons_append, List.cons_append, List.nil_append,
      resolve_against relation node, ← ih]

/-- **The longest row of pairs in range is read**, and nothing else. -/
theorem resolves_iff {previous : Int64} {indices : List Int} {found : List FoundRelation} :
    Resolves nodes relations previous (readPairs nodes relations indices) found ↔
      found = resolve nodes relations previous indices := by
  have hresolve := resolves_resolve nodes relations previous indices
  constructor
  · intro h
    exact h.eq_resolve.trans hresolve.eq_resolve.symm
  · rintro rfl
    exact hresolve

/-- Without nodes there is no pair in range. -/
theorem readPairs_nil (relations : List LooseRelation) (indices : List Int) :
    readPairs [] relations indices = [] := by
  have hout : ∀ p, ¬InRange [] relations p := by
    rintro p ⟨-, hnonneg, hlt⟩
    rw [List.length_nil] at hlt
    omega
  rw [readPairs]
  cases pairs indices with
  | nil => rfl
  | cons p ps => exact List.takeWhile_cons_of_neg (by simpa using hout p)

theorem length_relations (nodes : List Int64) (relations : List LooseRelation)
    (indices : List Int) :
    (Walk.relations nodes relations indices).length =
      (readPairs nodes relations indices).length := by
  cases nodes with
  | nil =>
    rw [readPairs_nil]
    rfl
  | cons first others => exact (resolves_resolve _ relations first indices).length_eq

/-! ### Paths -/

/-- **The relations of a path keep their direction.**  A path that is sent for a
walk has exactly the relations of its steps, in their order and with their own
ends, whichever way they are taken and however often nodes and relations come
back.  Any path has the relations of the longest row of pairs of indices in range,
each between the node before it and the node behind it. -/
theorem path_keepsDirection :
    (∀ {start : HeldNode} {steps : List Step} {nodes : List HeldNode}
      {relations : List HeldRelation} {indices : List Int64},
      Joined start.id steps → nodes.head? = some start →
      Encodes nodes relations steps indices →
      (Cell.path (nodes.map HeldNode.cell) (relations.map HeldRelation.cell)
        (indices.map Cell.integer)).datum =
        .path (nodes.map HeldNode.found) (steps.map fun s => s.relation.found)) ∧
    ∀ nodes relations indices : List Cell,
      let found := nodes.filterMap Cell.node?
      let ids := found.map FoundNode.id
      let loose := relations.filterMap Cell.loose?
      let read := readPairs ids loose (indices.filterMap Cell.integer?)
      ∃ shown, (Cell.path nodes relations indices).datum = .path found shown ∧
        shown.length = read.length ∧
        ∀ first ∈ ids.head?, ∀ others, Resolves ids loose first read others ↔ others = shown := by
  constructor
  · intro start steps nodes relations indices joined starts encodes
    exact datum_path joined starts encodes
  · intro nodes relations indices found ids loose read
    refine ⟨Walk.relations ids loose (indices.filterMap Cell.integer?), rfl,
      length_relations ids loose _, fun first hfirst others => ?_⟩
    obtain ⟨rest, hids⟩ := List.head?_eq_some_iff.1 (Option.mem_def.1 hfirst)
    rw [show read = readPairs ids loose (indices.filterMap Cell.integer?) from rfl, hids]
    exact resolves_iff

/-- There and back along one relation, and then once around a loop. -/
def backAndAround : List Step :=
  [⟨⟨7, 1, 2, "R", []⟩, true, ⟨2, [], []⟩⟩, ⟨⟨7, 1, 2, "R", []⟩, false, ⟨1, [], []⟩⟩,
    ⟨⟨8, 1, 1, "L", []⟩, true, ⟨1, [], []⟩⟩]

/-- The path of a walk whose first node is sent twice, and one by the same nodes and
relations, whose third pair of indices has no relation. -/
theorem path_keepsDirection_backAndAround :
    let nodes : List HeldNode := [⟨1, [], []⟩, ⟨2, [], []⟩, ⟨1, [], []⟩]
    let relations : List HeldRelation := [⟨7, 1, 2, "R", []⟩, ⟨8, 1, 1, "L", []⟩]
    let path := fun indices : List Int64 => Cell.path (nodes.map HeldNode.cell)
      (relations.map HeldRelation.cell) (indices.map Cell.integer)
    Joined 1 backAndAround ∧ nodes.head? = some ⟨1, [], []⟩ ∧
      Encodes nodes relations backAndAround [1, 1, -1, 2, 2, 0] ∧
      (path [1, 1, -1, 2, 2, 0]).datum = .path (nodes.map HeldNode.found)
        [⟨7, 1, 2, "R", []⟩, ⟨7, 1, 2, "R", []⟩, ⟨8, 1, 1, "L", []⟩] ∧
      (path [2, 0, -1, 1, 0, 0, 1]).datum = .path (nodes.map HeldNode.found)
        [⟨8, 1, 1, "L", []⟩, ⟨7, 2, 1, "R", []⟩] := by
  intro nodes relations path
  have joined : Joined 1 backAndAround :=
    .cons ⟨rfl, rfl⟩ (.cons ⟨rfl, rfl⟩ (.cons ⟨rfl, rfl⟩ (.nil 1)))
  have encodes : Encodes nodes relations backAndAround [1, 1, -1, 2, 2, 0] :=
    .cons (i := 0) (j := 1) rfl rfl (by decide) (by decide)
      (.cons (i := 0) (j := 2) rfl rfl (by decide) (by decide)
        (.cons (i := 1) (j := 0) rfl rfl (by decide) (by decide) .nil))
  have hnone : Cell.propertyJsons [] = [] := List.mergeSort_nil
  have hfound : backAndAround.map (fun s => s.relation.found) =
      [⟨7, 1, 2, "R", []⟩, ⟨7, 1, 2, "R", []⟩, ⟨8, 1, 1, "L", []⟩] := by
    simp only [backAndAround, List.map_cons, List.map_nil, HeldRelation.found, hnone]
  have hloose : relations.map HeldRelation.loose = [⟨7, "R", []⟩, ⟨8, "L", []⟩] := by
    simp only [relations, List.map_cons, List.map_nil, HeldRelation.loose, hnone]
  obtain ⟨shown, hdatum, -, hresolves⟩ := path_keepsDirection.2 (nodes.map HeldNode.cell)
    (relations.map HeldRelation.cell) ([2, 0, -1, 1, 0, 0, 1].map Cell.integer)
  have hread : Resolves [1, 2, 1] (relations.map HeldRelation.loose) 1 [(2, 0), (-1, 1)]
      [⟨8, 1, 1, "L", []⟩, ⟨7, 2, 1, "R", []⟩] := by
    rw [hloose]
    exact .along (i := 1) (j := 0) (r := ⟨8, "L", []⟩) rfl rfl (by decide) (by decide)
      (.against (i := 0) (j := 1) (r := ⟨7, "R", []⟩) rfl rfl (by decide) (by decide) (.nil 2))
  obtain rfl := (hresolves 1 rfl _).1 hread
  exact ⟨joined, rfl, encodes, hfound ▸ path_keepsDirection.1 joined rfl encodes, hdatum⟩

end PropertyGraph.Walk
