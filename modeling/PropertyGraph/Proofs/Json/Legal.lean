/-
What the reader can make of a text.

Every number that is read is an integer of sixty-four bits, with or without a
sign, or a finite double.  The scanner makes no other numerals, so the trees that
are read from its tokens hold no others, and neither do their values.

* **`legal_of_value?`** — the value of a numeral;
* **`legal_of_read?`** — a tree that is read from a text;
* **`Tree.Legal.value?`** — the value of such a tree.
-/
import PropertyGraph.Json.Fields
import PropertyGraph.Proofs.Double.Finite
import PropertyGraph.Proofs.Json.RoundTrip

namespace PropertyGraph.Json

/-- All numbers are integers of sixty-four bits or finite doubles. -/
inductive Legal : Json → Prop
  | null : Legal .null
  | bool (b : Bool) : Legal (.bool b)
  | int {n : Int} (hlow : -(Nat.pow 2 63 : Nat) ≤ n) (hhigh : n < (Nat.pow 2 64 : Nat)) :
      Legal (.int n)
  | float {x : Double} (hfinite : x.isFinite = true) : Legal (.float x)
  | text (s : String) : Legal (.text s)
  | array {items : List Json} (hitems : ∀ v ∈ items, Legal v) : Legal (.array items)
  | object {members : List (String × Json)} (hmembers : ∀ m ∈ members, Legal m.2) :
      Legal (.object members)

/-! ### Numerals -/

theorem takeDigits_lt {significand : Nat} (h : significand < Nat.pow 2 64) (s : List Char) :
    (Numeral.takeDigits significand s).1 < Nat.pow 2 64 := by
  induction s generalizing significand with
  | nil => exact h
  | cons c s ih =>
    rw [Numeral.takeDigits]
    split
    · next hnext => exact ih hnext
    · exact h

theorem isFinite_of_double? {n : Numeral} {x : Double} (h : n.double? = some x) :
    x.isFinite = true := by
  have hfront := takeDigits_lt (Nat.two_pow_pos 64) n.whole
  have hsignificand := takeDigits_lt hfront n.fraction
  rw [Numeral.double?, Option.map_eq_some_iff] at h
  obtain ⟨y, hy, rfl⟩ := h
  have hfinite := Double.isFinite_of_scale (Double.isFinite_ofNat (Nat.le_of_lt hsignificand)) hy
  split
  · exact Double.isFinite_neg hfinite
  · exact hfinite

theorem legal_of_value? {n : Numeral} {v : Json} (h : n.value? = some v) : Legal v := by
  have hdouble : n.double?.map .float = some v → Legal v := fun h => by
    obtain ⟨x, hx, rfl⟩ := Option.map_eq_some_iff.1 h
    exact .float (isFinite_of_double? hx)
  have hpow : Nat.pow 2 63 < Nat.pow 2 64 := by decide
  rw [Numeral.value?] at h
  cases hsign : n.negative with
  | true =>
    simp only [hsign, if_true] at h
    split at h
    · next hint =>
      obtain ⟨-, -, hpos, hbound⟩ := hint
      rw [← Option.some.inj h]
      exact .int (by omega) (by omega)
    · exact hdouble h
  | false =>
    simp only [hsign, if_false, Bool.false_eq_true] at h
    split at h
    · next hint =>
      obtain ⟨-, -, hbound⟩ := hint
      rw [← Option.some.inj h]
      exact .int (by omega) (by omega)
    · exact hdouble h

/-! ### Tokens -/

/-- The number of a token is legal. -/
def Token.Legal (t : Token) : Prop := ∀ v, t = .number (some v) → v.Legal

theorem Token.legal_of_wordToken? {w : List Char} {t : Token} (h : wordToken? w = some t) :
    t.Legal := by
  rintro v rfl
  rw [wordToken?] at h
  split_ifs at h <;> simp at h
  obtain ⟨n, -, hv⟩ := h
  exact legal_of_value? hv

theorem Token.legal_of_textToken? {s : List Char} {t : Token} (h : textToken? s = some t) :
    t.Legal := by
  rintro v rfl
  rw [textToken?, Option.bind_eq_bind, Option.bind_eq_some_iff] at h
  obtain ⟨pieces, -, hnumber⟩ := h
  cases hnumber

theorem Token.legal_of_mark? {c : Char} {t : Token} (h : mark? c = some t) : t.Legal := by
  rintro v rfl
  rw [mark?.eq_def] at h
  split at h <;> cases h

/-- What every step of a partial fold keeps holds at its end. -/
theorem foldlM_induction {σ α : Type} {f : σ → α → Option σ} {P : σ → Prop} {Q : α → Prop}
    (hf : ∀ s a s', P s → Q a → f s a = some s' → P s') {l : List α} (hl : ∀ a ∈ l, Q a)
    {s s' : σ} (hs : P s) (h : l.foldlM f s = some s') : P s' := by
  induction l generalizing s with
  | nil => exact Option.some.inj h ▸ hs
  | cons a l ih =>
    obtain ⟨ha, hl⟩ := List.forall_mem_cons.1 hl
    rw [List.foldlM_cons, Option.bind_eq_bind, Option.bind_eq_some_iff] at h
    obtain ⟨next, hnext, h⟩ := h
    exact ih hl (hf s a next hs ha hnext) h

/-- All tokens found so far are legal. -/
def Scanner.Legal (scanner : Scanner) : Prop := ∀ t ∈ scanner.found, t.Legal

theorem Scanner.legal_of_enter {found : List Token} (hfound : ∀ t ∈ found, t.Legal) {c : Char}
    {scanner : Scanner} (h : enter found c = some scanner) : scanner.Legal := by
  rw [enter] at h
  split_ifs at h
  · exact Option.some.inj h ▸ hfound
  · exact Option.some.inj h ▸ hfound
  · exact Option.some.inj h ▸ hfound
  · obtain ⟨t, ht, rfl⟩ := Option.map_eq_some_iff.1 h
    exact List.forall_mem_cons.2 ⟨Token.legal_of_mark? ht, hfound⟩

theorem Scanner.Legal.step {scanner next : Scanner} (hs : scanner.Legal) {c : Char}
    (h : scanner.step c = some next) : next.Legal := by
  rw [Scanner.step] at h
  split at h
  · exact legal_of_enter hs h
  · split at h
    · exact Option.some.inj h ▸ hs
    · obtain ⟨t, ht, h⟩ := Option.bind_eq_some_iff.1 h
      exact legal_of_enter (List.forall_mem_cons.2 ⟨Token.legal_of_wordToken? ht, hs⟩) h
  · exact Option.some.inj h ▸ hs
  · split_ifs at h
    · obtain ⟨t, ht, h⟩ := Option.bind_eq_some_iff.1 h
      rw [← Option.some.inj h]
      exact List.forall_mem_cons.2 ⟨Token.legal_of_textToken? ht, hs⟩
    · exact Option.some.inj h ▸ hs

theorem Token.legal_of_tokens? {s : List Char} {ts : List Token} (h : tokens? s = some ts) :
    ∀ t ∈ ts, t.Legal := by
  obtain ⟨scanner, hscanner, hfinish⟩ := Option.bind_eq_some_iff.1 h
  have hstart : ({} : Scanner).Legal := List.forall_mem_nil _
  have hlegal : scanner.Legal := foldlM_induction (Q := fun _ => True)
    (fun _ _ _ hs _ hstep => Scanner.Legal.step hs hstep) (fun _ _ => trivial) hstart hscanner
  rw [Scanner.finish] at hfinish
  split at hfinish
  · rw [← Option.some.inj hfinish]
    exact fun t ht => hlegal t (List.mem_reverse.1 ht)
  · obtain ⟨t, ht, h⟩ := Option.bind_eq_some_iff.1 hfinish
    rw [← Option.some.inj h]
    intro t' ht'
    rcases List.mem_cons.1 (List.mem_reverse.1 ht') with rfl | ht'
    · exact legal_of_wordToken? ht
    · exact hlegal t' ht'
  · cases hfinish

/-! ### Trees -/

/-- All numbers in a tree are integers of sixty-four bits or finite doubles. -/
inductive Tree.Legal : Tree → Prop
  | null : Tree.Legal .null
  | bool (b : Bool) : Tree.Legal (.bool b)
  | int {n : Int} (hlow : -(Nat.pow 2 63 : Nat) ≤ n) (hhigh : n < (Nat.pow 2 64 : Nat)) :
      Tree.Legal (.int n)
  | float {x : Double} (hfinite : x.isFinite = true) : Tree.Legal (.float x)
  | text (s : String) : Tree.Legal (.text s)
  | array {items : List Tree} (hitems : ∀ t ∈ items, Tree.Legal t) : Tree.Legal (.array items)
  | object {members : List (String × Tree)} (hmembers : ∀ m ∈ members, Tree.Legal m.2) :
      Tree.Legal (.object members)
  | unreadable : Tree.Legal .unreadable

namespace Tree

/-- All that has been read of an open container is legal. -/
def Frame.Legal : Frame → Prop
  | .array items => ∀ t ∈ items, t.Legal
  | .object members _ => ∀ m ∈ members, m.2.Legal

/-- All that has been read so far is legal. -/
def State.Legal : State → Prop
  | .value frames | .firstItem frames | .firstKey frames => ∀ f ∈ frames, f.Legal
  | .key members frames | .colon members _ frames =>
    (∀ m ∈ members, m.2.Legal) ∧ ∀ f ∈ frames, f.Legal
  | .after t frames => t.Legal ∧ ∀ f ∈ frames, f.Legal

theorem legal_ofScalar {v : Option Json} (h : (Token.number v).Legal) : (ofScalar v).Legal := by
  cases v with
  | none => exact .unreadable
  | some v =>
    cases h v rfl with
    | int hlow hhigh => exact .int hlow hhigh
    | float hfinite => exact .float hfinite
    | _ => exact .unreadable

theorem legal_start {t : Token} (ht : t.Legal) {frames : List Frame}
    (hframes : ∀ f ∈ frames, f.Legal) {next : State} (h : State.start frames t = some next) :
    next.Legal := by
  rw [State.start.eq_def] at h
  split at h <;> cases h
  · exact ⟨.null, hframes⟩
  · exact ⟨.bool _, hframes⟩
  · exact ⟨legal_ofScalar ht, hframes⟩
  · exact ⟨.text _, hframes⟩
  · exact ⟨.unreadable, hframes⟩
  · exact hframes
  · exact hframes

theorem legal_close {t : Tree} (ht : t.Legal) {frames : List Frame}
    (hframes : ∀ f ∈ frames, f.Legal) : (close t frames).Legal := by
  refine ⟨?_, hframes⟩
  split
  · exact ht
  · exact .unreadable

theorem legal_closeArray {items : List Tree} (hitems : ∀ t ∈ items, t.Legal)
    {frames : List Frame} (hframes : ∀ f ∈ frames, f.Legal) :
    (closeArray items frames).Legal :=
  legal_close (.array fun t ht => hitems t (List.mem_reverse.1 ht)) hframes

theorem legal_closeObject {members : List (Option String × Tree)}
    (hmembers : ∀ m ∈ members, m.2.Legal) {frames : List Frame}
    (hframes : ∀ f ∈ frames, f.Legal) : (closeObject members frames).Legal := by
  rw [closeObject]
  split
  · next readable hreadable =>
    refine legal_close (.object fun m hm => ?_) hframes
    obtain ⟨named, hnamed, h⟩ := exists_of_mem_mapM hreadable m hm
    obtain ⟨k, -, rfl⟩ := Option.map_eq_some_iff.1 h
    exact hmembers named (List.mem_reverse.1 hnamed)
  · exact ⟨.unreadable, hframes⟩

theorem State.Legal.step {state next : State} (hs : state.Legal) {t : Token} (ht : t.Legal)
    (h : state.step t = some next) : next.Legal := by
  rw [State.step.eq_def] at h
  split at h
  · exact legal_start ht hs h
  · cases h
    exact legal_closeArray (List.forall_mem_nil _) hs
  · next frames _ _ =>
    have hopen : (Frame.array []).Legal := List.forall_mem_nil _
    exact legal_start ht (List.forall_mem_cons.2 ⟨hopen, hs⟩) h
  · cases h
    exact legal_closeObject (List.forall_mem_nil _) hs
  · cases h
    exact ⟨List.forall_mem_nil _, hs⟩
  · cases h
    exact hs
  · cases h
    exact List.forall_mem_cons.2 hs
  · cases h
    obtain ⟨hv, hframes⟩ := hs
    obtain ⟨hitems, hrest⟩ := List.forall_mem_cons.1 hframes
    exact List.forall_mem_cons.2 ⟨List.forall_mem_cons.2 ⟨hv, hitems⟩, hrest⟩
  · cases h
    obtain ⟨hv, hframes⟩ := hs
    obtain ⟨hitems, hrest⟩ := List.forall_mem_cons.1 hframes
    exact legal_closeArray (List.forall_mem_cons.2 ⟨hv, hitems⟩) hrest
  · cases h
    obtain ⟨hv, hframes⟩ := hs
    obtain ⟨hmembers, hrest⟩ := List.forall_mem_cons.1 hframes
    exact ⟨List.forall_mem_cons.2 ⟨hv, hmembers⟩, hrest⟩
  · cases h
    obtain ⟨hv, hframes⟩ := hs
    obtain ⟨hmembers, hrest⟩ := List.forall_mem_cons.1 hframes
    exact legal_closeObject (List.forall_mem_cons.2 ⟨hv, hmembers⟩) hrest
  · cases h

/-- All numbers that are read from a text are legal. -/
theorem legal_of_read? {s : String} {t : Tree} (h : read? s = some t) : t.Legal := by
  obtain ⟨ts, hts, hfold⟩ := read?_eq_some_iff.1 h
  have hstart : (State.value []).Legal := List.forall_mem_nil _
  have hend : (State.after t []).Legal := foldlM_induction
    (fun _ _ _ hs ht hstep => State.Legal.step hs ht hstep) (Token.legal_of_tokens? hts) hstart
    hfold
  exact hend.1

/-! ### Values -/

theorem legal_values? {items : List Tree}
    (h : ∀ t ∈ items, ∀ v, t.value? = some v → v.Legal) {vs : List Json}
    (hvs : values? items = some vs) : ∀ v ∈ vs, v.Legal := by
  induction items generalizing vs with
  | nil =>
    cases hvs
    exact List.forall_mem_nil _
  | cons t ts ih =>
    obtain ⟨ht, hrest⟩ := List.forall_mem_cons.1 h
    rw [values?] at hvs
    obtain ⟨v, hv, hvs⟩ := Option.bind_eq_some_iff.1 hvs
    obtain ⟨vs', hvs', hvs⟩ := Option.bind_eq_some_iff.1 hvs
    cases hvs
    exact List.forall_mem_cons.2 ⟨ht v hv, ih hrest hvs'⟩

theorem legal_memberValues? {members : List (String × Tree)}
    (h : ∀ m ∈ members, ∀ v, m.2.value? = some v → v.Legal) {ms : List (String × Json)}
    (hms : memberValues? members = some ms) : ∀ m ∈ ms, m.2.Legal := by
  induction members generalizing ms with
  | nil =>
    cases hms
    exact List.forall_mem_nil _
  | cons m members ih =>
    obtain ⟨k, t⟩ := m
    obtain ⟨ht, hrest⟩ := List.forall_mem_cons.1 h
    rw [memberValues?] at hms
    obtain ⟨v, hv, hms⟩ := Option.bind_eq_some_iff.1 hms
    obtain ⟨ms', hms', hms⟩ := Option.bind_eq_some_iff.1 hms
    cases hms
    exact List.forall_mem_cons.2 ⟨ht v hv, ih hrest hms'⟩

theorem Legal.value? {t : Tree} (h : t.Legal) {v : Json} (hv : t.value? = some v) : v.Legal := by
  induction h generalizing v with
  | array hitems ih =>
    rw [Tree.value?, Option.map_eq_some_iff] at hv
    obtain ⟨vs, hvs, rfl⟩ := hv
    exact .array (legal_values? (fun t ht v => ih t ht) hvs)
  | object hmembers ih =>
    rw [Tree.value?, Option.map_eq_some_iff] at hv
    obtain ⟨ms, hms, rfl⟩ := hv
    have hlegal := legal_memberValues? (fun m hm v => ih m hm) hms
    exact .object fun m hm => hlegal m (OrderedMap.mem_of_mem_ofList hm)
  | int hlow hhigh =>
    cases hv
    exact .int hlow hhigh
  | float hfinite =>
    cases hv
    exact .float hfinite
  | unreadable => cases hv
  | null | bool | text =>
    cases hv
    constructor

end Tree

end PropertyGraph.Json
