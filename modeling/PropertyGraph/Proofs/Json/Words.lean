/-
The words of printed JSON: names and numerals.

* **`scans_int`** — an integer that fits into sixty-four bits, with or without a
  sign, reads back;
* **`parse?_float_iff`**, **`scans_float`** — a finite double is printed as one
  word, so it reads back inside any text if it does by itself.
-/
import Mathlib.Data.Bool.AllAny
import Mathlib.Data.List.TakeWhile
import PropertyGraph.Json.Tree
import PropertyGraph.Proofs.Json.Scanning
import PropertyGraph.Proofs.Text.Numeral

namespace PropertyGraph.Json

theorem isWordPart_of_isDigit {c : Char} (hc : c.isDigit = true) : isWordPart c = true := by
  simp [isWordPart, Char.isAlphanum, hc]

theorem isWordPart_of_mem_toDigits {n : Nat} {c : Char} (hc : c ∈ Nat.toDigits 10 n) :
    isWordPart c = true :=
  isWordPart_of_isDigit (List.all_eq_true.1 (Text.all_isDigit_toDigits n) c hc)

/-! ### Integers -/

theorem isWordPart_toString (n : Int) : ∀ c ∈ (toString n).toList, isWordPart c = true := by
  intro c hc
  rcases Text.mem_toString_int hc with rfl | hc
  · decide
  · exact isWordPart_of_isDigit hc

/-- The digits of a number are a numeral without fraction and exponent, whatever
its sign. -/
theorem ofText?_toDigits (negative : Bool) (n : Nat) :
    Numeral.ofText? (if negative then '-' :: Nat.toDigits 10 n else Nat.toDigits 10 n) =
      some ⟨negative, Nat.toDigits 10 n, [], none⟩ := by
  have hall := Text.all_isDigit_toDigits n
  have htake : (Nat.toDigits 10 n).takeWhile Char.isDigit = Nat.toDigits 10 n :=
    List.takeWhile_eq_self_iff.2 (List.all_eq_true.1 hall)
  have hdrop : (Nat.toDigits 10 n).dropWhile Char.isDigit = [] :=
    List.dropWhile_eq_nil_iff.2 (List.all_eq_true.1 hall)
  have hzero : ¬((Nat.toDigits 10 n).head? = some '0' ∧ 1 < (Nat.toDigits 10 n).length) := by
    rintro ⟨hhead, hlength⟩
    rcases Nat.eq_zero_or_pos n with rfl | hn
    · exact absurd hlength (by decide)
    · exact Text.head?_toDigits_ne hn hhead
  have hsign : (Nat.toDigits 10 n).head? ≠ some '-' := by
    intro hhead
    have := List.all_eq_true.1 hall '-' (List.mem_of_head? hhead)
    exact absurd this (by decide)
  cases negative <;>
    simp [Numeral.ofText?, hsign, htake, hdrop, hzero, Nat.toDigits_ne_nil, Numeral.exponent?]

theorem ofText?_toString (n : Int) :
    Numeral.ofText? (toString n).toList =
      some ⟨decide (n < 0), Nat.toDigits 10 n.natAbs, [], none⟩ := by
  rw [Text.toList_toString_int, ← ofText?_toDigits]
  simp only [decide_eq_true_eq]

/-- An integer is its own value while it fits into sixty-four bits. -/
theorem value?_ofInt {n : Int} (hlow : -(Nat.pow 2 63 : Nat) ≤ n)
    (hhigh : n < (Nat.pow 2 64 : Nat)) :
    Numeral.value? ⟨decide (n < 0), Nat.toDigits 10 n.natAbs, [], none⟩ = some (.int n) := by
  rw [Numeral.value?]
  simp only [Text.digitsValue_toDigits, decide_eq_true_eq, true_and]
  by_cases hn : n < 0
  · rw [if_pos (by rw [if_pos hn]; omega), if_pos hn]
    congr 2
    omega
  · rw [if_pos (by rw [if_neg hn]; omega), if_neg hn]
    congr 2
    omega

/-- A name has a letter, so it is no integer. -/
theorem toString_ne {n : Int} {name : List Char} {c : Char} (hc : c ∈ name) (hsign : c ≠ '-')
    (hdigit : c.isDigit = false) : (toString n).toList ≠ name := by
  intro heq
  rcases Text.mem_toString_int (heq ▸ hc) with h | h
  · exact hsign h
  · exact absurd h (by rw [hdigit]; exact Bool.false_ne_true)

theorem wordToken?_toString {n : Int} (hlow : -(Nat.pow 2 63 : Nat) ≤ n)
    (hhigh : n < (Nat.pow 2 64 : Nat)) :
    wordToken? (toString n).toList = some (.number (some (.int n))) := by
  have hnull : (toString n).toList ≠ "null".toList :=
    toString_ne (c := 'l') (by decide) (by decide) (by decide)
  have htrue : (toString n).toList ≠ "true".toList :=
    toString_ne (c := 'e') (by decide) (by decide) (by decide)
  have hfalse : (toString n).toList ≠ "false".toList :=
    toString_ne (c := 'e') (by decide) (by decide) (by decide)
  rw [wordToken?, if_neg hnull, if_neg htrue, if_neg hfalse, ofText?_toString, Option.map_some,
    value?_ofInt hlow hhigh]

theorem scans_int {n : Int} (hlow : -(Nat.pow 2 63 : Nat) ≤ n) (hhigh : n < (Nat.pow 2 64 : Nat)) :
    Scans (toString n).toList [.number (some (.int n))] :=
  scans_word (isWordPart_toString n) (wordToken?_toString hlow hhigh)

/-! ### Doubles -/

theorem isWordPart_of_mem_digits {d : Decimal} {c : Char} (hc : c ∈ d.digits) :
    isWordPart c = true :=
  isWordPart_of_mem_toDigits hc

theorem isWordPart_plainText (keepsFraction : Bool) (d : Decimal) :
    ∀ c ∈ Double.plainText keepsFraction d, isWordPart c = true := by
  have hzeros : ∀ n, ∀ c ∈ List.replicate n '0', isWordPart c = true := fun n c hc =>
    List.eq_of_mem_replicate hc ▸ rfl
  rw [Double.plainText]
  split
  · simp only [List.forall_mem_append]
    refine ⟨⟨fun c => isWordPart_of_mem_digits, hzeros _⟩, ?_⟩
    split <;> exact List.all_iff_forall_prop.1 (by decide)
  · dsimp only
    split
    · simp only [List.forall_mem_append, List.forall_mem_cons]
      exact ⟨fun c hc => isWordPart_of_mem_digits (List.mem_of_mem_take hc), rfl,
        fun c hc => isWordPart_of_mem_digits (List.mem_of_mem_drop hc)⟩
    · simp only [List.cons_append, List.forall_mem_append, List.forall_mem_cons]
      exact ⟨rfl, rfl, hzeros _, fun c => isWordPart_of_mem_digits⟩

theorem isWordPart_exponentText (signsExponent : Bool) (d : Decimal) :
    ∀ c ∈ Double.exponentText signsExponent d, isWordPart c = true := by
  have hdigits : ∀ c ∈ d.digits, isWordPart c = true := fun c => isWordPart_of_mem_digits
  rw [Double.exponentText]
  simp only [List.forall_mem_append, List.forall_mem_cons]
  refine ⟨⟨?_, rfl, ?_⟩, fun c => isWordPart_of_mem_toDigits⟩
  · split
    · next c c' ds hds =>
      rw [hds, List.forall_mem_cons] at hdigits
      exact List.forall_mem_cons.2 ⟨hdigits.1, List.forall_mem_cons.2 ⟨by decide, hdigits.2⟩⟩
    · exact hdigits
  · split
    · exact List.all_iff_forall_prop.1 (by decide)
    · split <;> exact List.all_iff_forall_prop.1 (by decide)

/-- A finite double is printed as one word. -/
theorem isWordPart_text (l : Double.Layout) {x : Double} (hx : x.isFinite = true) :
    ∀ c ∈ (l.text x).toList, isWordPart c = true := by
  have hnan : x.isNaN = false := by
    simp only [Double.isFinite, Double.isNaN, decide_eq_true_eq, decide_eq_false_iff_not] at *
    omega
  rw [Double.Layout.text, hnan, if_neg Bool.false_ne_true, if_pos hx, String.toList_ofList]
  split
  · refine List.forall_mem_cons.2 ⟨rfl, ?_⟩
    split
    · exact isWordPart_plainText _ _
    · exact isWordPart_exponentText _ _
  · split
    · exact isWordPart_plainText _ _
    · exact isWordPart_exponentText _ _

/-- Only one token makes a value that is a double. -/
theorem eq_number_of_start {t : Token} {tree : Tree} {x : Double}
    (hstart : Tree.State.start [] t = some (.after tree []))
    (hvalue : tree.value? = some (.float x)) : t = .number (some (.float x)) := by
  -- A mark ends no value; any other token ends one of its own kind.
  cases t with
  | number v =>
    rw [Tree.State.start, Option.some.injEq, Tree.State.after.injEq] at hstart
    rw [← hstart.1] at hvalue
    rcases v with _ | ⟨_ | _ | _ | _ | _ | _ | _⟩ <;> simp_all [Tree.ofScalar, Tree.value?]
  | text s => cases s <;> cases hstart <;> simp [Tree.value?] at hvalue
  | _ => cases hstart <;> simp [Tree.value?] at hvalue

/-- A text is read by scanning it and folding its tokens. -/
theorem read?_eq_some_iff {s : String} {t : Tree} :
    Tree.read? s = some t ↔ ∃ ts, tokens? s.toList = some ts ∧
      ts.foldlM Tree.State.step (.value []) = some (.after t []) := by
  rw [Tree.read?, Option.bind_eq_bind, Option.bind_eq_some_iff]
  refine exists_congr fun ts => and_congr_right fun _ => ?_
  rw [Option.bind_eq_bind, Option.bind_eq_some_iff]
  constructor
  · rintro ⟨state, hstate, h⟩
    split at h
    · rw [hstate, Option.some.inj h]
    · cases h
  · exact fun h => ⟨_, h, rfl⟩

theorem isWordPart_compact_float {x : Double} (hx : x.isFinite = true) :
    ∀ c ∈ (compact (.float x)).toList, isWordPart c = true := by
  rw [compact]
  exact isWordPart_text .json hx

/-- A finite double reads back from its text just if the word that it is printed
as is read as the number. -/
theorem parse?_float_iff {x : Double} (hx : x.isFinite = true) :
    parse? (compact (.float x)) = some (.float x) ↔
      wordToken? (compact (.float x)).toList = some (.number (some (.float x))) := by
  have hword := isWordPart_compact_float hx
  constructor
  · intro hread
    obtain ⟨tree, htree, hvalue⟩ := Option.bind_eq_some_iff.1 hread
    obtain ⟨ts, hts, hfold⟩ := read?_eq_some_iff.1 htree
    have hne : (compact (.float x)).toList ≠ [] := by
      intro hnil
      rw [hnil] at hts
      cases hts
      cases hfold
    rw [tokens?_word hne hword, Option.map_eq_some_iff] at hts
    obtain ⟨t, ht, rfl⟩ := hts
    have hstart : Tree.State.start [] t = some (.after tree []) := by
      simpa [Tree.State.step] using hfold
    exact eq_number_of_start hstart hvalue ▸ ht
  · intro htoken
    have htokens : tokens? (compact (.float x)).toList = some [.number (some (.float x))] :=
      tokens?_of_scans (scans_word hword htoken)
    rw [parse?, read?_eq_some_iff.2 ⟨_, htokens, rfl⟩]
    rfl

/-- A word that reads as a double does so inside any text. -/
theorem scans_float {x : Double} (hx : x.isFinite = true)
    (hread : parse? (compact (.float x)) = some (.float x)) :
    Scans (compact (.float x)).toList [.number (some (.float x))] :=
  scans_word (isWordPart_compact_float hx) ((parse?_float_iff hx).1 hread)

end PropertyGraph.Json
