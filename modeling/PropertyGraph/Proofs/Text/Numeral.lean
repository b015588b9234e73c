/-
The decimal digits of a number, written and read.

* **`digitsValue_toDigits`** — the digits of a number have its value;
* **`head?_toDigits_ne`** — no needless zero stands in front of them;
* **`toDigits_digitsValue`** — digits without such a zero are those of their
  value;
* **`toList_toString_int`** — the text of an integer is its digits, with a minus
  sign if it is negative;
* **`intOfDigits?_toString`** — it is read back;
* **`toString_int_inj`** — so no two integers have one text.
-/
import Mathlib.Data.List.Induction
import PropertyGraph.Proofs.Text.Ascii
import PropertyGraph.Text.Numeral

namespace PropertyGraph.Text

theorem digitsValue_cons (acc : Nat) (c : Char) (s : List Char) :
    digitsValue acc (c :: s) = digitsValue (acc * 10 + (c.toNat - '0'.toNat)) s := by rfl

theorem digitsValue_eq_ofDigitChars (acc : Nat) (s : List Char) :
    digitsValue acc s = Nat.ofDigitChars 10 s acc := by
  induction s generalizing acc with
  | nil =>
    rw [Nat.ofDigitChars_nil]
    rfl
  | cons c s ih => rw [digitsValue_cons, ih, Nat.ofDigitChars_cons, Nat.mul_comm]

theorem digitsValue_toDigits (n : Nat) : digitsValue 0 (Nat.toDigits 10 n) = n := by
  rw [digitsValue_eq_ofDigitChars, Nat.ofDigitChars_ten_toDigits]

theorem all_isDigit_toDigits (n : Nat) : (Nat.toDigits 10 n).all Char.isDigit = true :=
  List.all_eq_true.2 fun _ hc => Nat.isDigit_of_mem_toDigits (by decide) (by decide) hc

theorem head?_toDigits_ne {n : Nat} (hn : 0 < n) : (Nat.toDigits 10 n).head? ≠ some '0' := by
  induction n using Nat.strongRecOn with
  | ind n ih =>
    rw [Nat.toDigits_eq_if (by decide)]
    split
    · next hlt =>
      have hdigit : ∀ m < 10, 0 < m → Nat.digitChar m ≠ '0' := by decide
      simpa using hdigit n hlt hn
    · next hle =>
      have hfront := ih (n / 10) (by omega) (by omega)
      obtain ⟨c, ds, hds⟩ := List.exists_cons_of_ne_nil
        (Nat.toDigits_ne_nil (n := n / 10) (b := 10))
      rw [hds] at hfront ⊢
      exact hfront

/-- The induction takes digits away from the end, as writing a number does. -/
theorem toDigits_digitsValue {s : List Char} (hne : s ≠ []) (hdigits : s.all Char.isDigit = true)
    (hzero : s.head? ≠ some '0') : Nat.toDigits 10 (digitsValue 0 s) = s := by
  have hchar : ∀ c : Char, c.isDigit = true →
      c.toNat - '0'.toNat < 10 ∧ Nat.digitChar (c.toNat - '0'.toNat) = c := by
    intro c hc
    exact forall_ascii (P := fun c => c.isDigit = true →
      c.toNat - '0'.toNat < 10 ∧ Nat.digitChar (c.toNat - '0'.toNat) = c) (by decide)
      (isDigit_lt hc) hc
  rw [digitsValue_eq_ofDigitChars]
  induction s using List.reverseRecOn with
  | nil => exact absurd rfl hne
  | append_singleton s c ih =>
    rw [List.all_append, Bool.and_eq_true] at hdigits
    obtain ⟨hlt, hc⟩ := hchar c (by simpa using hdigits.2)
    rw [Nat.ofDigitChars_append, Nat.ofDigitChars_cons, Nat.ofDigitChars_nil]
    by_cases hs : s = []
    · subst hs
      rw [Nat.ofDigitChars_nil, Nat.mul_zero, Nat.zero_add, Nat.toDigits_of_lt_base hlt, hc]
      rfl
    · have hhead : (s ++ [c]).head? = s.head? := by
        rw [List.head?_append, Option.or_of_isSome (List.isSome_head?.2 hs)]
      have hfront := ih hs hdigits.1 (hhead ▸ hzero)
      -- What the digits in front are worth is not zero, as it is not written so.
      have hpos : 0 < Nat.ofDigitChars 10 s 0 := by
        refine Nat.pos_of_ne_zero fun h => hzero ?_
        rw [hhead, ← hfront, h]
        rfl
      have hdiv : (10 * Nat.ofDigitChars 10 s 0 + (c.toNat - '0'.toNat)) / 10 =
          Nat.ofDigitChars 10 s 0 := by omega
      have hmod : (10 * Nat.ofDigitChars 10 s 0 + (c.toNat - '0'.toNat)) % 10 =
          c.toNat - '0'.toNat := by omega
      rw [Nat.toDigits_eq_if (by decide), if_neg (by omega), hdiv, hmod, hfront, hc]

theorem toList_toString_nat (n : Nat) : (toString n).toList = Nat.toDigits 10 n := by
  rw [Nat.toString_eq_repr, Nat.toList_repr]

theorem toList_toString_int (n : Int) : (toString n).toList =
    if n < 0 then '-' :: Nat.toDigits 10 n.natAbs else Nat.toDigits 10 n.natAbs := by
  rw [Int.toString_eq_repr, Int.repr_eq_if]
  by_cases hn : n < 0
  · have habs : (-n).toNat = n.natAbs := by omega
    rw [if_neg (by omega), if_pos hn, String.toList_append, Nat.toList_repr, habs]
    rfl
  · have habs : n.toNat = n.natAbs := by omega
    rw [if_pos (by omega), if_neg hn, Nat.toList_repr, habs]

theorem mem_toString_int {n : Int} {c : Char} (hc : c ∈ (toString n).toList) :
    c = '-' ∨ c.isDigit = true := by
  have hdigits : ∀ c ∈ Nat.toDigits 10 n.natAbs, c.isDigit = true :=
    List.all_eq_true.1 (all_isDigit_toDigits _)
  rw [toList_toString_int] at hc
  split at hc
  · exact (List.mem_cons.1 hc).imp_right (hdigits c)
  · exact .inr (hdigits c hc)

theorem natOfDigits?_eq_some_iff {s : List Char} {n : Nat} :
    natOfDigits? s = some n ↔
      s ≠ [] ∧ s.all Char.isDigit = true ∧ n = Nat.ofDigitChars 10 s 0 := by
  rw [natOfDigits?, Option.ite_none_right_eq_some, Option.some.injEq,
    digitsValue_eq_ofDigitChars, and_assoc, eq_comm (a := Nat.ofDigitChars 10 s 0)]

theorem all_isDigit_of_natOfDigits? {s : List Char} {n : Nat} (h : natOfDigits? s = some n) :
    s.all Char.isDigit = true :=
  (natOfDigits?_eq_some_iff.1 h).2.1

/-- Only the first character of an integer can be a sign. -/
theorem all_isDigit_of_intOfDigits? {c : Char} {s : List Char} {n : Int}
    (h : intOfDigits? (c :: s) = some n) : s.all Char.isDigit = true := by
  rw [intOfDigits?.eq_def] at h
  split at h
  · next digits heq =>
    cases hm : natOfDigits? digits with
    | none => simp [hm] at h
    | some m => exact (List.cons.inj heq).2 ▸ all_isDigit_of_natOfDigits? hm
  · next digits heq =>
    cases hm : natOfDigits? digits with
    | none => simp [hm] at h
    | some m => exact (List.cons.inj heq).2 ▸ all_isDigit_of_natOfDigits? hm
  · cases hm : natOfDigits? (c :: s) with
    | none => simp [hm] at h
    | some m =>
      have hall := all_isDigit_of_natOfDigits? hm
      rw [List.all_cons, Bool.and_eq_true] at hall
      exact hall.2

/-- Digits alone write a number that is not negative. -/
theorem intOfDigits?_of_all_isDigit {s : List Char} (hne : s ≠ [])
    (h : s.all Char.isDigit = true) : intOfDigits? s = some (digitsValue 0 s : Int) := by
  have hhead : ∀ c ∈ s, c ≠ '-' ∧ c ≠ '+' := by
    intro c hc
    have hdigit := List.all_eq_true.1 h c hc
    constructor <;> rintro rfl <;> exact absurd hdigit (by decide)
  rw [intOfDigits?.eq_def]
  split
  · exact absurd rfl (hhead '-' List.mem_cons_self).1
  · exact absurd rfl (hhead '+' List.mem_cons_self).2
  · rw [natOfDigits?, if_pos ⟨hne, h⟩]
    rfl

theorem intOfDigits?_toString (n : Int) : intOfDigits? (toString n).toList = some n := by
  have hall := all_isDigit_toDigits n.natAbs
  rw [toList_toString_int]
  split
  · rw [intOfDigits?, natOfDigits?, if_pos ⟨Nat.toDigits_ne_nil, hall⟩, digitsValue_toDigits]
    show some (-(n.natAbs : Int)) = some n
    exact congrArg some (by omega)
  · rw [intOfDigits?_of_all_isDigit Nat.toDigits_ne_nil hall, digitsValue_toDigits]
    exact congrArg some (Int.natAbs_of_nonneg (by omega))

/-- Different integers have different texts, as each is read back. -/
theorem toString_int_inj {m n : Int} : toString m = toString n ↔ m = n := by
  constructor
  · intro h
    have hread := intOfDigits?_toString n
    rw [← h, intOfDigits?_toString] at hread
    exact Option.some.inj hread
  · rintro rfl
    rfl

end PropertyGraph.Text
