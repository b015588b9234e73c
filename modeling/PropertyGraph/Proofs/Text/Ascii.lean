/-
Facts about the characters of ASCII, by trying all of them.

* **`forall_ascii`** — what holds of the first 128 code points holds of every
  such character;
* **`isDigit_lt`** — digits are among them.
-/
namespace PropertyGraph.Text

/-- A statement about characters below a bound is one about finitely many. -/
theorem forall_ascii {P : Char → Prop} (h : ∀ n < 128, P (Char.ofNat n)) {c : Char}
    (hc : c.toNat < 128) : P c := by
  have hn := h c.toNat hc
  rwa [Char.ofNat_toNat] at hn

theorem isDigit_lt {c : Char} (hc : c.isDigit = true) : c.toNat < 128 := by
  simp only [Char.isDigit, Bool.and_eq_true, decide_eq_true_eq] at hc
  have hle : c.toNat ≤ 57 := hc.2
  omega

end PropertyGraph.Text
