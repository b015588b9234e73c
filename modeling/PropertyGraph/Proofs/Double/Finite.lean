/-
Which results of arithmetic on doubles are finite.

A ratio that is no larger than the largest double is rounded to a finite one.
Division by a number that is no smaller than one keeps below that bound, and so
does every number that fits into sixty-four bits.

* **`isFinite_ofRatio`** — that bound;
* **`isFinite_div`**, **`isFinite_ofNat`**, **`isFinite_ofInt`** — its uses;
* **`unitsPerOne_le_units_powerOfTen`** — no power of ten is smaller than one;
* **`isFinite_of_scale`** — so a double times a power of ten is finite, where it has
  a value.
-/
import PropertyGraph.Json.Numeral

namespace PropertyGraph

/-- What is at most a multiple of the divisor is rounded to no more than the
factor. -/
theorem roundDiv_le {n d m : Nat} (hd : 0 < d) (h : n ≤ m * d) : roundDiv n d ≤ m := by
  have hdiv : n / d ≤ m := Nat.div_le_of_le_mul (Nat.mul_comm m d ▸ h)
  rcases Nat.lt_or_eq_of_le hdiv with hlt | heq
  · rw [roundDiv]
    split
    · omega
    · split <;> omega
  · -- Nothing is left over, so the quotient is exact.
    have hrest : n % d = 0 := by
      have := Nat.div_add_mod n d
      rw [heq, Nat.mul_comm] at this
      omega
    rw [roundDiv, hrest, if_pos (by omega)]
    exact hdiv

namespace Double

theorem binade_pos (n : Nat) : 0 < Nat.pow 2 n := Nat.two_pow_pos n

theorem binade_le_binade {m n : Nat} (h : m ≤ n) : Nat.pow 2 m ≤ Nat.pow 2 n :=
  Nat.pow_le_pow_right (by decide) h

theorem binade_add (m n : Nat) : Nat.pow 2 m * Nat.pow 2 n = Nat.pow 2 (m + n) :=
  (Nat.pow_add 2 m n).symm

theorem le_log2_of_binade_le {k n : Nat} (h : Nat.pow 2 k ≤ n) : k ≤ n.log2 :=
  (Nat.le_log2 (Nat.ne_zero_of_lt (Nat.lt_of_lt_of_le (binade_pos k) h))).2 h

/-- The binade of the largest finite doubles. -/
def topBinade : Nat := 2045

/-- The largest finite double, counted in smallest units. -/
def maxUnits : Nat := (Nat.pow 2 53 - 1) * Nat.pow 2 topBinade

theorem magnitude_ofWord (negative : Bool) {word : Nat} (h : word < Nat.pow 2 63) :
    (ofWord negative word).magnitude = word := by
  have hpow : Nat.pow 2 63 = 2 ^ 63 := rfl
  rw [hpow] at h
  simp only [magnitude, ofWord, UInt64.toNat_ofNat']
  cases negative <;> simp only [hpow, Bool.false_eq_true, if_false, if_true] <;> omega

theorem isFinite_ofWord (negative : Bool) {word : Nat} (h : word < infinityWord) :
    (ofWord negative word).isFinite = true := by
  have hinfinity : infinityWord < Nat.pow 2 63 := by decide
  rw [isFinite, magnitude_ofWord negative (Nat.lt_trans h hinfinity)]
  exact decide_eq_true h

theorem isFinite_neg {x : Double} (h : x.isFinite = true) : (-x).isFinite = true :=
  isFinite_ofWord _ (of_decide_eq_true h)

theorem units_le_maxUnits {x : Double} (h : x.isFinite = true) : x.units ≤ maxUnits := by
  have hword : x.magnitude < infinityWord := of_decide_eq_true h
  have hpow : Nat.pow 2 52 = 4503599627370496 := rfl
  have hsignificand : x.significand ≤ Nat.pow 2 53 - 1 := by
    have hpow' : Nat.pow 2 53 = 9007199254740992 := rfl
    rw [significand, exponentField, hpow, hpow']
    split <;> omega
  have hbinade : x.binade ≤ topBinade := by
    rw [binade, exponentField, hpow, topBinade]
    rw [infinityWord, hpow] at hword
    omega
  rw [units, maxUnits]
  exact Nat.mul_le_mul hsignificand (binade_le_binade hbinade)

theorem log2_lt_of_le_maxUnits {q : Nat} (h : q ≤ maxUnits) : q.log2 < topBinade + 53 := by
  have hmax : maxUnits < 2 ^ (topBinade + 53) := by decide +kernel
  by_cases hq : q = 0
  · rw [hq, Nat.log2_zero]
    decide
  · exact (Nat.log2_lt hq).2 (Nat.lt_of_le_of_lt h hmax)

/-- In the binade of a quotient, the quotient has at most fifty-three bits. -/
theorem roundDiv_binade_le {n d : Nat} (hd : 0 < d) :
    roundDiv n (d * Nat.pow 2 ((n / d).log2 - 52)) ≤ Nat.pow 2 53 := by
  refine roundDiv_le (Nat.mul_pos hd (binade_pos _)) ?_
  calc n ≤ (n / d + 1) * d := by
        rw [Nat.mul_comm]
        exact Nat.le_of_lt (Nat.lt_mul_div_succ n hd)
    _ ≤ 2 ^ ((n / d).log2 + 1) * d := Nat.mul_le_mul_right d Nat.lt_log2_self
    _ ≤ 2 ^ (53 + ((n / d).log2 - 52)) * d :=
        Nat.mul_le_mul_right d (Nat.pow_le_pow_right (by decide) (by omega))
    _ = Nat.pow 2 53 * (d * Nat.pow 2 ((n / d).log2 - 52)) := by
        rw [Nat.pow_add, Nat.mul_assoc, Nat.mul_comm (2 ^ _) d]
        rfl

/-- A ratio that is no larger than the largest double is rounded to a finite
one. -/
theorem isFinite_ofRatio (negative : Bool) {num den : Nat} (hden : 0 < den)
    (h : num * unitsPerOne ≤ maxUnits * den) : (ofRatio negative num den).isFinite = true := by
  have hbits := roundDiv_binade_le (n := num * unitsPerOne) hden
  have hlog : (num * unitsPerOne / den).log2 < topBinade + 53 := by
    rw [Nat.mul_comm maxUnits] at h
    exact log2_lt_of_le_maxUnits (Nat.div_le_of_le_mul h)
  rw [ofRatio]
  generalize num * unitsPerOne = scaled at *
  refine isFinite_ofWord _ (Nat.lt_of_le_of_lt (Nat.min_le_left _ _) ?_)
  have hpow : Nat.pow 2 52 = 4503599627370496 := rfl
  have hpow' : Nat.pow 2 53 = 9007199254740992 := rfl
  rw [infinityWord, hpow]
  by_cases htop : (scaled / den).log2 - 52 = topBinade
  · -- In the last binade there is room for all but the last significand.
    have hlast : roundDiv scaled (den * Nat.pow 2 topBinade) ≤ Nat.pow 2 53 - 1 := by
      refine roundDiv_le (Nat.mul_pos hden (binade_pos _)) ?_
      rwa [Nat.mul_comm den, ← Nat.mul_assoc]
    rw [htop, topBinade] at *
    omega
  · rw [topBinade] at *
    omega

theorem isFinite_div {x y : Double} (hx : x.isFinite = true) (hy : unitsPerOne ≤ y.units) :
    (x.div y).isFinite = true := by
  have hpos : 0 < unitsPerOne := by decide +kernel
  exact isFinite_ofRatio _ (Nat.lt_of_lt_of_le hpos hy)
    (Nat.mul_le_mul (units_le_maxUnits hx) hy)

/-- Whatever fits into sixty-four bits is far from the largest double. -/
theorem isFinite_ofRatio_one (negative : Bool) {n : Nat} (h : n ≤ Nat.pow 2 64) :
    (ofRatio negative n 1).isFinite = true := by
  have hbound : Nat.pow 2 64 * unitsPerOne ≤ maxUnits := by decide +kernel
  refine isFinite_ofRatio _ Nat.one_pos ?_
  rw [Nat.mul_one]
  exact Nat.le_trans (Nat.mul_le_mul_right unitsPerOne h) hbound

theorem isFinite_ofNat {n : Nat} (h : n ≤ Nat.pow 2 64) : (ofNat n).isFinite = true :=
  isFinite_ofRatio_one false h

theorem isFinite_ofInt {n : Int} (h : n.natAbs ≤ Nat.pow 2 64) : (ofInt n).isFinite = true :=
  isFinite_ofRatio_one _ h

/-! ### Powers of ten -/

theorem le_roundDiv {n d m : Nat} (hd : 0 < d) (h : m * d ≤ n) : m ≤ roundDiv n d := by
  have hdiv : m ≤ n / d := (Nat.le_div_iff_mul_le hd).2 h
  rw [roundDiv]
  split
  · exact hdiv
  · split <;> omega

/-- The binade of one. -/
def oneBinade : Nat := 1022

theorem unitsPerOne_eq : unitsPerOne = Nat.pow 2 52 * Nat.pow 2 oneBinade := by
  decide +kernel

/-- From the word of one on, doubles are no smaller than one. -/
theorem unitsPerOne_le_units {x : Double} (h : (oneBinade + 1) * Nat.pow 2 52 ≤ x.magnitude) :
    unitsPerOne ≤ x.units := by
  have hfield : oneBinade + 1 ≤ x.exponentField := (Nat.le_div_iff_mul_le (by decide)).2 h
  have hsignificand : Nat.pow 2 52 ≤ x.significand := by
    rw [significand, if_neg (by omega)]
    exact Nat.le_add_right _ _
  have hbinade : oneBinade ≤ x.binade := Nat.le_sub_of_add_le hfield
  rw [unitsPerOne_eq, units]
  exact Nat.mul_le_mul hsignificand (binade_le_binade hbinade)

theorem unitsPerOne_le_units_ofNat {n : Nat} (hn : 0 < n) : unitsPerOne ≤ (ofNat n).units := by
  have hscaled : Nat.pow 2 (52 + oneBinade) ≤ n * unitsPerOne := by
    rw [← binade_add, ← unitsPerOne_eq]
    exact Nat.le_mul_of_pos_left _ hn
  have hpos : 0 < n * unitsPerOne := Nat.lt_of_lt_of_le (binade_pos _) hscaled
  have hne := Nat.ne_zero_of_lt hpos
  have hlog := le_log2_of_binade_le hscaled
  have hself := Nat.log2_self_le hne
  rw [ofNat, ofRatio, Nat.div_one, Nat.one_mul]
  generalize n * unitsPerOne = scaled at *
  -- The leading bit of the quotient is the leading bit of the significand.
  have hround : Nat.pow 2 52 ≤ roundDiv scaled (Nat.pow 2 (scaled.log2 - 52)) := by
    refine le_roundDiv (binade_pos _) (Nat.le_trans (Nat.le_of_eq ?_) hself)
    have hbits : scaled.log2 = 52 + (scaled.log2 - 52) := by omega
    rw [binade_add, ← hbits]
    rfl
  have hbinade : oneBinade * Nat.pow 2 52 ≤ (scaled.log2 - 52) * Nat.pow 2 52 :=
    Nat.mul_le_mul_right _ (Nat.le_sub_of_add_le (Nat.add_comm 52 _ ▸ hlog))
  have hinfinity : (oneBinade + 1) * Nat.pow 2 52 ≤ infinityWord ∧
      infinityWord < Nat.pow 2 63 := by decide
  refine unitsPerOne_le_units ?_
  rw [magnitude_ofWord false (Nat.lt_of_le_of_lt (Nat.min_le_right _ _) hinfinity.2)]
  refine Nat.le_min.2 ⟨?_, hinfinity.1⟩
  rw [Nat.succ_mul]
  exact Nat.add_le_add hbinade hround

/-- No power of ten is smaller than one. -/
theorem unitsPerOne_le_units_powerOfTen (n : Nat) : unitsPerOne ≤ (powerOfTen n).units :=
  unitsPerOne_le_units_ofNat (Nat.pow_pos (by decide))

theorem isFinite_divPowerOfTen {steps n : Nat} {x : Double} (hx : x.isFinite = true)
    (hn : n ≤ maxPower * (steps + 1)) : (divPowerOfTen steps n x).isFinite = true := by
  induction steps generalizing n x with
  | zero => exact isFinite_div hx (unitsPerOne_le_units_powerOfTen n)
  | succ steps ih =>
    rw [divPowerOfTen]
    split
    · exact hx
    · refine ih (isFinite_div hx (unitsPerOne_le_units_powerOfTen maxPower)) ?_
      rw [Nat.mul_succ] at hn
      omega

/-- A finite double times a power of ten is finite, where it has a value. -/
theorem isFinite_of_scale {x y : Double} {e : Int} (hx : x.isFinite = true)
    (h : x.scale e = some y) : y.isFinite = true := by
  rw [scale] at h
  split at h
  · rw [Option.some.injEq] at h
    rw [← h]
    refine isFinite_divPowerOfTen hx ?_
    have hpower : maxPower = 308 := rfl
    rw [hpower]
    omega
  · split at h
    · dsimp only at h
      split at h
      · next hy => exact Option.some.inj h ▸ hy
      · cases h
    · split at h
      · exact Option.some.inj h ▸ hx
      · cases h

end Double

end PropertyGraph
