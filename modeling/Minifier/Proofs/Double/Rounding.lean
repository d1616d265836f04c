import Mathlib.Algebra.Order.Field.Rat
import Mathlib.Tactic.FieldSimp
import Mathlib.Tactic.Linarith
import Mathlib.Tactic.Ring
import Minifier.Double.Decimal

/-!
# Rounding to the nearest double

The magnitudes that round to a given code are those between the midpoints to its two neighbours,
the midpoints included exactly if the code is even. `nearestCode` finds that code from any fraction
in between, and so does reading a numeral whose exponent is not far out of range.

A code is `k * 2 ^ 52 + m` for a shift `k` and a significand `m` below `2 ^ 53`, and its magnitude
is `m * 2 ^ k` units. The same formula holds at `m = 2 ^ 53`, which is the code one shift further.
-/

namespace Minifier

/-- The rational number that a numeral denotes. -/
def Decimal.value (d : Decimal) : ℚ :=
  d.coefficient * (10 : ℚ) ^ d.exponent

namespace Double

/-- Whether `x` units lie between the midpoints around a code; a midpoint itself goes to the even
code. -/
def RoundsTo (x : ℚ) (code : Nat) : Prop :=
  let low : ℚ := unitsOfCode (code - 1) + unitsOfCode code
  let high : ℚ := unitsOfCode code + unitsOfCode (code + 1)
  if code % 2 = 0 then low ≤ 2 * x ∧ 2 * x ≤ high else low < 2 * x ∧ 2 * x < high

/-- What rounds to a code lies between the midpoints around it, or on one of them. -/
theorem RoundsTo.bounds {x : ℚ} {code : Nat} (near : RoundsTo x code) :
    (unitsOfCode (code - 1) + unitsOfCode code : ℚ) ≤ 2 * x ∧
      2 * x ≤ unitsOfCode code + unitsOfCode (code + 1) := by
  unfold RoundsTo at near
  split at near
  · exact near
  · exact ⟨near.1.le, near.2.le⟩

/-- Strictly between the midpoints the parity of the code does not matter. -/
theorem roundsTo_of_lt {x : ℚ} {code : Nat}
    (low : (unitsOfCode (code - 1) + unitsOfCode code : ℚ) < 2 * x)
    (high : 2 * x < unitsOfCode code + unitsOfCode (code + 1)) : RoundsTo x code := by
  unfold RoundsTo
  split
  · exact ⟨low.le, high.le⟩
  · exact ⟨low, high⟩

/-! ## Codes and magnitudes -/

/-- The shift of a code. -/
def shiftOf (code : Nat) : Nat := code / 2 ^ 52 - 1

/-- The significand of a code. -/
def significandOf (code : Nat) : Nat := code - shiftOf code * 2 ^ 52

/-- A code is made up of its shift and its significand. -/
theorem shift_significand (code : Nat) : shiftOf code * 2 ^ 52 + significandOf code = code := by
  unfold significandOf shiftOf
  omega

/-- A significand has at most 53 bits. -/
theorem significandOf_lt (code : Nat) : significandOf code < 2 ^ 53 := by
  unfold significandOf shiftOf
  omega

/-- Only codes without a shift may have a small significand. -/
theorem le_significandOf {code : Nat} (shifted : shiftOf code ≠ 0) :
    2 ^ 52 ≤ significandOf code := by
  unfold significandOf shiftOf at *
  omega

/-- The magnitude of a code is its significand, shifted. -/
theorem unitsOfCode_eq (k m : Nat) (full : k = 0 ∨ 2 ^ 52 ≤ m) (le : m ≤ 2 ^ 53) :
    unitsOfCode (k * 2 ^ 52 + m) = m * 2 ^ k := by
  unfold unitsOfCode
  by_cases small : k * 2 ^ 52 + m < 2 ^ 52
  · obtain rfl : k = 0 := by omega
    simp only [Nat.zero_mul, Nat.zero_add, Nat.pow_zero, Nat.mul_one] at small ⊢
    rw [if_pos small]
  · rw [if_neg small]
    rcases Nat.lt_or_eq_of_le le with lt | rfl
    · have quotient : (k * 2 ^ 52 + m) / 2 ^ 52 - 1 = k := by omega
      have rest : 2 ^ 52 + (k * 2 ^ 52 + m) % 2 ^ 52 = m := by omega
      rw [quotient, rest]
    · have quotient : (k * 2 ^ 52 + 2 ^ 53) / 2 ^ 52 - 1 = k + 1 := by omega
      have rest : (k * 2 ^ 52 + 2 ^ 53) % 2 ^ 52 = 0 := by omega
      rw [quotient, rest, Nat.pow_succ]
      omega

/-- The magnitude of a code and of the two codes around it. -/
structure Neighbours (code k m : Nat) : Prop where
  code_eq : k * 2 ^ 52 + m = code
  lt : m < 2 ^ 53
  full : k = 0 ∨ 2 ^ 52 ≤ m
  units : unitsOfCode code = m * 2 ^ k
  above : unitsOfCode (code + 1) = (m + 1) * 2 ^ k

/-- Every code has the magnitude that its parts tell, and so have the codes around it. -/
theorem neighbours (code : Nat) : Neighbours code (shiftOf code) (significandOf code) := by
  have eq := shift_significand code
  have lt := significandOf_lt code
  have full : shiftOf code = 0 ∨ 2 ^ 52 ≤ significandOf code := by
    by_cases shifted : shiftOf code = 0
    · exact .inl shifted
    · exact .inr (le_significandOf shifted)
  refine ⟨eq, lt, full, ?_, ?_⟩
  · nth_rewrite 1 [← eq]
    exact unitsOfCode_eq _ _ full lt.le
  · have next : shiftOf code * 2 ^ 52 + (significandOf code + 1) = code + 1 := by omega
    rw [← next]
    exact unitsOfCode_eq _ _ (full.imp_right Nat.le_succ_of_le) lt

/-- Below a code the distance is that above it, except at a power of two, where it is half. -/
theorem Neighbours.below {code k m : Nat} (near : Neighbours code k m) (pos : 0 < code) :
    (k = 0 ∨ 2 ^ 52 < m) ∧ unitsOfCode (code - 1) + 2 ^ k = unitsOfCode code ∨
      ∃ j, k = j + 1 ∧ m = 2 ^ 52 ∧ unitsOfCode (code - 1) + 2 ^ j = unitsOfCode code := by
  have eq := near.code_eq
  by_cases edge : k ≠ 0 ∧ m = 2 ^ 52
  · obtain ⟨shifted, rfl⟩ := edge
    obtain ⟨j, rfl⟩ := Nat.exists_eq_add_one_of_ne_zero shifted
    obtain ⟨n, last⟩ : ∃ n, n + 1 = 2 ^ 53 := ⟨2 ^ 53 - 1, by norm_num⟩
    have prev : j * 2 ^ 52 + n = code - 1 := by grind
    refine .inr ⟨j, rfl, rfl, ?_⟩
    rw [← prev, unitsOfCode_eq _ _ (.inr (by omega)) (by omega), near.units, ← Nat.succ_mul,
      Nat.succ_eq_add_one, last, Nat.pow_succ]
    omega
  · have full := near.full
    have lt := near.lt
    have prev : k * 2 ^ 52 + (m - 1) = code - 1 := by omega
    refine .inl ⟨by omega, ?_⟩
    rw [← prev, unitsOfCode_eq _ _ (by omega) (by omega), near.units, ← Nat.succ_mul]
    congr 1
    omega

/-- The code below has a smaller magnitude. -/
theorem Neighbours.below_lt {code k m : Nat} (near : Neighbours code k m) (pos : 0 < code) :
    unitsOfCode (code - 1) < unitsOfCode code := by
  rcases near.below pos with ⟨-, below⟩ | ⟨j, -, -, below⟩
  · have := Nat.two_pow_pos k
    omega
  · have := Nat.two_pow_pos j
    omega

/-- The code above has a larger one. -/
theorem Neighbours.lt_above {code k m : Nat} (near : Neighbours code k m) :
    unitsOfCode code < unitsOfCode (code + 1) := by
  rw [near.units, near.above]
  exact Nat.mul_lt_mul_of_pos_right (Nat.lt_succ_self m) (Nat.two_pow_pos k)

/-! ## The nearest code -/

/-- Rounding a quotient gives the natural number at most one half away from it, the even one if
there are two. -/
theorem roundQuotient_eq {num den m : Nat} (pos : 0 < den) (low : 2 * (m * den) ≤ 2 * num + den)
    (high : 2 * num ≤ 2 * (m * den) + den)
    (odd : m % 2 = 1 → 2 * (m * den) < 2 * num + den ∧ 2 * num < 2 * (m * den) + den) :
    roundQuotient num den = m := by
  unfold roundQuotient
  have split := Nat.div_add_mod' num den
  have rest := Nat.mod_lt num pos
  generalize num / den = q at *
  generalize num % den = r at *
  have notLess : ¬ m < q := fun less => by
    have := Nat.mul_le_mul_right den (Nat.succ_le_of_lt less)
    rw [Nat.succ_mul] at this
    omega
  have notGreater : ¬ q + 1 < m := fun greater => by
    have := Nat.mul_le_mul_right den (Nat.succ_le_of_lt greater)
    rw [Nat.succ_mul, Nat.add_mul] at this
    omega
  obtain rfl | rfl : m = q ∨ m = q + 1 := by omega
  · grind
  · rw [Nat.add_mul] at low high odd
    grind

/-- The shift is that of the binade the quotient lies in. -/
theorem nearestCode_of_binade {num den k : Nat} (pos : 0 < den)
    (low : k = 0 ∨ 2 ^ 52 * (den * 2 ^ k) ≤ num) (high : num < 2 ^ 53 * (den * 2 ^ k)) :
    nearestCode num den = k * 2 ^ 52 + roundQuotient num (den * 2 ^ k) := by
  have below : num / den < 2 ^ (k + 53) := by
    rw [Nat.div_lt_iff_lt_mul pos, Nat.pow_add]
    linarith
  have shift : (num / den).log2 - 52 = k := by
    by_cases zero : num / den = 0
    · rcases low with rfl | low
      · simp [zero]
      · have := Nat.lt_of_div_eq_zero pos zero
        have := Nat.le_mul_of_pos_right den (Nat.two_pow_pos k)
        omega
    · have lt := (Nat.log2_lt zero).2 below
      rcases low with rfl | low
      · omega
      · have above : 2 ^ (k + 52) ≤ num / den := by
          rw [Nat.le_div_iff_mul_le pos, Nat.pow_add]
          linarith
        have le := (Nat.le_log2 zero).2 above
        omega
  unfold nearestCode
  simp only [shift]

/-- The code from its shift and its significand: the quotient lies in the binade of the shift and
at most half a step from the significand. -/
theorem nearestCode_of_near {num den k m step : Nat} (pos : 0 < den) (width : den * 2 ^ k = step)
    (least : k = 0 ∨ 2 ^ 52 * step ≤ num) (most : num < 2 ^ 53 * step)
    (low : 2 * (m * step) ≤ 2 * num + step) (high : 2 * num ≤ 2 * (m * step) + step)
    (odd : m % 2 = 1 → 2 * (m * step) < 2 * num + step ∧ 2 * num < 2 * (m * step) + step) :
    nearestCode num den = k * 2 ^ 52 + m := by
  subst width
  rw [nearestCode_of_binade pos least most,
    roundQuotient_eq (Nat.mul_pos pos (Nat.two_pow_pos k)) low high odd]

/-- Whether a fraction rounds to a code is told without dividing. -/
theorem roundsTo_div {num den : Nat} (pos : 0 < den) (code : Nat) :
    RoundsTo (num / den) code ↔
      let low := (unitsOfCode (code - 1) + unitsOfCode code) * den
      let high := (unitsOfCode code + unitsOfCode (code + 1)) * den
      if code % 2 = 0 then low ≤ 2 * num ∧ 2 * num ≤ high else low < 2 * num ∧ 2 * num < high := by
  have pos : (0 : ℚ) < den := by exact_mod_cast pos
  unfold RoundsTo
  simp only [← mul_div_assoc, le_div_iff₀ pos, div_le_iff₀ pos, lt_div_iff₀ pos, div_lt_iff₀ pos]
  norm_cast

/-- The code that a fraction of units rounds to is found. -/
theorem nearestCode_eq {num den code : Nat} (pos : 0 < den) (some : 0 < code)
    (near : RoundsTo (num / den) code) : nearestCode num den = code := by
  rw [roundsTo_div pos] at near
  obtain ⟨eq, lt, full, units, above⟩ := neighbours code
  have around := (neighbours code).below some
  generalize shiftOf code = k at *
  generalize significandOf code = m at *
  have parity : code % 2 = m % 2 := by omega
  have high : (unitsOfCode code + unitsOfCode (code + 1)) * den =
      2 * (m * (den * 2 ^ k)) + den * 2 ^ k := by
    rw [units, above]
    ring
  have low (j : Nat) (below : unitsOfCode (code - 1) + 2 ^ j = unitsOfCode code) :
      (unitsOfCode (code - 1) + unitsOfCode code) * den + den * 2 ^ j =
        2 * (m * (den * 2 ^ k)) := by
    calc (unitsOfCode (code - 1) + unitsOfCode code) * den + den * 2 ^ j
        = (unitsOfCode (code - 1) + 2 ^ j + unitsOfCode code) * den := by ring
      _ = 2 * (m * (den * 2 ^ k)) := by rw [below, units]; ring
  generalize (unitsOfCode (code - 1) + unitsOfCode code) * den = least at *
  generalize (unitsOfCode code + unitsOfCode (code + 1)) * den = greatest at *
  rw [← eq]
  rcases around with ⟨inner, below⟩ | ⟨j, rfl, rfl, below⟩
  · replace low := low k below
    have wide : 0 < den * 2 ^ k := Nat.mul_pos pos (Nat.two_pow_pos k)
    clear units above below full eq
    generalize width : den * 2 ^ k = step at *
    have fits : m * step + step ≤ 2 ^ 53 * step := by
      rw [← Nat.succ_mul]
      exact Nat.mul_le_mul_right _ lt
    have large : k = 0 ∨ 2 ^ 52 * step + step ≤ m * step := by
      refine inner.imp_right fun greater => ?_
      rw [← Nat.succ_mul]
      exact Nat.mul_le_mul_right _ greater
    apply nearestCode_of_near pos width <;> grind
  · -- Below a power of two the steps are half as wide, and the quotient may lie among those.
    replace low := low j below
    have double : den * 2 ^ (j + 1) = 2 * (den * 2 ^ j) := by ring
    have wide : 0 < den * 2 ^ j := Nat.mul_pos pos (Nat.two_pow_pos j)
    clear units above below lt full eq
    rw [double] at low high
    generalize width : den * 2 ^ j = step at *
    by_cases inside : 2 ^ 52 * (2 * step) ≤ num
    · apply nearestCode_of_near pos double <;> grind
    · rw [show (j + 1) * 2 ^ 52 + 2 ^ 52 = j * 2 ^ 52 + 2 ^ 53 by ring]
      apply nearestCode_of_near pos width <;> grind

/-! ## Reading a numeral -/

/-- Only zero has no magnitude. -/
theorem unitsOfCode_pos {code : Nat} (some : 0 < code) : 0 < unitsOfCode code := by
  obtain ⟨eq, -, full, units, -⟩ := neighbours code
  rw [units]
  exact Nat.mul_pos (by omega) (Nat.two_pow_pos _)

/-- What rounds to a code other than zero is positive. -/
theorem RoundsTo.pos {x : ℚ} {code : Nat} (some : 0 < code) (near : RoundsTo x code) : 0 < x := by
  have units : (0 : ℚ) < unitsOfCode code := by exact_mod_cast unitsOfCode_pos some
  have before : (0 : ℚ) ≤ unitsOfCode (code - 1) := Nat.cast_nonneg _
  linarith [near.bounds.1]

/-- A fraction of units becomes the number that it rounds to. -/
theorem ofUnits_eq {num den : Nat} {code : Fin codes} (pos : 0 < den) (some : 0 < code.val)
    (near : RoundsTo (num / den) code) (negative : Bool) :
    ofUnits negative num den = .finite negative code := by
  simp only [ofUnits, nearestCode_eq pos some near, code.isLt, dite_true]

/-- A numeral that lies close enough to a number is read as that number. -/
theorem ofDecimal_eq {d : Decimal} {code : Fin codes} (some : 0 < code.val)
    (least : -400 ≤ d.exponent) (most : d.exponent ≤ 400)
    (near : RoundsTo (d.value * unitsPerOne) code) (negative : Bool) :
    ofDecimal negative d = .finite negative code := by
  obtain ⟨coefficient, exponent⟩ := d
  simp only [Decimal.value] at least most near
  unfold ofDecimal
  dsimp only
  have nonzero : coefficient ≠ 0 := by
    rintro rfl
    have pos := near.pos some
    rw [Nat.cast_zero, zero_mul, zero_mul] at pos
    exact lt_irrefl _ pos
  rw [if_neg nonzero]
  by_cases sign : 0 ≤ exponent
  · obtain ⟨n, rfl⟩ := Int.eq_ofNat_of_zero_le sign
    rw [if_pos sign, if_neg (by omega)]
    refine ofUnits_eq Nat.one_pos some ?_ negative
    rw [Int.toNat_natCast, Nat.cast_one, div_one, Nat.cast_mul, Nat.cast_mul, Nat.cast_pow,
      Nat.cast_ofNat, ← zpow_natCast]
    exact near
  · obtain ⟨n, rfl⟩ : ∃ n : Nat, exponent = -n := ⟨exponent.natAbs, by omega⟩
    rw [if_neg sign, if_neg (by simp only [neg_neg, Int.toNat_natCast]; omega)]
    refine ofUnits_eq (by positivity) some ?_ negative
    convert near using 1
    simp only [neg_neg, Int.toNat_natCast, zpow_neg, zpow_natCast]
    push_cast
    ring

end Double

end Minifier
