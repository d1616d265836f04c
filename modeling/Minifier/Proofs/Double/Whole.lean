import Mathlib.Data.Rat.Floor
import Minifier.Proofs.Double.Shortest

/-!
# Whole numbers

The rational number that a double is, and what the operations do with whole numbers. A magnitude
that has a code is rounded to that code. Whole numbers up to `2 ^ 53` have one, so whatever gives
such a number is exact: conversions, sums, remainders, and cutting off a fraction.
-/

namespace Minifier

namespace Double

/-- The rational number that a finite number is. -/
def value? : Double → Option ℚ
  | .finite negative code => some (signedUnits negative code / unitsPerOne)
  | _ => none

/-- The number is the given whole number, which may be a zero of either sign. -/
def IsWhole (x : Double) (n : ℤ) : Prop :=
  x.value? = some (n : ℚ)

/-- A magnitude with its sign. -/
def signed (negative : Bool) (n : Nat) : ℤ :=
  if negative then -n else n

@[simp] theorem signed_false (n : Nat) : signed false n = n := rfl

@[simp] theorem signed_true (n : Nat) : signed true n = -n := rfl

/-- The magnitude of a number with a sign. -/
theorem natAbs_signed (negative : Bool) (n : Nat) : (signed negative n).natAbs = n := by
  cases negative <;> simp

theorem signed_mul (negative : Bool) (m n : Nat) :
    signed negative (m * n) = signed negative m * n := by
  cases negative <;> simp

/-- A whole number is its magnitude with its sign. -/
theorem signed_natAbs (n : ℤ) : signed (decide (n < 0)) n.natAbs = n := by
  by_cases sign : n < 0
  · rw [signed, if_pos (decide_eq_true sign)]
    omega
  · rw [signed, if_neg (by simpa using sign)]
    omega

/-- A finite number is whole if its units make up whole ones. -/
theorem isWhole_finite {negative : Bool} {code : Fin codes} {n : ℤ} :
    IsWhole (.finite negative code) n ↔ signed negative (unitsOfCode code) = n * unitsPerOne := by
  rw [IsWhole, value?]
  have pos := unitsPerOne_pos
  generalize unitsPerOne = one at pos
  rw [Option.some_inj, div_eq_iff (by exact_mod_cast pos.ne')]
  norm_cast

/-- Whole numbers have a sign and a magnitude that is a multiple of one. -/
theorem IsWhole.exists_finite {x : Double} {n : ℤ} (whole : IsWhole x n) :
    ∃ negative code k, x = .finite negative code ∧ unitsOfCode code = k * unitsPerOne ∧
      n = signed negative k := by
  cases x with
  | nan | infinite => cases whole
  | finite negative code =>
    have units := isWhole_finite.1 whole
    have one : (unitsPerOne : ℤ) ≠ 0 := by exact_mod_cast unitsPerOne_pos.ne'
    have magnitude : unitsOfCode code = n.natAbs * unitsPerOne := by
      rw [← natAbs_signed negative (unitsOfCode code), units, Int.natAbs_mul, Int.natAbs_natCast]
    refine ⟨negative, code, n.natAbs, rfl, magnitude, ?_⟩
    rw [magnitude, signed_mul] at units
    exact (Int.eq_of_mul_eq_mul_right one units).symm

/-! ## Magnitudes with a code -/

@[simp] theorem unitsOfCode_zero : unitsOfCode 0 = 0 := rfl

/-- Only the code of zero stands for no units. -/
theorem unitsOfCode_eq_zero {code : Nat} : unitsOfCode code = 0 ↔ code = 0 := by
  constructor
  · intro zero
    by_contra some
    exact (unitsOfCode_pos (Nat.pos_of_ne_zero some)).ne' zero
  · rintro rfl
    rfl

/-- The nearest number to a number is the number itself. -/
theorem nearestCode_unitsOfCode (code : Nat) : nearestCode (unitsOfCode code) 1 = code := by
  rcases Nat.eq_zero_or_pos code with rfl | some
  · rfl
  · have before : (unitsOfCode (code - 1) : ℚ) < unitsOfCode code := by
      exact_mod_cast (neighbours code).below_lt some
    have after : (unitsOfCode code : ℚ) < unitsOfCode (code + 1) := by
      exact_mod_cast (neighbours code).lt_above
    refine nearestCode_eq Nat.one_pos some (roundsTo_of_lt ?_ ?_)
    · push_cast
      linarith
    · push_cast
      linarith

/-- A magnitude that has a code is rounded to that code. -/
theorem ofUnits_unitsOfCode (negative : Bool) (code : Fin codes) :
    ofUnits negative (unitsOfCode code) 1 = .finite negative code := by
  simp only [ofUnits, nearestCode_unitsOfCode, code.isLt, dite_true]

/-- A significand and a shift have a code, though the significand may be a small one. -/
theorem exists_code {m k : Nat} (small : m < 2 ^ 53) (bound : k ≤ 2045) :
    ∃ code : Fin codes, unitsOfCode code = m * 2 ^ k := by
  induction k generalizing m with
  | zero =>
    have fits : m < codes := by
      unfold codes
      omega
    have units := unitsOfCode_eq 0 m (.inl rfl) small.le
    exact ⟨⟨m, fits⟩, by simpa using units⟩
  | succ k ih =>
    by_cases full : 2 ^ 52 ≤ m
    · have fits : (k + 1) * 2 ^ 52 + m < codes := by
        unfold codes
        omega
      exact ⟨⟨_, fits⟩, unitsOfCode_eq (k + 1) m (.inr full) small.le⟩
    · -- A small significand is doubled and the shift lowered.
      obtain ⟨code, units⟩ := @ih (2 * m) (by omega) (by omega)
      refine ⟨code, units.trans ?_⟩
      rw [Nat.pow_succ]
      ring

/-- Whole numbers up to `2 ^ 53` have a code. -/
theorem exists_code_whole {n : Nat} (bound : n ≤ 2 ^ 53) :
    ∃ code : Fin codes, unitsOfCode code = n * unitsPerOne := by
  obtain ⟨k, exponent, eq⟩ := exists_unitsPerOne_eq
  rcases Nat.lt_or_eq_of_le bound with lt | rfl
  · rw [eq]
    exact exists_code lt (by omega)
  · obtain ⟨code, units⟩ := @exists_code (2 ^ 52) (k + 1) (by norm_num) (by omega)
    refine ⟨code, units.trans ?_⟩
    rw [eq, Nat.pow_succ]
    ring

/-! ## Conversions -/

/-- A whole number of ones that is small enough is not rounded. -/
theorem isWhole_ofUnits {n : Nat} (bound : n ≤ 2 ^ 53) (negative : Bool) :
    IsWhole (ofUnits negative (n * unitsPerOne) 1) (signed negative n) := by
  obtain ⟨code, units⟩ := exists_code_whole bound
  rw [← units, ofUnits_unitsOfCode, isWhole_finite, units, signed_mul]

/-- Natural numbers up to `2 ^ 53` are represented exactly. -/
theorem isWhole_ofNat {n : Nat} (bound : n ≤ 2 ^ 53) : IsWhole (ofNat n) n :=
  isWhole_ofUnits bound false

/-- So are whole numbers of that size. -/
theorem isWhole_ofInt {n : ℤ} (bound : n.natAbs ≤ 2 ^ 53) : IsWhole (ofInt n) n := by
  have whole := isWhole_ofUnits bound (decide (n < 0))
  rwa [signed_natAbs] at whole

/-- The code of zero is zero with either sign. -/
theorem isWhole_of_code_zero {code : Fin codes} (none : code.val = 0) (negative : Bool) :
    IsWhole (.finite negative code) 0 := by
  rw [isWhole_finite, none, unitsOfCode_zero, Int.zero_mul]
  cases negative <;> rfl

theorem isWhole_zero (negative : Bool) : IsWhole (zero negative) 0 :=
  isWhole_of_code_zero rfl negative

/-! ## Operations -/

variable {x y : Double} {m n : ℤ}

/-- Counting in units does not change the sign. -/
theorem mul_unitsPerOne_neg : n * unitsPerOne < 0 ↔ n < 0 := by
  have one : (0 : ℤ) < unitsPerOne := by exact_mod_cast unitsPerOne_pos
  constructor
  · intro negative
    by_contra least
    exact absurd negative (not_lt.2 (Int.mul_nonneg (by omega) one.le))
  · intro negative
    exact Int.mul_neg_of_neg_of_pos negative one

/-- The absolute value of a whole number is its magnitude. -/
theorem IsWhole.abs (whole : IsWhole x n) : IsWhole x.abs n.natAbs := by
  obtain ⟨negative, code, k, rfl, units, rfl⟩ := whole.exists_finite
  rw [Double.abs, isWhole_finite, units, signed_mul, natAbs_signed]
  rfl

/-- A sum of whole numbers is exact as long as it is small enough. -/
theorem IsWhole.add (first : IsWhole x m) (second : IsWhole y n)
    (bound : (m + n).natAbs ≤ 2 ^ 53) : IsWhole (x.add y) (m + n) := by
  obtain ⟨s, a, i, rfl, left, rfl⟩ := first.exists_finite
  obtain ⟨t, b, j, rfl, right, rfl⟩ := second.exists_finite
  have sum : signedUnits s a + signedUnits t b = (signed s i + signed t j) * unitsPerOne := by
    change signed s (unitsOfCode a) + signed t (unitsOfCode b) = _
    rw [left, right, signed_mul, signed_mul, add_mul]
  generalize signed s i + signed t j = n at *
  have one : (unitsPerOne : ℤ) ≠ 0 := by exact_mod_cast unitsPerOne_pos.ne'
  rw [Double.add, sum]
  split
  · next none =>
    rw [(Int.mul_eq_zero.1 none).resolve_right one]
    exact isWhole_zero _
  · rw [Int.natAbs_mul, Int.natAbs_natCast, decide_eq_decide.2 mul_unitsPerOne_neg]
    exact isWhole_ofInt bound

/-- The remainder of whole numbers is exact. -/
theorem IsWhole.rem (first : IsWhole x m) (second : IsWhole y n) (nonzero : n ≠ 0)
    (bound : n.natAbs ≤ 2 ^ 53) : IsWhole (x.rem y) (m.tmod n) := by
  obtain ⟨s, a, i, rfl, left, rfl⟩ := first.exists_finite
  obtain ⟨t, b, j, rfl, right, rfl⟩ := second.exists_finite
  rw [natAbs_signed] at bound
  have some : 0 < j := by
    refine Nat.pos_of_ne_zero fun zero => nonzero ?_
    rw [zero]
    cases t <;> rfl
  have divisor : b.val ≠ 0 := by
    rw [Ne, ← unitsOfCode_eq_zero, right]
    exact (Nat.mul_pos some unitsPerOne_pos).ne'
  have remainder : (signed s i).tmod (signed t j) = signed s (i % j) := by
    cases s <;> cases t <;> simp [signed, Int.neg_tmod, Int.tmod_neg] <;> rfl
  have small : i % j ≤ 2 ^ 53 := (Nat.mod_lt i some).le.trans bound
  rw [Double.rem, if_neg divisor, left, right, Nat.mul_mod_mul_right, remainder]
  exact isWhole_ofUnits small s

/-- A whole number is compared with zero by its sign. -/
theorem IsWhole.order_zero (whole : IsWhole x n) : x.order (zero false) = some .lt ↔ n < 0 := by
  obtain ⟨negative, code, k, rfl, units, rfl⟩ := whole.exists_finite
  have some : code.val = 0 ↔ k = 0 := by
    rw [← unitsOfCode_eq_zero, units, Nat.mul_eq_zero, or_iff_left unitsPerOne_pos.ne']
  change Option.some (compare (signed negative code) (signed false 0)) = _ ↔ _
  rw [Option.some_inj, Int.compare_eq_lt, signed, signed, signed]
  cases negative <;> simp <;> omega

/-- The remainder that is not negative is exact too, though it may take a sum. -/
theorem IsWhole.remEuclid (first : IsWhole x m) (second : IsWhole y n) (positive : 0 < n)
    (bound : n ≤ 2 ^ 53) : IsWhole (x.remEuclid y) (m % n) := by
  have rem := first.rem second positive.ne' (by omega)
  have same : m % n = m.tmod n % n := by
    rw [Int.tmod_def, Int.sub_mul_emod_self_left]
  have small := Int.tmod_lt_of_pos m positive
  have large := Int.lt_tmod_of_pos m positive
  have below := rem.order_zero
  unfold Double.remEuclid
  dsimp only
  rw [same]
  generalize m.tmod n = r at *
  by_cases negative : r < 0
  · have divisor := second.abs
    rw [show (n.natAbs : ℤ) = n by omega] at divisor
    rw [if_pos (below.2 negative), ← Int.add_emod_right, Int.emod_eq_of_lt (by omega) (by omega)]
    exact rem.add divisor (by omega)
  · rwa [if_neg (below.not.2 negative), Int.emod_eq_of_lt (by omega) small]

/-! ## Cutting off the fraction -/

/-- The whole number next to a rational number in the direction of zero. -/
def towardZero (q : ℚ) : ℤ :=
  if 0 ≤ q then ⌊q⌋ else ⌈q⌉

/-- Cutting off the fraction of a quotient divides the magnitudes. -/
theorem towardZero_signed (negative : Bool) (m n : Nat) :
    towardZero (signed negative m / n) = signed negative (m / n) := by
  have floor : ⌊(m / n : ℚ)⌋ = ((m / n : Nat) : ℤ) := Rat.floor_natCast_div_natCast m n
  have nonneg : (0 : ℚ) ≤ m / n := by positivity
  cases negative with
  | false =>
    simp only [towardZero, signed, Bool.false_eq_true, if_false, Int.cast_natCast]
    rw [if_pos nonneg, floor]
  | true =>
    simp only [towardZero, signed, if_true, Int.cast_neg, Int.cast_natCast, neg_div]
    rw [← floor]
    split
    · next nonpos =>
      rw [le_antisymm (neg_nonneg.1 nonpos) nonneg]
      simp
    · exact Int.ceil_neg

/-- A magnitude has a code also without its fraction. If it has one at all, it is below `2 ^ 53`. -/
theorem exists_code_truncate (code : Fin codes) :
    ∃ whole : Fin codes, unitsOfCode whole = unitsOfCode code / unitsPerOne * unitsPerOne := by
  obtain ⟨-, small, -, units, -⟩ := neighbours code
  obtain ⟨k, exponent, one⟩ := exists_unitsPerOne_eq
  by_cases large : k ≤ shiftOf code
  · refine ⟨code, (Nat.div_mul_cancel ?_).symm⟩
    rw [units, one]
    exact Dvd.dvd.mul_left (Nat.pow_dvd_pow 2 large) _
  · refine exists_code_whole ?_
    rw [units, one]
    calc significandOf code * 2 ^ shiftOf code / 2 ^ k
        ≤ significandOf code * 2 ^ k / 2 ^ k :=
          Nat.div_le_div_right
            (Nat.mul_le_mul_left _ (Nat.pow_le_pow_right (by decide) (Nat.le_of_not_le large)))
      _ = significandOf code := Nat.mul_div_cancel _ (Nat.two_pow_pos k)
      _ ≤ 2 ^ 53 := small.le

/-- Cutting off the fraction is exact. -/
theorem isWhole_truncate {q : ℚ} (value : x.value? = some q) : IsWhole x.truncate (towardZero q) := by
  cases x with
  | nan | infinite => cases value
  | finite negative code =>
    obtain rfl := Option.some_inj.1 value
    obtain ⟨whole, units⟩ := exists_code_truncate code
    change IsWhole (ofUnits negative _ 1) (towardZero ((signed negative _ : ℤ) / unitsPerOne))
    rw [← units, ofUnits_unitsOfCode, isWhole_finite, towardZero_signed, units, signed_mul]

end Double

end Minifier
