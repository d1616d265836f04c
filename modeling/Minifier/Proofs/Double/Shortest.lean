import Minifier.Double.Shortest
import Minifier.Proofs.Double.Rounding

/-!
# The shortest digits read back

The search for the shortest numeral always succeeds, and what it finds is read as the number it was
made for. It succeeds at seventeen digits at the latest: the numerals that round to a number form
an interval, and that is longer than the distance of two numerals of seventeen digits.
-/

namespace Minifier

namespace Double

theorem powerOfTen_pos (e : Int) : 0 < (powerOfTen e).2 := by
  unfold powerOfTen
  split <;> positivity

/-- A power of ten as a fraction. -/
theorem powerOfTen_eq (e : Int) : ((powerOfTen e).1 / (powerOfTen e).2 : ℚ) = (10 : ℚ) ^ e := by
  unfold powerOfTen
  split
  · next sign =>
    obtain ⟨n, rfl⟩ := Int.eq_ofNat_of_zero_le sign
    simp
  · next sign =>
    obtain ⟨n, rfl⟩ : ∃ n : Nat, e = -n := ⟨e.natAbs, by omega⟩
    simp

/-- A numeral reads back exactly if it rounds to the code. -/
theorem readsBack_iff (code numeral : Nat) (e : Int) :
    readsBack code numeral e = true ↔ RoundsTo ((⟨numeral, e⟩ : Decimal).value * unitsPerOne) code := by
  have eq : (⟨numeral, e⟩ : Decimal).value * unitsPerOne =
      ((numeral * (powerOfTen e).1 * unitsPerOne : Nat) : ℚ) / (powerOfTen e).2 := by
    simp only [Decimal.value, ← powerOfTen_eq]
    push_cast
    ring
  rw [eq, roundsTo_div (powerOfTen_pos e), readsBack]
  simp only [Nat.mul_assoc]
  split <;> simp

/-! ## The grid of seventeen digits -/

/-- The distance between the midpoints around a code is more than `10 ^ -16` of its magnitude. -/
theorem units_lt_gap {code : Nat} (some : 0 < code) :
    2 * unitsOfCode code + 10 ^ 16 * unitsOfCode (code - 1) < 10 ^ 16 * unitsOfCode (code + 1) := by
  obtain ⟨-, lt, -, units, above⟩ := neighbours code
  have around := (neighbours code).below some
  generalize shiftOf code = k at *
  generalize significandOf code = m at *
  rcases around with ⟨-, below⟩ | ⟨j, rfl, rfl, below⟩
  · have step : 0 < 2 ^ k := Nat.two_pow_pos k
    have most := Nat.mul_le_mul_right (2 ^ k) (Nat.le_of_lt lt)
    rw [Nat.add_mul] at above
    omega
  · have step : 0 < 2 ^ j := Nat.two_pow_pos j
    rw [Nat.add_mul] at above
    omega

theorem two_pow_le_ten_pow {m n : Nat} (le : 10 * m ≤ 33 * n) : 2 ^ m ≤ 10 ^ n := by
  have powers : (2 ^ m) ^ 10 ≤ (10 ^ n) ^ 10 :=
    calc (2 ^ m) ^ 10 = 2 ^ (10 * m) := by rw [← Nat.pow_mul, Nat.mul_comm]
      _ ≤ 2 ^ (33 * n) := Nat.pow_le_pow_right (by decide) le
      _ = (2 ^ 33) ^ n := Nat.pow_mul ..
      _ ≤ (10 ^ 10) ^ n := Nat.pow_le_pow_left (by norm_num) n
      _ = (10 ^ n) ^ 10 := Nat.pow_right_comm ..
  exact (Nat.pow_le_pow_iff_left (by decide)).1 powers

theorem two_pow_le_mul {k m n : Nat} (le : k ≤ m + n) : 2 ^ k ≤ 2 ^ m * 2 ^ n := by
  rw [← Nat.pow_add]
  exact Nat.pow_le_pow_right (by decide) le

/-- The exponent as a variable keeps the power from being evaluated. -/
theorem exists_unitsPerOne_eq : ∃ n, n = 1074 ∧ unitsPerOne = 2 ^ n := ⟨1074, rfl, rfl⟩

theorem unitsPerOne_pos : 0 < unitsPerOne := by
  obtain ⟨n, -, eq⟩ := exists_unitsPerOne_eq
  rw [eq]
  exact Nat.two_pow_pos n

/-- The first of the digits before the point is not zero. The fraction `u / p` is scaled by
`10 ^ n`, so that it has such digits. -/
theorem le_of_length_toDigits {u p n : Nat} (some : 0 < u * 10 ^ n / p) :
    (10 : ℚ) ^ (((Nat.toDigits 10 (u * 10 ^ n / p)).length : Int) - n - 1) * p ≤ u := by
  have length := @Nat.length_toDigits_le_iff 10 (u * 10 ^ n / p)
  have most := Nat.div_mul_le_self (u * 10 ^ n) p
  generalize u * 10 ^ n / p = scaled at *
  obtain ⟨k, count⟩ := Nat.exists_eq_add_one_of_ne_zero (@Nat.length_toDigits_pos 10 scaled).ne'
  have least : 10 ^ k ≤ scaled := by
    rcases Nat.eq_zero_or_pos k with rfl | more
    · exact some
    · have := (length (by decide) more).not.1 (by omega)
      omega
  have exponent : (10 : ℚ) ^ (((k + 1 : Nat) : Int) - n - 1) = 10 ^ k / 10 ^ n := by
    rw [show ((k + 1 : Nat) : Int) - n - 1 = (k : Int) - n by push_cast; ring,
      zpow_sub₀ (by norm_num), zpow_natCast, zpow_natCast]
  rw [count, exponent, div_mul_eq_mul_div, div_le_iff₀ (by positivity)]
  exact_mod_cast (Nat.mul_le_mul_right _ least).trans most

/-- A number below a power of ten has no more digits than the power has zeros. -/
theorem length_toDigits_le {u p m n : Nat} (pos : 0 < p) (some : 0 < m) (lt : u < 10 ^ m * p) :
    (Nat.toDigits 10 (u * 10 ^ n / p)).length ≤ m + n := by
  rw [Nat.length_toDigits_le_iff (by decide) (by omega), Nat.div_lt_iff_lt_mul pos, Nat.pow_add,
    Nat.mul_right_comm]
  exact Nat.mul_lt_mul_of_pos_right lt (Nat.pow_pos (by decide))

/-- The digits before the point are as many as are needed. -/
theorem lt_of_length_toDigits {u p n : Nat} (pos : 0 < p) :
    (u : ℚ) < (10 : ℚ) ^ (((Nat.toDigits 10 (u * 10 ^ n / p)).length : Int) - n) * p := by
  have scaled : u * 10 ^ n / p < 10 ^ (Nat.toDigits 10 (u * 10 ^ n / p)).length :=
    (Nat.length_toDigits_le_iff (by decide) Nat.length_toDigits_pos).1 le_rfl
  generalize (Nat.toDigits 10 (u * 10 ^ n / p)).length = k at *
  rw [Nat.div_lt_iff_lt_mul pos] at scaled
  rw [zpow_sub₀ (by norm_num), zpow_natCast, zpow_natCast, div_mul_eq_mul_div,
    lt_div_iff₀ (by positivity)]
  exact_mod_cast scaled

/-- A number is below the power of ten of its width. -/
theorem units_lt_of_decimalWidth (code : Nat) :
    (unitsOfCode code : ℚ) < (10 : ℚ) ^ decimalWidth code * unitsPerOne :=
  lt_of_length_toDigits unitsPerOne_pos

/-- It is not below the power of ten before. -/
theorem le_units_of_decimalWidth {code : Nat} (some : 0 < code) :
    (10 : ℚ) ^ (decimalWidth code - 1) * unitsPerOne ≤ unitsOfCode code := by
  have fits : unitsPerOne ≤ 10 ^ 330 := by
    obtain ⟨n, rfl, eq⟩ := exists_unitsPerOne_eq
    rw [eq]
    exact two_pow_le_ten_pow (by decide)
  have scaled : 0 < unitsOfCode code * 10 ^ 330 / unitsPerOne :=
    Nat.div_pos (fits.trans (Nat.le_mul_of_pos_left _ (unitsOfCode_pos some))) unitsPerOne_pos
  exact le_of_length_toDigits scaled

/-- No number has more than 320 digits before the point. -/
theorem unitsOfCode_lt {code : Nat} (lt : code < codes) :
    unitsOfCode code < 10 ^ 320 * unitsPerOne := by
  obtain ⟨code_eq, small, full, units, -⟩ := neighbours code
  obtain ⟨n, exponent, eq⟩ := exists_unitsPerOne_eq
  have shift : 53 + shiftOf code ≤ 1024 + n := by
    unfold codes at lt
    omega
  rw [units, eq]
  calc significandOf code * 2 ^ shiftOf code
      < 2 ^ 53 * 2 ^ shiftOf code := Nat.mul_lt_mul_of_pos_right small (Nat.two_pow_pos _)
    _ = 2 ^ (53 + shiftOf code) := (Nat.pow_add ..).symm
    _ ≤ 2 ^ 1024 * 2 ^ n := two_pow_le_mul shift
    _ ≤ 10 ^ 320 * 2 ^ n := Nat.mul_le_mul_right _ (two_pow_le_ten_pow (by decide))

/-- Widths lie between fixed bounds. -/
theorem decimalWidth_bounds {code : Nat} (lt : code < codes) :
    -330 < decimalWidth code ∧ decimalWidth code ≤ 320 := by
  have most := @length_toDigits_le _ _ _ 330 unitsPerOne_pos (by decide) (unitsOfCode_lt lt)
  have least := @Nat.length_toDigits_pos 10 (unitsOfCode code * 10 ^ 330 / unitsPerOne)
  unfold decimalWidth
  dsimp only
  omega

/-- Of two neighbours on a grid that is fine enough for the magnitude, one rounds to the code. -/
theorem roundsTo_of_grid {code : Nat} (some : 0 < code) {step : ℚ} {below : Nat}
    (fine : 10 ^ 16 * step ≤ unitsOfCode code) (le : below * step ≤ unitsOfCode code)
    (lt : unitsOfCode code < (below + 1) * step) :
    RoundsTo (below * step) code ∨ RoundsTo ((below + 1) * step) code := by
  have gap : (2 * unitsOfCode code + 10 ^ 16 * unitsOfCode (code - 1) : ℚ) <
      10 ^ 16 * unitsOfCode (code + 1) := by
    exact_mod_cast units_lt_gap some
  have before : (unitsOfCode (code - 1) : ℚ) < unitsOfCode code := by
    exact_mod_cast (neighbours code).below_lt some
  have after : (unitsOfCode code : ℚ) < unitsOfCode (code + 1) := by
    exact_mod_cast (neighbours code).lt_above
  by_cases inside : (unitsOfCode (code - 1) + unitsOfCode code : ℚ) < 2 * (below * step)
  · exact .inl (roundsTo_of_lt inside (by linarith))
  · exact .inr (roundsTo_of_lt (by linarith) (by linarith))

/-! ## The search -/

/-- A hit on a grid is one of the two neighbours, and reads back. -/
theorem onGrid_eq_some {tie : TieRule} {code numeral : Nat} {e : Int}
    (hit : onGrid? tie code e = some numeral) :
    let below := unitsOfCode code * (powerOfTen e).2 / ((powerOfTen e).1 * unitsPerOne)
    (numeral = below ∨ numeral = below + 1) ∧ readsBack code numeral e = true := by
  simp only [onGrid?] at hit
  generalize unitsOfCode code * (powerOfTen e).2 = target at *
  generalize (powerOfTen e).1 * unitsPerOne = step at *
  dsimp only
  split at hit
  · cases hit
  · next here _ =>
    cases hit
    exact ⟨.inl rfl, here⟩
  · next _ here =>
    cases hit
    exact ⟨.inr rfl, here⟩
  · next here there =>
    split at hit
    · cases hit
      exact ⟨.inl rfl, here⟩
    · split at hit
      · cases hit
        exact ⟨.inr rfl, there⟩
      · cases tie <;> cases hit
        · exact ⟨.inr rfl, there⟩
        · split
          · exact ⟨.inl rfl, here⟩
          · exact ⟨.inr rfl, there⟩

/-- A numeral is found on a grid of powers of ten if one of the two next to the number reads back as the
number. -/
theorem onGrid_isSome {tie : TieRule} {code : Nat} {e : Int} {below : Nat}
    (eq : unitsOfCode code * (powerOfTen e).2 / ((powerOfTen e).1 * unitsPerOne) = below)
    (near : readsBack code below e = true ∨ readsBack code (below + 1) e = true) :
    (onGrid? tie code e).isSome = true := by
  simp only [onGrid?, eq]
  cases here : readsBack code below e <;> cases there : readsBack code (below + 1) e
  · simp [here, there] at near
  · rfl
  · rfl
  · dsimp only
    split
    · rfl
    · split
      · rfl
      · cases tie <;> rfl

theorem powerOfTen_num_pos (e : Int) : 0 < (powerOfTen e).1 := by
  unfold powerOfTen
  split <;> positivity

/-- At seventeen digits there is a hit. -/
theorem onGrid_seventeen (tie : TieRule) {code : Nat} (some : 0 < code) :
    (onGrid? tie code (decimalWidth code - 17)).isSome = true := by
  have width := le_units_of_decimalWidth some
  rw [show decimalWidth code - 1 = 16 + (decimalWidth code - 17) by ring,
    zpow_add₀ (by norm_num)] at width
  generalize decimalWidth code - 17 = e at *
  apply onGrid_isSome rfl
  simp only [readsBack_iff, Decimal.value, Nat.cast_add, Nat.cast_one, mul_assoc]
  have den : (0 : ℚ) < (powerOfTen e).2 := by exact_mod_cast powerOfTen_pos e
  have step : (10 : ℚ) ^ e * unitsPerOne =
      ((powerOfTen e).1 * unitsPerOne : Nat) / (powerOfTen e).2 := by
    rw [← powerOfTen_eq]
    push_cast
    ring
  have pos : 0 < (powerOfTen e).1 * unitsPerOne := Nat.mul_pos (powerOfTen_num_pos e) unitsPerOne_pos
  apply roundsTo_of_grid some
  · rw [← mul_assoc]
    exact_mod_cast width
  · rw [step, ← mul_div_assoc, div_le_iff₀ den]
    exact_mod_cast Nat.div_mul_le_self _ _
  · rw [step, ← mul_div_assoc, lt_div_iff₀ den]
    exact_mod_cast Nat.lt_mul_of_div_lt (Nat.lt_succ_self _) pos

/-- On a grid of `k` digits the neighbour below has at most `k` digits. -/
theorem below_lt_pow (code k : Nat) :
    let e := decimalWidth code - k
    unitsOfCode code * (powerOfTen e).2 / ((powerOfTen e).1 * unitsPerOne) < 10 ^ k := by
  intro e
  have width := units_lt_of_decimalWidth code
  rw [show decimalWidth code = k + e by simp [e], zpow_add₀ (by norm_num), zpow_natCast,
    ← powerOfTen_eq] at width
  have den : (0 : ℚ) < (powerOfTen e).2 := by exact_mod_cast powerOfTen_pos e
  rw [Nat.div_lt_iff_lt_mul (Nat.mul_pos (powerOfTen_num_pos e) unitsPerOne_pos)]
  rw [← mul_div_assoc, div_mul_eq_mul_div, lt_div_iff₀ den, mul_assoc] at width
  exact_mod_cast width

/-- What the search finds reads back, and its digits and its exponent are not far out. -/
theorem exists_shortest (tie : TieRule) {code : Nat} (some : 0 < code) (lt : code < codes) :
    ∃ numeral e, shortest tie code = stripZeros 17 ⟨numeral, e⟩ ∧ readsBack code numeral e = true ∧
      numeral ≤ 10 ^ 17 ∧ -347 ≤ e ∧ e ≤ 320 := by
  have bounds := decimalWidth_bounds lt
  unfold shortest
  dsimp only
  generalize found : (List.range 17).findSome? _ = hit
  cases hit with
  | none =>
    rw [List.findSome?_eq_none_iff] at found
    have last : onGrid? tie code (decimalWidth code - 17) = none := by simpa using found 16 (by simp)
    have hit := onGrid_seventeen tie some
    simp [last] at hit
  | some d =>
    obtain ⟨i, range, here⟩ := List.exists_of_findSome?_eq_some found
    rw [Option.map_eq_some_iff] at here
    obtain ⟨numeral, here, rfl⟩ := here
    rw [List.mem_range] at range
    obtain ⟨neighbour, reads⟩ := onGrid_eq_some here
    have below := below_lt_pow code (i + 1)
    have most : 10 ^ (i + 1) ≤ 10 ^ 17 := Nat.pow_le_pow_right (by decide) range
    exact ⟨_, _, rfl, reads, by omega, by omega, by omega⟩

/-- Zeros at the end of a coefficient can go without a change to the value. -/
theorem value_stripZeros (fuel : Nat) (d : Decimal) : (stripZeros fuel d).value = d.value := by
  induction fuel generalizing d with
  | zero => rfl
  | succ fuel ih =>
    unfold stripZeros
    split
    · next zero =>
      obtain ⟨n, eq⟩ := Nat.dvd_of_mod_eq_zero zero
      rw [ih, Decimal.value, Decimal.value, eq, Nat.mul_div_cancel_left n (by decide),
        zpow_add₀ (by norm_num)]
      push_cast
      ring
    · rfl

/-- Each of them adds one to the exponent. -/
theorem exponent_stripZeros (fuel : Nat) (d : Decimal) :
    d.exponent ≤ (stripZeros fuel d).exponent ∧
      (stripZeros fuel d).exponent ≤ d.exponent + fuel := by
  induction fuel generalizing d with
  | zero => exact ⟨le_rfl, by simp [stripZeros]⟩
  | succ fuel ih =>
    unfold stripZeros
    split
    · have := ih ⟨d.coefficient / 10, d.exponent + 1⟩
      dsimp only at this
      omega
    · omega

/-- A coefficient of at most as many digits as there is fuel loses all its trailing zeros. -/
theorem coefficient_stripZeros {fuel : Nat} {d : Decimal} (some : 0 < d.coefficient)
    (most : d.coefficient ≤ 10 ^ fuel) : (stripZeros fuel d).coefficient % 10 ≠ 0 := by
  induction fuel generalizing d with
  | zero =>
    rw [stripZeros]
    omega
  | succ fuel ih =>
    unfold stripZeros
    split
    · next zero =>
      rw [Nat.pow_succ] at most
      exact @ih ⟨d.coefficient / 10, d.exponent + 1⟩ (by dsimp only; omega) (by dsimp only; omega)
    · next other => exact other

/-- The shortest numeral of a number rounds to it. -/
theorem roundsTo_shortest (tie : TieRule) {code : Nat} (some : 0 < code) (lt : code < codes) :
    RoundsTo ((shortest tie code).value * unitsPerOne) code := by
  obtain ⟨numeral, e, eq, reads, -, -, -⟩ := exists_shortest tie some lt
  rw [eq, value_stripZeros]
  exact (readsBack_iff code numeral e).1 reads

/-- The exponents of shortest numerals lie between fixed bounds. -/
theorem exponent_shortest (tie : TieRule) {code : Nat} (some : 0 < code) (lt : code < codes) :
    -347 ≤ (shortest tie code).exponent ∧ (shortest tie code).exponent ≤ 337 := by
  obtain ⟨numeral, e, eq, -, -, least, most⟩ := exists_shortest tie some lt
  have := exponent_stripZeros 17 ⟨numeral, e⟩
  rw [eq]
  dsimp only at this
  omega

/-- The shortest numeral has no trailing zeros. -/
theorem coefficient_shortest (tie : TieRule) {code : Nat} (some : 0 < code) (lt : code < codes) :
    (shortest tie code).coefficient % 10 ≠ 0 := by
  obtain ⟨numeral, e, eq, reads, most, -, -⟩ := exists_shortest tie some lt
  have above := ((readsBack_iff code numeral e).1 reads).pos some
  rw [eq]
  refine coefficient_stripZeros (Nat.pos_of_ne_zero fun zero => ?_) most
  change numeral = 0 at zero
  rw [Decimal.value, zero, Nat.cast_zero, zero_mul, zero_mul] at above
  exact lt_irrefl 0 above

end Double

end Minifier
