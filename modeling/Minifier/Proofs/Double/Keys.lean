import Mathlib.Data.Set.Defs
import Minifier.Double.Basic

/-!
# Numbers as keys

A number that is kept in a collection is looked at in three ways: it is compared for equality, put
in order, and hashed. Equality and the order both go by the signed code. What is hashed are the
bits, in which the two zeros differ, and the order has no place for NaN and takes it for equal to
whatever it meets. The laws that tie the three together hold therefore of some collections only, and
for each of them it is said of which.
-/

namespace Minifier

namespace Double

variable {a b c : Double} {x y : Int}

/-! ## Signed codes -/

theorem key_eq_none : a.key = none ↔ a = nan := by
  cases a <;> simp [key]

theorem exists_key (number : a ≠ nan) : ∃ x, a.key = some x :=
  Option.ne_none_iff_exists'.1 (mt key_eq_none.1 number)

/-- Only the two zeros share a signed code. -/
theorem eq_or_zeros_of_key_eq (same : a.key = b.key) :
    a = b ∨ ∃ negative, a = zero negative ∧ b = zero !negative := by
  cases a with
  | nan => exact .inl (key_eq_none.1 same.symm).symm
  | infinite s =>
    cases b with
    | nan => cases same
    | infinite t => cases s <;> cases t <;> simp [key, codes] at same ⊢
    | finite t n =>
      have bound := n.isLt
      cases s <;> cases t <;> simp [key] at same <;> omega
  | finite s m =>
    cases b with
    | nan => cases same
    | infinite t =>
      have bound := m.isLt
      cases s <;> cases t <;> simp [key] at same <;> omega
    | finite t n =>
      by_cases sign : s = t
      · subst sign
        have value : m = n := by
          cases s <;> simp [key] at same <;> omega
        exact .inl (by rw [value])
      · have magnitude : m.val = 0 ∧ n.val = 0 := by
          cases s <;> cases t <;> simp [key] at same sign <;> omega
        refine .inr ⟨s, ?_, ?_⟩
        · rw [zero, show m = ⟨0, _⟩ from Fin.ext magnitude.1]
        · rw [zero, show n = ⟨0, _⟩ from Fin.ext magnitude.2, Bool.eq_not.2 (Ne.symm sign)]

/-- Numbers are equal as keys if their signed codes are, NaN being the number that has none. -/
theorem sameKey_iff : a.sameKey b = true ↔ a.key = b.key := by
  cases a with
  | nan => cases b <;> simp [sameKey, isNaN, key]
  | infinite | finite =>
    rw [sameKey, if_neg (by simp [isNaN]), numEq, order]
    cases b.key <;> simp [key]

/-- A number equals itself only, except that it may be a zero of the other sign. -/
theorem sameKey_iff_eq_or_zeros :
    a.sameKey b = true ↔ a = b ∨ ∃ negative, a = zero negative ∧ b = zero !negative := by
  rw [sameKey_iff]
  constructor
  · exact eq_or_zeros_of_key_eq
  · rintro (rfl | ⟨negative, rfl, rfl⟩)
    · rfl
    · cases negative <;> rfl

theorem equivalence_sameKey : Equivalence fun a b : Double => a.sameKey b = true where
  refl _ := sameKey_iff.2 rfl
  symm same := sameKey_iff.2 (sameKey_iff.1 same).symm
  trans first second := sameKey_iff.2 ((sameKey_iff.1 first).trans (sameKey_iff.1 second))

/-! ## The order -/

theorem keyOrder_of_keys (left : a.key = some x) (right : b.key = some y) :
    a.keyOrder b = compare x y := by
  rw [keyOrder, order, left, right]
  rfl

@[simp] theorem keyOrder_nan_left (b : Double) : nan.keyOrder b = .eq := rfl

@[simp] theorem keyOrder_nan_right (a : Double) : a.keyOrder nan = .eq := by
  cases a <;> rfl

theorem swap_keyOrder (a b : Double) : b.keyOrder a = (a.keyOrder b).swap := by
  by_cases left : a = nan
  · rw [left, keyOrder_nan_left, keyOrder_nan_right, Ordering.swap_eq]
  by_cases right : b = nan
  · rw [right, keyOrder_nan_left, keyOrder_nan_right, Ordering.swap_eq]
  obtain ⟨x, left⟩ := exists_key left
  obtain ⟨y, right⟩ := exists_key right
  rw [keyOrder_of_keys left right, keyOrder_of_keys right left]
  exact Std.OrientedCmp.eq_swap

/-- Between numbers that are not NaN, the order tells equal ones apart from others. -/
theorem keyOrder_eq_eq_iff (left : a ≠ nan) (right : b ≠ nan) :
    a.keyOrder b = .eq ↔ a.sameKey b = true := by
  obtain ⟨x, left⟩ := exists_key left
  obtain ⟨y, right⟩ := exists_key right
  rw [keyOrder_of_keys left right, Int.compare_eq_eq, sameKey_iff, left, right, Option.some_inj]

/-- NaN is at most every number and every number is at most NaN, so the others decide. -/
theorem isLE_keyOrder_of_numbers
    (numbers : a ≠ nan → b ≠ nan → (a.keyOrder b).isLE = true) : (a.keyOrder b).isLE = true := by
  by_cases left : a = nan
  · rw [left, keyOrder_nan_left]
    rfl
  by_cases right : b = nan
  · rw [right, keyOrder_nan_right]
    rfl
  exact numbers left right

/-- The order is transitive through every number that is not NaN. -/
theorem isLE_keyOrder_trans (middle : b ≠ nan) (first : (a.keyOrder b).isLE = true)
    (second : (b.keyOrder c).isLE = true) : (a.keyOrder c).isLE = true := by
  apply isLE_keyOrder_of_numbers
  intro left right
  obtain ⟨x, left⟩ := exists_key left
  obtain ⟨y, middle⟩ := exists_key middle
  obtain ⟨z, right⟩ := exists_key right
  rw [keyOrder_of_keys left middle] at first
  rw [keyOrder_of_keys middle right] at second
  rw [keyOrder_of_keys left right]
  exact Std.TransCmp.isLE_trans first second

/-! ## What is hashed -/

/-- The bits of a number that is not NaN are hashed as they are. -/
theorem hashed_ofBits (bits : UInt64) (number : ofBits bits ≠ nan) :
    (ofBits bits).hashed = some bits := by
  have bound := bits.toNat_lt
  have word (code : Nat) (isCode : bits.toNat % 2 ^ 63 = code) :
      UInt64.ofNat ((if decide (2 ^ 63 ≤ bits.toNat) then 2 ^ 63 else 0) + code) = bits := by
    apply UInt64.toNat_inj.1
    rw [UInt64.toNat_ofNat']
    by_cases negative : 2 ^ 63 ≤ bits.toNat
    · rw [if_pos (decide_eq_true negative)]
      omega
    · rw [if_neg (by simpa using negative)]
      omega
  unfold ofBits at number ⊢
  dsimp only at number ⊢
  split at number
  · next finite =>
    rw [dif_pos finite]
    exact congrArg some (word _ rfl)
  · next great =>
    rw [dif_neg great]
    split at number
    · next infinite =>
      rw [if_pos infinite]
      exact congrArg some (word _ infinite)
    · exact absurd rfl number

/-! ## Collections in which the laws hold -/

variable (keys : Set Double)

/-- Equal keys are hashed alike in a collection without one of the zeros. -/
theorem hashed_eq_iff :
    (∀ a ∈ keys, ∀ b ∈ keys, a.sameKey b = true → a.hashed = b.hashed) ↔
      ¬(zero false ∈ keys ∧ zero true ∈ keys) := by
  constructor
  · rintro law ⟨positive, negative⟩
    exact absurd (law _ positive _ negative rfl) (by decide)
  · intro oneZero a left b right same
    obtain rfl | ⟨negative, rfl, rfl⟩ := sameKey_iff_eq_or_zeros.1 same
    · rfl
    · cases negative with
      | false => exact absurd ⟨left, right⟩ oneZero
      | true => exact absurd ⟨right, left⟩ oneZero

/-- The order goes with equality in a collection where NaN is alone or absent. -/
theorem keyOrder_eq_iff :
    (∀ a ∈ keys, ∀ b ∈ keys, a.keyOrder b = .eq ↔ a.sameKey b = true) ↔
      (nan ∈ keys → ∀ a ∈ keys, a = nan) := by
  constructor
  · intro law nanIn a member
    have same := (law a member nan nanIn).1 (keyOrder_nan_right a)
    exact key_eq_none.1 (sameKey_iff.1 same)
  · intro alone a left b right
    by_cases nanIn : nan ∈ keys
    · rw [alone nanIn a left, alone nanIn b right]
      exact iff_of_true rfl rfl
    · exact keyOrder_eq_eq_iff (ne_of_mem_of_not_mem left nanIn) (ne_of_mem_of_not_mem right nanIn)

/-- The order is transitive in a collection where NaN is absent or all others are equal. -/
theorem keyOrder_trans_iff :
    (∀ a ∈ keys, ∀ b ∈ keys, ∀ c ∈ keys, (a.keyOrder b).isLE = true →
        (b.keyOrder c).isLE = true → (a.keyOrder c).isLE = true) ↔
      (nan ∈ keys → ∀ a ∈ keys, ∀ b ∈ keys, a ≠ nan → b ≠ nan → a.sameKey b = true) := by
  constructor
  · intro law nanIn a left b right aNumber bNumber
    -- Any two numbers are in ascending order, by way of NaN.
    have ascending {a b : Double} (left : a ∈ keys) (right : b ∈ keys) :
        (a.keyOrder b).isLE = true := by
      apply law a left nan nanIn b right
      · rw [keyOrder_nan_right]
        rfl
      · rfl
    have up := ascending left right
    have down := ascending right left
    rw [swap_keyOrder] at down
    rw [← keyOrder_eq_eq_iff aNumber bNumber]
    exact Ordering.eq_eq_of_isLE_of_isLE_swap up down
  · intro others a left b middle c right first second
    by_cases number : b = nan
    · subst number
      apply isLE_keyOrder_of_numbers
      intro aNumber cNumber
      have same := others middle a left c right aNumber cNumber
      rw [(keyOrder_eq_eq_iff aNumber cNumber).2 same]
      rfl
    · exact isLE_keyOrder_trans number first second

/-- Equality of keys is an equivalence and the order is antisymmetric. Of a collection of numbers,
equal keys are hashed alike if and only if it does not hold both zeros, the order goes with equality
if and only if it does not hold NaN beside another number, and the order is transitive if and only
if it does not hold NaN beside two numbers that differ. -/
theorem number_keys_lawful_iff :
    (Equivalence (fun a b : Double => a.sameKey b = true) ∧ nan.sameKey nan = true ∧
      (zero false).sameKey (zero true) = true ∧ ∀ a b : Double, a.sameKey b = true ↔
        a = b ∨ ∃ negative, a = zero negative ∧ b = zero !negative) ∧
    (∀ a b : Double, b.keyOrder a = (a.keyOrder b).swap) ∧
    (nan.hashed = none ∧ ∀ bits, ofBits bits ≠ nan → (ofBits bits).hashed = some bits) ∧
    ((∀ a ∈ keys, ∀ b ∈ keys, a.sameKey b = true → a.hashed = b.hashed) ↔
      ¬(zero false ∈ keys ∧ zero true ∈ keys)) ∧
    ((∀ a ∈ keys, ∀ b ∈ keys, a.keyOrder b = .eq ↔ a.sameKey b = true) ↔
      (nan ∈ keys → ∀ a ∈ keys, a = nan)) ∧
    ((∀ a ∈ keys, ∀ b ∈ keys, ∀ c ∈ keys, (a.keyOrder b).isLE = true →
        (b.keyOrder c).isLE = true → (a.keyOrder c).isLE = true) ↔
      (nan ∈ keys → ∀ a ∈ keys, ∀ b ∈ keys, a ≠ nan → b ≠ nan → a.sameKey b = true)) := by
  refine ⟨⟨equivalence_sameKey, rfl, rfl, ?_⟩, swap_keyOrder, ⟨rfl, hashed_ofBits⟩, ?_, ?_, ?_⟩
  · intro a b
    exact sameKey_iff_eq_or_zeros
  · exact hashed_eq_iff keys
  · exact keyOrder_eq_iff keys
  · exact keyOrder_trans_iff keys

/-- The two zeros are equal and are hashed differently. NaN is not equal to zero but stands at the
same place of the order. Infinity is at most NaN and NaN at most zero, but infinity is not. -/
theorem number_keys_unlawful :
    ((zero false).sameKey (zero true) = true ∧ (zero false).hashed ≠ (zero true).hashed) ∧
    (nan.keyOrder (zero false) = .eq ∧ nan.sameKey (zero false) = false) ∧
    (((infinite false).keyOrder nan).isLE = true ∧ (nan.keyOrder (zero false)).isLE = true ∧
      ((infinite false).keyOrder (zero false)).isLE = false) := by
  decide

end Double

end Minifier
