import Minifier.Constant.Fold
import Minifier.Proofs.Double.Whole

/-!
# Bitwise folding is exact

The bitwise operators work on 32-bit words, which are made of numbers by cutting off the fraction
and taking the rest modulo `2 ^ 32`. All of that is done in floating point. It is exact nevertheless,
since only whole numbers below `2 ^ 53` are left after the remainder. What an operator gives is
again a number that is made into the same word.
-/

namespace Minifier

namespace Double

variable {x : Double} {n : ℤ}

/-- The integer part modulo `2 ^ 32`, and zero for a number that is not finite. -/
def unsignedWord (x : Double) : ℤ :=
  match x.value? with
  | some q => towardZero q % 2 ^ 32
  | none => 0

/-- The unsigned word read in two's complement. -/
def signedWord (x : Double) : ℤ :=
  if x.unsignedWord < 2 ^ 31 then x.unsignedWord else x.unsignedWord - 2 ^ 32

/-! ## From numbers to words -/

/-- A whole number has no fraction to cut off. -/
theorem towardZero_intCast (n : ℤ) : towardZero n = n := by
  unfold towardZero
  split <;> simp

/-- The word of a whole number is its remainder. -/
theorem IsWhole.unsignedWord_eq (whole : IsWhole x n) : x.unsignedWord = n % 2 ^ 32 := by
  rw [unsignedWord, show x.value? = some (n : ℚ) from whole]
  dsimp only
  rw [towardZero_intCast]

/-- A whole number that is a word is not changed. -/
theorem IsWhole.clampUInt32_eq (whole : IsWhole x n) (least : 0 ≤ n) (most : n < 2 ^ 32) :
    (x.clampUInt32.toNat : ℤ) = n := by
  obtain ⟨negative, code, k, rfl, units, rfl⟩ := whole.exists_finite
  rw [clampUInt32, units, Nat.mul_div_cancel _ unitsPerOne_pos]
  cases negative with
  | false =>
    rw [signed_false] at most ⊢
    have small : k < 2 ^ 32 := by exact_mod_cast most
    rw [if_neg (by decide), if_pos small, UInt32.toNat_ofNat', Nat.mod_eq_of_lt small]
  | true =>
    -- Negative zero is the only such number.
    rw [signed_true] at least ⊢
    rw [if_pos rfl, show k = 0 by omega]
    rfl

/-- The floating point computation of a word is exact. -/
theorem toNat_toUInt32 (x : Double) : (x.toUInt32.toNat : ℤ) = x.unsignedWord := by
  rw [toUInt32]
  cases x with
  | nan | infinite => rfl
  | finite negative code =>
    by_cases zero : code.val = 0
    · have whole := isWhole_of_code_zero zero negative
      rw [whole.unsignedWord_eq, if_pos (by simp [isZero, zero])]
      rfl
    · have divisor : IsWhole (ofNat (2 ^ 32)) (2 ^ 32 : ℤ) := by
        exact_mod_cast isWhole_ofNat (by norm_num : 2 ^ 32 ≤ 2 ^ 53)
      have whole := isWhole_truncate (rfl : (Double.finite negative code).value? = some _)
      have rem := whole.remEuclid divisor (by norm_num) (by norm_num)
      rw [if_neg (by simp [isFinite, isZero, zero]), rem.clampUInt32_eq (by omega) (by omega)]
      rfl

/-- The word as bits. -/
def bits (x : Double) : BitVec 32 :=
  x.toUInt32.toBitVec

/-- The unsigned word is the bits read as a natural number. -/
theorem unsignedWord_eq (x : Double) : x.unsignedWord = x.bits.toNat := by
  rw [bits, UInt32.toNat_toBitVec, toNat_toUInt32]

/-- The signed word is the bits read in two's complement. -/
theorem signedWord_eq (x : Double) : x.signedWord = x.bits.toInt := by
  rw [signedWord, unsignedWord_eq, BitVec.toInt_eq_toNat_cond]
  split <;> split <;> omega

/-! ## From words to numbers -/

/-- A whole number keeps its sign. -/
theorem isNegative_ofInt (n : ℤ) : (ofInt n).isNegative = decide (n < 0) := by
  unfold ofInt ofUnits
  generalize n.natAbs * unitsPerOne = units
  dsimp only
  split <;> rfl

theorem ofInt_natCast (n : Nat) : ofInt n = ofNat n := by
  rw [ofInt, ofNat, Int.natAbs_natCast, decide_eq_false (by omega)]

/-- A whole number that was made of a word is made into that word again. -/
theorem bits_ofInt (least : -2 ^ 31 ≤ n) (most : n < 2 ^ 32) :
    (ofInt n).bits = BitVec.ofInt 32 n := by
  have word := toNat_toUInt32 (ofInt n)
  rw [(isWhole_ofInt (by omega)).unsignedWord_eq] at word
  apply BitVec.eq_of_toNat_eq
  rw [BitVec.toNat_ofInt, bits, UInt32.toNat_toBitVec]
  omega

end Double

open Double

/-- What a bitwise operator gives for two numbers: an operation on their words, read as a whole
number. -/
def Operator.onWords? (op : Operator) (x y : Double) : Option ℤ :=
  let s := BitVec.ofInt 32 x.signedWord
  let t := BitVec.ofInt 32 y.signedWord
  let u := BitVec.ofInt 32 x.unsignedWord
  let count := (y.unsignedWord % 32).toNat
  match op with
  | .bitAnd => some (s &&& t).toInt
  | .bitOr => some (s ||| t).toInt
  | .bitXor => some (s ^^^ t).toInt
  | .shiftLeft => some (s <<< count).toInt
  | .shiftRight => some (s.sshiftRight count).toInt
  | .shiftRightZero => some (u >>> count).toNat
  | _ => none

/-- The whole numbers that are 32-bit words, with or without a sign. -/
def IsIn32Bits (unsigned : Bool) (n : ℤ) : Prop :=
  if unsigned then 0 ≤ n ∧ n < 2 ^ 32 else -2 ^ 31 ≤ n ∧ n < 2 ^ 31

/-- Either kind of word fits into 33 bits with a sign. -/
theorem IsIn32Bits.bounds {unsigned : Bool} {n : ℤ} (bounded : IsIn32Bits unsigned n) :
    -2 ^ 31 ≤ n ∧ n < 2 ^ 32 := by
  unfold IsIn32Bits at bounded
  split at bounded <;> omega

theorem isIn32Bits_toInt (w : BitVec 32) : IsIn32Bits false w.toInt := by
  have most := w.toInt_lt
  have least := w.le_toInt
  rw [IsIn32Bits, if_neg (by decide)]
  omega

theorem isIn32Bits_toNat (w : BitVec 32) : IsIn32Bits true w.toNat := by
  have most := w.isLt
  rw [IsIn32Bits, if_pos rfl]
  omega

/-- Bitwise operators give words with a sign, but for the shift that fills in zeros. -/
theorem Operator.isIn32Bits_onWords {op : Operator} {x y : Double} {n : ℤ}
    (words : op.onWords? x y = some n) : IsIn32Bits (op == .shiftRightZero) n := by
  unfold onWords? at words
  dsimp only at words
  split at words <;> cases words
  case h_6 => exact isIn32Bits_toNat _
  all_goals exact isIn32Bits_toInt _

namespace Constant

/-- The constant is the number that is exactly `n`, and its word has the bits of `n`. -/
structure IsWord (c : Option Constant) (n : ℤ) : Prop where
  exact : ∃ r, c = some (.num r) ∧ r.value? = some (n : ℚ) ∧ r.isNegative = decide (n < 0)
  again : c.bind toWord? = some ⟨BitVec.ofInt 32 n⟩

/-- A word is a number without rounding. -/
theorem isWord_ofInt {unsigned : Bool} {n : ℤ} (bounded : IsIn32Bits unsigned n) :
    IsWord (some (.num (.ofInt n))) n := by
  obtain ⟨least, most⟩ := bounded.bounds
  refine ⟨⟨_, rfl, isWhole_ofInt (by omega), isNegative_ofInt n⟩, ?_⟩
  rw [Option.bind_some, toWord?, toNumber?, Option.map_some, ← bits_ofInt least most, bits,
    UInt32.ofBitVec_toBitVec]

/-- A bitwise operator folds two constants by the words of their numbers. -/
theorem bitwise_eq {a b : Constant} {x y : Double} (left : a.toNumber? = some x)
    (right : b.toNumber? = some y) (f : UInt32 → UInt32 → Constant) :
    bitwise f a b = some (f x.toUInt32 y.toUInt32) := by
  simp [bitwise, toWord?, left, right]

theorem ofSigned_eq (w : UInt32) : ofSigned w = .num (.ofInt w.toBitVec.toInt) := rfl

end Constant

/-- Multiplying a word by a power of two shifts its bits. -/
theorem toBitVec_ofNat_mul_pow (w : UInt32) (count : Nat) :
    (UInt32.ofNat (w.toNat * 2 ^ count)).toBitVec = w.toBitVec <<< count := by
  apply BitVec.eq_of_toNat_eq
  rw [BitVec.toNat_shiftLeft, Nat.shiftLeft_eq, UInt32.toNat_toBitVec, UInt32.toNat_toBitVec,
    UInt32.toNat_ofNat']

open Constant

/-- Folding computes what the operator does with words. -/
theorem Operator.fold_onWords {a b : Constant} {x y : Double} (left : a.toNumber? = some x)
    (right : b.toNumber? = some y) {op : Operator} {n : ℤ} (words : op.onWords? x y = some n) :
    op.fold? a b = some (.num (.ofInt n)) := by
  have count : (y.unsignedWord % 32).toNat = shiftCount y.toUInt32 := by
    rw [unsignedWord_eq]
    rfl
  unfold onWords? at words
  simp only [signedWord_eq, unsignedWord_eq x, BitVec.ofInt_toInt, BitVec.ofInt_natCast,
    BitVec.ofNat_toNat, BitVec.setWidth_eq, count] at words
  split at words
  · cases words
    exact bitwise_eq left right _
  · cases words
    exact bitwise_eq left right _
  · cases words
    exact bitwise_eq left right _
  · cases words
    rw [fold?, bitwise_eq left right, ofSigned_eq, toBitVec_ofNat_mul_pow]
    rfl
  · cases words
    rw [fold?, bitwise_eq left right, BitVec.toInt_sshiftRight, Int.shiftRight_eq_div_pow,
      Nat.cast_pow, Nat.cast_ofNat]
    rfl
  · cases words
    rw [fold?, bitwise_eq left right, BitVec.toNat_ushiftRight, Nat.shiftRight_eq_div_pow,
      ofInt_natCast]
    rfl
  · cases words

/-- The complement of a constant is that of the bits of its number. -/
theorem Operator.foldUnary_bitNot {a : Constant} {x : Double} (arg : a.toNumber? = some x) :
    bitNot.foldUnary? a = some (.num (.ofInt (~~~x.bits).toInt)) := by
  rw [foldUnary?, toWord?, arg]
  rfl

/-- The bitwise operators fold to exact results of 32-bit arithmetic: each gives the number that is
the result on the operands' words, which lies among the signed words, or among the unsigned ones for
the shift that fills in zeros. Such a result has its own word again, so that complementing a constant
twice gives the same as joining it with zero. -/
theorem bitwise_folding_exact {a b : Constant} {x y : Double} (left : a.toNumber? = some x)
    (right : b.toNumber? = some y) :
    (∀ op n, Operator.onWords? op x y = some n →
      IsWord (op.fold? a b) n ∧ IsIn32Bits (op == .shiftRightZero) n) ∧
    (IsWord (Operator.bitNot.foldUnary? a) (~~~BitVec.ofInt 32 x.signedWord).toInt ∧
      IsIn32Bits false (~~~BitVec.ofInt 32 x.signedWord).toInt) ∧
    (Operator.bitNot.foldUnary? a).bind Operator.bitNot.foldUnary? =
      Operator.bitOr.fold? a (.num (.zero false)) := by
  refine ⟨fun op n words => ?_, ?_, ?_⟩
  · have bounded := op.isIn32Bits_onWords words
    rw [Operator.fold_onWords left right words]
    exact ⟨isWord_ofInt bounded, bounded⟩
  · have bounded := isIn32Bits_toInt (~~~x.bits)
    rw [Operator.foldUnary_bitNot left, signedWord_eq, BitVec.ofInt_toInt]
    exact ⟨isWord_ofInt bounded, bounded⟩
  · obtain ⟨least, most⟩ := (isIn32Bits_toInt (~~~x.bits)).bounds
    have zero : (Constant.num (.zero false)).toNumber? = some (.zero false) := rfl
    have none : (Double.zero false).unsignedWord = 0 := by
      rw [(isWhole_zero false).unsignedWord_eq]
      rfl
    have words : Operator.bitOr.onWords? x (.zero false) = some x.bits.toInt := by
      have same : (Double.zero false).signedWord = 0 := by
        rw [signedWord, none]
        rfl
      simp only [Operator.onWords?, same, signedWord_eq, BitVec.ofInt_toInt]
      simp
    rw [Operator.fold_onWords left zero words, Operator.foldUnary_bitNot left, Option.bind_some,
      Operator.foldUnary_bitNot rfl, bits_ofInt least most, BitVec.ofInt_toInt, BitVec.not_not]

/-- A text with a fraction, beyond the words, shifted by more places than a word has. -/
theorem bitwise_folding_exact_wrapped :
    Constant.toNumber? (.str " -4294967298.5 ") = some (.ofDecimal true ⟨42949672985, -1⟩) ∧
      Constant.toNumber? (.num (.ofNat 33)) = some (.ofNat 33) ∧
      IsWord (Operator.shiftLeft.fold? (.str " -4294967298.5 ") (.num (.ofNat 33))) (-4) := by
  have left : Constant.toNumber? (.str " -4294967298.5 ") =
      some (.ofDecimal true ⟨42949672985, -1⟩) := by decide +kernel
  have right : Constant.toNumber? (.num (.ofNat 33)) = some (.ofNat 33) := by decide +kernel
  have words : Operator.shiftLeft.onWords? (.ofDecimal true ⟨42949672985, -1⟩) (.ofNat 33) =
      some (-4) := by decide +kernel
  exact ⟨left, right, ((bitwise_folding_exact left right).1 .shiftLeft (-4) words).1⟩

end Minifier
