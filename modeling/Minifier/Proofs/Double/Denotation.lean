import Minifier.Printer
import Minifier.Proofs.Double.Numeral

/-!
# Texts of numbers denote them

The text of a number and its source text are numerals for the same rational number, which the
number's shortest digits stand for. The source text is never longer. If it has neither point nor
exponent it is a mere run of digits, and it is still a literal with the point that a member access
puts behind it.
-/

namespace Minifier

namespace Decimal

/-- The numerals with an optional sign, and the rational numbers that they denote. -/
inductive Denotes : List Char → ℚ → Prop
  | mk {sign body : List Char} {negative : Bool} {d : Decimal} (signed : SignText sign negative)
    (numeral : Numeral body d) : Denotes (sign ++ body) ((if negative then -1 else 1) * d.value)

/-- A text denotes one number only. -/
theorem Denotes.unique {text : List Char} {x y : ℚ} (first : Denotes text x)
    (second : Denotes text y) : x = y := by
  obtain @⟨sign, body, negative, d, signed, numeral⟩ := first
  generalize eq : sign ++ body = text at second
  obtain ⟨signed', numeral'⟩ := second
  have split := splitSign_append signed numeral.not_beginsSigned
  rw [eq, splitSign_append signed' numeral'.not_beginsSigned] at split
  obtain ⟨rfl, rfl⟩ := Prod.mk.inj split
  obtain rfl := Option.some_inj.1 (numeral.parse_eq.symm.trans numeral'.parse_eq)
  rfl

/-- The number literals of the language: numerals whose whole part has no idle zero. -/
structure IsLiteral (text : List Char) (d : Decimal) : Prop where
  numeral : Numeral text d
  noIdleZero : leadsWithZero text = false

/-- The last digit is the rest of a division by ten. -/
theorem getLast_toDigits {n : Nat} (other : n % 10 ≠ 0) :
    (Nat.toDigits 10 n).getLast? ≠ some '0' := by
  have digit : ∀ d < 10, d ≠ 0 → Nat.digitChar d ≠ '0' := by decide
  rw [Nat.toDigits_eq_if (by decide)]
  split
  · next small =>
    rw [Nat.mod_eq_of_lt small] at other
    simpa using digit n small other
  · simpa using digit (n % 10) (Nat.mod_lt n (by decide)) other

end Decimal

namespace Double

open Decimal

variable {d : Digits}

/-- The whole number that the digits spell, with a sign, moved by as many places as the point stands
off their end. -/
def Digits.signedValue (d : Digits) (negative : Bool) : ℚ :=
  (if negative then -1 else 1) * (natOfDigits d.digits * 10 ^ (d.point - d.digits.length))

/-- There is at least one digit, and no zero at either end. -/
structure Digits.IsProper (d : Digits) : Prop where
  isDigits : IsDigits d.digits
  first : d.digits.head? ≠ some '0'
  last : d.digits.getLast? ≠ some '0'

theorem isProper_digitsOf (tie : TieRule) {code : Nat} (some : 0 < code) (lt : code < codes) :
    (digitsOf tie code).IsProper where
  isDigits := isDigits_toDigits _
  first := by
    obtain ⟨c, more, eq, other⟩ := digitsOf_begins tie some lt
    simpa [eq] using other
  last := getLast_toDigits (coefficient_shortest tie some lt)

/-- The digits of a number are read back as that number. -/
theorem ofDecimal_digitsOf (tie : TieRule) (negative : Bool) {code : Fin codes}
    (some : 0 < code.val) : ofDecimal negative (digitsOf tie code).decimal = .finite negative code := by
  obtain ⟨least, most⟩ := exponent_shortest tie some code.isLt
  rw [digitsOf, decimal_toDigits]
  exact ofDecimal_eq some (by omega) (by omega) (roundsTo_shortest tie some code.isLt) negative

theorem Digits.length_source_le (d : Digits) : d.source.length ≤ d.plain.length := by
  unfold source
  dsimp only
  generalize (if d.point - d.digits.length < 0 then ['-'] else []) ++ _ = tail
  split
  · next fraction eq =>
    rw [eq]
    split
    · next shorter => exact (shorter.2.le).trans (Nat.le_succ _)
    · exact Nat.le_succ _
  · split
    · next shorter => exact shorter.2.le
    · exact le_rfl

/-- The sign of a text. -/
theorem signText_of (negative : Bool) : SignText (if negative then ['-'] else []) negative := by
  cases negative
  · exact .none
  · exact .minus

theorem toList_signed (negative : Bool) (body : List Char) :
    (String.ofList (if negative then '-' :: body else body)).toList =
      (if negative then ['-'] else []) ++ body := by
  cases negative <;> simp

section Texts

variable (negative : Bool) {code : Fin codes} (nonzero : code.val ≠ 0)
include nonzero

theorem toList_text : (Double.finite negative code).text.toList =
    (if negative then ['-'] else []) ++ (digitsOf languageTie code).plain := by
  rw [text, if_neg nonzero]
  exact toList_signed negative _

theorem toList_source : (Double.finite negative code).source.toList =
    (if negative then ['-'] else []) ++ (digitsOf languageTie code).source := by
  rw [source, if_neg nonzero]
  exact toList_signed negative _

end Texts

/-- A numeral for digits with the sign of a number denotes the digits' value and nothing else. -/
theorem denotes_iff {body : List Char} (negative : Bool)
    (written : ∃ p, Spelled body p ∧ WritesOut d.decimal p) (x : ℚ) :
    Denotes ((if negative then ['-'] else []) ++ body) x ↔ x = d.signedValue negative := by
  obtain ⟨p, spelled, same⟩ := written
  have denotes := Denotes.mk (signText_of negative) spelled.numeral
  rw [same.value_eq, show _ * d.decimal.value = d.signedValue negative from rfl] at denotes
  constructor
  · intro other
    exact other.unique denotes
  · rintro rfl
    exact denotes

/-- A source text without point and exponent is a run of digits, and the point that follows belongs
to the literal. -/
theorem source_of_run {code : Fin codes} (nonzero : code.val ≠ 0)
    (noPoint : '.' ∉ (Double.finite false code).source.toList)
    (noExponent : 'e' ∉ (Double.finite false code).source.toList) :
    IsDigits (Double.finite false code).source.toList ∧
      ∃ p, IsLiteral ((Double.finite false code).source.toList ++ ['.']) p ∧
        p.value = (digitsOf languageTie code).decimal.value := by
  obtain ⟨p, spelled, same⟩ :=
    @Digits.spelled_source (digitsOf languageTie code) (isDigits_toDigits _)
  have noIdleZero := leadsWithZero_append_point (leadsWithZero_source code)
  have text := toList_source false nonzero
  rw [if_neg (by decide), List.nil_append] at text
  rw [← text] at spelled
  obtain ⟨run, rfl⟩ := spelled.isDigits noPoint noExponent
  exact ⟨run, _, ⟨run.trailing_point, noIdleZero⟩, same.value_eq⟩

theorem tokensBeforeMember_of_isDigits {v : Double} (run : IsDigits v.source.toList) :
    v.tokensBeforeMember = [.digits v.source, .punct "."] := by
  have none : (v.source.toList.any fun c => c == '.' || c == 'e' || c == 'x') = false := by
    rw [List.any_eq_false]
    intro c mem
    have digit := run.isDigit c mem
    simp only [Bool.or_eq_true, beq_iff_eq, not_or]
    refine ⟨⟨?_, ?_⟩, ?_⟩ <;> rintro rfl <;> cases digit
  rw [tokensBeforeMember, if_neg (by rw [none]; decide)]

/-- What the texts of a number have to do with its digits. -/
structure TextsDenote (v : Double) (negative : Bool) (d : Digits) : Prop where
  /-- The digits have no zero at either end, and are read back as the number. -/
  digits : d.IsProper ∧ ofDecimal negative d.decimal = v
  /-- The text denotes the digits' number and no other. -/
  text : ∀ x, Denotes v.text.toList x ↔ x = d.signedValue negative
  /-- So does the source text. -/
  source : ∀ x, Denotes v.source.toList x ↔ x = d.signedValue negative
  length : v.source.length ≤ v.text.length
  /-- Where the source text is a run of digits, the point that is put behind it before a member
  makes it a literal for the same number. -/
  literal : negative = false → '.' ∉ v.source.toList → 'e' ∉ v.source.toList →
    IsDigits v.source.toList ∧ v.tokensBeforeMember = [.digits v.source, .punct "."] ∧
      ∃ p, IsLiteral (v.source.toList ++ ['.']) p ∧ p.value = d.signedValue negative

/-- Both texts of a number denote exactly the rational number that its shortest digits stand for, and
the source text is never the longer one. -/
theorem number_texts_denote (negative : Bool) (code : Fin codes) (nonzero : code.val ≠ 0) :
    TextsDenote (.finite negative code) negative (digitsOf languageTie code) := by
  have some := Nat.pos_of_ne_zero nonzero
  have proper := isProper_digitsOf languageTie some code.isLt
  have readBack := ofDecimal_digitsOf languageTie negative some
  have text := toList_text negative nonzero
  have source := toList_source negative nonzero
  have run := @source_of_run code nonzero
  generalize digitsOf languageTie code = d at *
  refine ⟨⟨proper, readBack⟩, ?_, ?_, ?_, ?_⟩
  · rw [text]
    exact denotes_iff negative (Digits.spelled_plain proper.isDigits)
  · rw [source]
    exact denotes_iff negative (Digits.spelled_source proper.isDigits)
  · rw [← String.length_toList, ← String.length_toList, text, source, List.length_append,
      List.length_append]
    exact Nat.add_le_add_left (Digits.length_source_le d) _
  · rintro rfl noPoint noExponent
    obtain ⟨digits, p, literal, value⟩ := run noPoint noExponent
    refine ⟨digits, tokensBeforeMember_of_isDigits digits, p, literal, ?_⟩
    rw [value, Digits.signedValue, if_neg (by decide), one_mul]
    rfl

/-- A number whose source text has an exponent, which its text has not. -/
theorem number_texts_denote_exponent :
    (0x40fd4c0000000000 ≠ 0 ∧
      (Double.finite true ⟨0x40fd4c0000000000, by decide⟩).text = "-120000" ∧
      (Double.finite true ⟨0x40fd4c0000000000, by decide⟩).source = "-12e4") ∧
    Denotes "-120000".toList (-120000) ∧ Denotes "-12e4".toList (-120000) := by
  have texts : (Double.finite true ⟨0x40fd4c0000000000, by decide⟩).text = "-120000" ∧
      (Double.finite true ⟨0x40fd4c0000000000, by decide⟩).source = "-12e4" := by decide +kernel
  have digits : digitsOf languageTie 0x40fd4c0000000000 = ⟨['1', '2'], 6⟩ := by decide +kernel
  have value : Digits.signedValue ⟨['1', '2'], 6⟩ true = -120000 := by
    have coefficient : natOfDigits ['1', '2'] = 12 := by decide
    rw [Digits.signedValue, coefficient]
    norm_num
  have denote := number_texts_denote true ⟨0x40fd4c0000000000, by decide⟩ (by decide)
  rw [digits] at denote
  refine ⟨⟨by decide, texts⟩, ?_, ?_⟩
  · rw [← texts.1, ← value]
    exact (denote.text _).2 rfl
  · rw [← texts.2, ← value]
    exact (denote.source _).2 rfl

end Double

end Minifier
