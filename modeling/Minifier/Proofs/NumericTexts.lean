import Minifier.Constant.Basic
import Minifier.Proofs.Double.Notation
import Minifier.Proofs.Double.Whole

/-!
# Which texts are numbers

The language's conversion of strings to numbers takes the blanks off a text and then knows three
kinds of texts: the empty one, digits behind the mark of a base, and decimal numbers with an optional
sign. All other texts are NaN. Only digits in a base can be left without an answer, and only because
the number they spell is past `2 ^ 53`: the 64-bit arithmetic in which they are added up never
overflows before that is noticed.
-/

namespace Minifier

namespace Text

/-! ## Blanks around a text -/

/-- The core of a text is what is left without the blanks at its two ends. -/
structure IsCore (text core : List Char) : Prop where
  around : ∃ before after, text = before ++ core ++ after ∧
    (∀ c ∈ before, isBlank c = true) ∧ ∀ c ∈ after, isBlank c = true
  first : ∀ c ∈ core.head?, isBlank c = false
  last : ∀ c ∈ core.getLast?, isBlank c = false

/-- Trimming leaves the core of a text. -/
theorem isCore_trim (text : List Char) : IsCore text (trim text) := by
  let kept := text.dropWhile isBlank
  let after := (kept.reverse.takeWhile isBlank).reverse
  have split : kept = trim text ++ after := by
    rw [trim, ← List.reverse_append, List.takeWhile_append_dropWhile, List.reverse_reverse]
  refine ⟨⟨text.takeWhile isBlank, after, ?_, fun _ => List.mem_takeWhile_imp, ?_⟩, ?_, ?_⟩
  · rw [List.append_assoc, ← split, List.takeWhile_append_dropWhile]
  · intro c mem
    exact List.mem_takeWhile_imp (List.mem_reverse.mp mem)
  · intro c mem
    apply Decimal.head_dropWhile isBlank text c
    change c ∈ kept.head?
    rw [split]
    exact List.mem_head?_append_of_mem_head? mem
  · rw [trim, List.getLast?_reverse]
    exact Decimal.head_dropWhile isBlank kept.reverse

/-- Trimming finds the core of a text, and a text has only one. -/
theorem isCore_iff {text core : List Char} : IsCore text core ↔ core = trim text := by
  constructor
  · rintro ⟨⟨before, after, rfl, blankBefore, blankAfter⟩, first, last⟩
    rw [trim, List.append_assoc, List.dropWhile_append_of_pos blankBefore]
    cases core with
    | nil =>
      have none := @List.dropWhile_append_of_pos _ isBlank after [] blankAfter
      rw [List.append_nil] at none
      rw [List.nil_append, none]
      rfl
    | cons c core =>
      have leading : (c :: core ++ after).dropWhile isBlank = c :: core ++ after :=
        List.dropWhile_eq_self_iff.mpr fun _ => by simpa using first
      have trailing : (c :: core).reverse.dropWhile isBlank = (c :: core).reverse :=
        List.dropWhile_eq_self_iff.mpr fun _ => by
          rw [List.getElem_reverse]
          simpa [List.getLast?_eq_getElem?] using last
      rw [leading, List.reverse_append, List.dropWhile_append_of_pos (by simpa using blankAfter),
        trailing, List.reverse_reverse]
  · rintro rfl
    exact isCore_trim text

end Text

/-! ## Digits in a base -/

open Text (isDigitIn natInBase digitValue?)

/-- The value of a digit; other characters count as zero. -/
def digitOf (c : Char) : Nat :=
  (digitValue? c).getD 0

/-- Further digits do not make a number less. -/
theorem le_foldl_digits {base : Nat} (positive : 0 < base) (digits : List Char) (n : Nat) :
    n ≤ digits.foldl (fun n c => base * n + digitOf c) n := by
  induction digits generalizing n with
  | nil => exact le_rfl
  | cons c digits ih =>
    have more : n ≤ base * n := Nat.le_mul_of_pos_left n positive
    exact (more.trans (Nat.le_add_right ..)).trans (ih _)

/-- What one more digit gives. A number that is not past `2 ^ 53` has room for it in 64 bits. -/
theorem appendDigit_eq {base : Nat} {n : UInt64} {c : Char} (small : base ≤ 16)
    (digit : isDigitIn base c = true) (bound : n.toNat ≤ 2 ^ 53) :
    appendDigit base n c =
      if base * n.toNat + digitOf c ≤ 2 ^ 53 then .ok (.ofNat (base * n.toNat + digitOf c))
      else .error .inexact := by
  unfold isDigitIn at digit
  unfold appendDigit digitOf
  split at digit
  · next d value =>
    have less : d < base := of_decide_eq_true digit
    have room : n.toNat * base ≤ 2 ^ 53 * 16 := Nat.mul_le_mul bound small
    have product : (n * .ofNat base).toNat = n.toNat * base := by
      rw [UInt64.toNat_mul, UInt64.toNat_ofNat', Nat.mod_eq_of_lt (by omega : base < 2 ^ 64),
        Nat.mod_eq_of_lt (by omega)]
    have sum : (n * .ofNat base + .ofNat d).toNat = base * n.toNat + d := by
      rw [UInt64.toNat_add, product, UInt64.toNat_ofNat', Nat.mod_eq_of_lt (by omega : d < 2 ^ 64),
        Nat.mod_eq_of_lt (by omega), Nat.mul_comm]
    rw [value]
    dsimp only
    rw [if_neg (by omega), if_neg (by omega), product, if_neg (by omega), sum, Option.getD_some]
    by_cases inexact : 2 ^ 53 < base * n.toNat + d
    · rw [if_pos inexact, if_neg (by omega)]
    · rw [if_neg inexact, if_pos (by omega), ← sum, UInt64.ofNat_toNat]
  · cases digit

section Digits

variable {base : Nat} (positive : 0 < base) (small : base ≤ 16) {digits : List Char}
  (proper : ∀ c ∈ digits, isDigitIn base c = true)
include positive small proper

/-- The loop over the digits adds them up until the number is past `2 ^ 53`. -/
theorem foldlM_appendDigit {n : UInt64} (bound : n.toNat ≤ 2 ^ 53) :
    digits.foldlM (appendDigit base) n =
      let m := digits.foldl (fun n c => base * n + digitOf c) n.toNat
      if m ≤ 2 ^ 53 then .ok (.ofNat m) else .error .inexact := by
  induction digits generalizing n with
  | nil =>
    rw [List.foldlM_nil, List.foldl_nil]
    dsimp only
    rw [if_pos bound, UInt64.ofNat_toNat]
    rfl
  | cons c digits ih =>
    obtain ⟨digit, proper⟩ := List.forall_mem_cons.1 proper
    rw [List.foldlM_cons, appendDigit_eq small digit bound, List.foldl_cons]
    by_cases fits : base * n.toNat + digitOf c ≤ 2 ^ 53
    · have same : (UInt64.ofNat (base * n.toNat + digitOf c)).toNat = base * n.toNat + digitOf c := by
        rw [UInt64.toNat_ofNat', Nat.mod_eq_of_lt (by omega)]
      have rest := ih proper (same.trans_le fits)
      rw [same] at rest
      rw [if_pos fits]
      exact rest
    · -- The digits that follow do not bring the number back.
      have further := le_foldl_digits positive digits (base * n.toNat + digitOf c)
      rw [if_neg fits]
      dsimp only
      rw [if_neg (by omega)]
      rfl

/-- Digits are added up without overflow; they have no number only if it is past `2 ^ 53`. -/
theorem wholeInBase_eq (nonempty : digits ≠ []) :
    wholeInBase base digits =
      if natInBase base digits ≤ 2 ^ 53 then .ok (.ofNat (natInBase base digits))
      else .error .inexact := by
  rw [wholeInBase, if_neg (by simpa using nonempty)]
  exact foldlM_appendDigit positive small proper (Nat.zero_le _)

/-- Digits in a base are read exactly up to `2 ^ 53`, and not at all beyond it. -/
theorem numberInBase_eq (nonempty : digits ≠ []) :
    numberInBase? base digits =
      if natInBase base digits ≤ 2 ^ 53 then some (.ofNat (natInBase base digits))
      else none := by
  rw [numberInBase?, if_neg (by simpa using ⟨nonempty, proper⟩),
    wholeInBase_eq positive small proper nonempty]
  by_cases fits : natInBase base digits ≤ 2 ^ 53
  · rw [if_pos fits, if_pos fits]
    dsimp only
    rw [UInt64.toNat_ofNat', Nat.mod_eq_of_lt (by omega)]
  · rw [if_neg fits, if_neg fits]

end Digits

/-- A text with other characters, or without any, is no number in a base. -/
theorem numberInBase_nan {base : Nat} {digits : List Char}
    (improper : ¬(digits ≠ [] ∧ ∀ c ∈ digits, isDigitIn base c = true)) :
    numberInBase? base digits = some .nan := by
  rw [numberInBase?, if_pos]
  simpa [or_iff_not_imp_left] using improper

/-- The marks of a base, as they stand behind a zero. -/
def baseMarks : List (Char × Nat) :=
  [('x', 16), ('X', 16), ('o', 8), ('O', 8), ('b', 2), ('B', 2)]

/-- The texts with digits in a base. -/
inductive BaseText : List Char → Nat → List Char → Prop
  | mk {mark : Char} {base : Nat} {digits : List Char} (known : (mark, base) ∈ baseMarks)
    (nonempty : digits ≠ []) (proper : ∀ c ∈ digits, isDigitIn base c = true) :
    BaseText ('0' :: mark :: digits) base digits

/-- The marks of a base are told by a table. -/
theorem radixOf_eq_some_iff {mark : Char} {base : Nat} :
    radixOf? mark = some base ↔ (mark, base) ∈ baseMarks := by
  simp only [radixOf?, baseMarks, List.mem_cons, Prod.mk.injEq, List.not_mem_nil, or_false]
  grind

/-- The bases are small enough for their digits to be digits and letters. -/
theorem base_bounds {mark : Char} {base : Nat} (known : (mark, base) ∈ baseMarks) :
    0 < base ∧ base ≤ 16 := by
  simp only [baseMarks, List.mem_cons, Prod.mk.injEq, List.not_mem_nil, or_false] at known
  omega

/-! ## Decimal numbers -/

open Decimal (Numeral SignText BeginsSigned splitSign_append exists_signText)

/-- The texts of decimal numbers, and the number nearest to each. -/
inductive DecimalText : List Char → Double → Prop
  | infinity {sign : List Char} {negative : Bool} (signed : SignText sign negative) :
    DecimalText (sign ++ "Infinity".toList) (.infinite negative)
  | numeral {sign body : List Char} {negative : Bool} {d : Decimal}
    (signed : SignText sign negative) (numeral : Numeral body d) :
    DecimalText (sign ++ body) (.ofDecimal negative d)

namespace Double

/-- A numeral is zero, too great or rounded, whatever its sign. -/
theorem ofDecimal_cases (d : Decimal) :
    (∀ negative, ofDecimal negative d = .zero negative) ∨
    (∀ negative, ofDecimal negative d = .infinite negative) ∨
    ∃ num den, ∀ negative, ofDecimal negative d = ofUnits negative num den := by
  unfold ofDecimal
  generalize unitsPerOne = one
  dsimp only
  split
  · exact .inl fun _ => rfl
  · split
    · split
      · exact .inr (.inl fun _ => rfl)
      · exact .inr (.inr ⟨_, _, fun _ => rfl⟩)
    · split
      · exact .inl fun _ => rfl
      · exact .inr (.inr ⟨_, _, fun _ => rfl⟩)

/-- Rounding a decimal number gives a number. -/
theorem ofDecimal_ne_nan (negative : Bool) (d : Decimal) : ofDecimal negative d ≠ .nan := by
  intro nan
  obtain zero | infinite | ⟨num, den, rounded⟩ := ofDecimal_cases d
  · rw [zero] at nan
    cases nan
  · rw [infinite] at nan
    cases nan
  · rw [rounded, ofUnits] at nan
    split at nan <;> cases nan

/-- Rounding does not depend on the sign. -/
theorem neg_ofDecimal (negative : Bool) (d : Decimal) :
    (ofDecimal negative d).neg = ofDecimal (!negative) d := by
  obtain zero | infinite | ⟨num, den, rounded⟩ := ofDecimal_cases d
  · rw [zero, zero]
    rfl
  · rw [infinite, infinite]
    rfl
  · rw [rounded, rounded, ofUnits, ofUnits]
    split <;> rfl

end Double

/-- The text of a decimal number stands for a number. -/
theorem DecimalText.ne_nan {text : List Char} {x : Double} (decimal : DecimalText text x) :
    x ≠ .nan := by
  cases decimal with
  | infinity signed => nofun
  | @numeral _ _ negative d => exact Double.ofDecimal_ne_nan negative d

/-! Characters of numerals -/

theorem isDecimalChar_of_isDigit {c : Char} (digit : c.isDigit = true) : isDecimalChar c = true := by
  simp [isDecimalChar, digit]

/-- An exponent has no other characters than numerals do. -/
theorem isDecimalChar_exponent {tail : List Char} {e : Int} (exponent : Decimal.Exponent tail e) :
    ∀ c ∈ tail, isDecimalChar c = true := by
  have mark {c : Char} (known : c = 'e' ∨ c = 'E') : isDecimalChar c = true := by
    obtain rfl | rfl := known <;> rfl
  cases exponent with
  | none => nofun
  | plain known proper =>
    exact List.forall_mem_cons.2 ⟨mark known, fun c mem =>
      isDecimalChar_of_isDigit (proper.isDigit c mem)⟩
  | plus known proper | minus known proper =>
    exact List.forall_mem_cons.2 ⟨mark known, List.forall_mem_cons.2 ⟨rfl, fun c mem =>
      isDecimalChar_of_isDigit (proper.isDigit c mem)⟩⟩

/-- Numerals consist of the characters that are let through. -/
theorem isDecimalChar_numeral {text : List Char} {d : Decimal} (numeral : Numeral text d) :
    ∀ c ∈ text, isDecimalChar c = true := by
  cases numeral with
  | whole proper exponent =>
    exact List.forall_mem_append.2 ⟨fun c mem => isDecimalChar_of_isDigit (proper.isDigit c mem),
      isDecimalChar_exponent exponent⟩
  | point proper places exponent =>
    exact List.forall_mem_append.2 ⟨fun c mem => isDecimalChar_of_isDigit (proper.isDigit c mem),
      List.forall_mem_cons.2 ⟨rfl, List.forall_mem_append.2
        ⟨fun c mem => isDecimalChar_of_isDigit (places c mem), isDecimalChar_exponent exponent⟩⟩⟩
  | fraction proper exponent =>
    exact List.forall_mem_cons.2 ⟨rfl, List.forall_mem_append.2
      ⟨fun c mem => isDecimalChar_of_isDigit (proper.isDigit c mem), isDecimalChar_exponent exponent⟩⟩

/-- A numeral begins with a digit or a point. -/
theorem beginsDecimal_numeral {text : List Char} {d : Decimal} (numeral : Numeral text d) :
    beginsDecimal text = true := by
  obtain ⟨c, rest, rfl, head⟩ := numeral.exists_cons
  simpa [beginsDecimal] using head

/-! What begins like a decimal number -/

/-- What begins with a digit or a point has no sign. -/
theorem not_beginsSigned {text : List Char} (begins : beginsDecimal text = true) :
    ¬BeginsSigned text := by
  rintro (head | head) <;> simp [beginsDecimal, head] at begins

/-- Digits and points have no case. -/
theorem toLower_eq {c : Char} (other : c.isDigit = true ∨ c = '.') : c.toLower = c := by
  obtain digit | rfl := other
  · simp only [Char.isDigit, Bool.and_eq_true, decide_eq_true_eq] at digit
    exact dif_neg fun upper => absurd (UInt32.le_trans upper.1 digit.2) (by decide)
  · rfl

/-- The words for numbers that are not finite do not begin like a decimal number. -/
theorem head_toLower_of_beginsDecimal {text word : List Char} (begins : beginsDecimal text = true)
    (same : text.map Char.toLower = word) : beginsDecimal word = true := by
  subst same
  cases text with
  | nil => cases begins
  | cons c text =>
    have other : c.isDigit = true ∨ c = '.' := by simpa [beginsDecimal] using begins
    simpa [beginsDecimal, toLower_eq other] using other

/-- A text that begins like a decimal number is read as a numeral or not at all. -/
theorem Double.parse_eq_of_beginsDecimal {text : List Char} (begins : beginsDecimal text = true) :
    Double.parse? text = (Decimal.parse? text).map (.ofDecimal false) := by
  have split := splitSign_append .none (not_beginsSigned begins)
  rw [List.nil_append] at split
  rw [Double.parse?, split]
  dsimp only
  cases Decimal.parse? text with
  | some d => rfl
  | none =>
    have word (word : List Char) (letter : beginsDecimal word = false) :
        text.map Char.toLower ≠ word := fun same => by
      rw [head_toLower_of_beginsDecimal begins same] at letter
      cases letter
    dsimp only
    rw [if_neg (not_or.2 ⟨word _ rfl, word _ rfl⟩), if_neg (word _ rfl), Option.map_none]

/-! Reading -/

/-- The text of a decimal number is read as the number nearest to it. -/
theorem numberOfDecimal_eq {text : List Char} {x : Double} (decimal : DecimalText text x) :
    numberOfDecimal text = x := by
  cases decimal with
  | infinity signed =>
    rw [numberOfDecimal, splitSign_append signed (by simp [BeginsSigned])]
    rfl
  | @numeral sign body negative d signed numeral =>
    have begins := beginsDecimal_numeral numeral
    have word : body ≠ "Infinity".toList := by
      rintro rfl
      cases begins
    have filtered : ¬(!body.all isDecimalChar || !beginsDecimal body) = true := by
      simpa [begins] using isDecimalChar_numeral numeral
    rw [numberOfDecimal, splitSign_append signed (not_beginsSigned begins)]
    dsimp only
    rw [if_neg word, if_neg filtered, Double.parse_eq_of_beginsDecimal begins, numeral.parse_eq,
      Option.map_some]
    dsimp only
    split
    · next minus => rw [Double.neg_ofDecimal, minus, Bool.not_false]
    · next plus => rw [Bool.not_eq_true] at plus; rw [plus]

/-- Any other text is not a number. -/
theorem numberOfDecimal_nan {text : List Char} (other : ∀ x, ¬DecimalText text x) :
    numberOfDecimal text = .nan := by
  obtain ⟨sign, signed, eq⟩ := exists_signText text
  rw [numberOfDecimal]
  generalize splitSign text = split at *
  obtain ⟨negative, body⟩ := split
  dsimp only at *
  have word : body ≠ "Infinity".toList := by
    rintro rfl
    exact other _ (eq ▸ DecimalText.infinity signed)
  rw [if_neg word]
  split
  · rfl
  · next filtered =>
    have begins : beginsDecimal body = true := by
      simp only [Bool.or_eq_true, not_or, Bool.not_eq_true', Bool.not_eq_false] at filtered
      exact filtered.2
    rw [Double.parse_eq_of_beginsDecimal begins]
    cases read : Decimal.parse? body with
    | none => rfl
    | some d =>
      exact absurd (eq ▸ DecimalText.numeral signed (Decimal.parse_eq_some_iff.1 read)) (other _)

/-! ## All texts -/

/-- The mark of a base does not occur in a decimal number. -/
theorem not_decimalText_of_mark {mark : Char} {base : Nat} (known : (mark, base) ∈ baseMarks)
    (digits : List Char) (x : Double) : ¬DecimalText ('0' :: mark :: digits) x := by
  generalize eq : '0' :: mark :: digits = text
  intro decimal
  cases decimal with
  | infinity signed => cases signed <;> cases eq
  | @numeral sign body negative d signed numeral =>
    cases signed with
    | plus | minus => cases eq
    | none =>
      have char : isDecimalChar mark = true := by
        refine isDecimalChar_numeral numeral mark ?_
        rw [← List.nil_append body, ← eq]
        simp
      have marks : ∀ pair ∈ baseMarks, isDecimalChar pair.1 = false := by decide
      rw [marks _ known] at char
      cases char

variable {s : String}

/-- A text of blanks is zero. -/
theorem numberOfText_empty (empty : Text.trim s.toList = []) :
    numberOfText? s = some (.zero false) := by
  rw [numberOfText?, empty]

/-- Behind a zero and the mark of a base, digits are read in that base. -/
theorem numberOfText_base {mark : Char} {base : Nat} {digits : List Char}
    (eq : Text.trim s.toList = '0' :: mark :: digits) (known : (mark, base) ∈ baseMarks) :
    numberOfText? s = numberInBase? base digits := by
  simp only [numberOfText?, eq, radixOf_eq_some_iff.2 known]

/-- A text without digits in a base is read as a decimal number. -/
theorem numberOfText_decimal (nonempty : Text.trim s.toList ≠ [])
    (other : ∀ base digits, ¬BaseText (Text.trim s.toList) base digits) :
    numberOfText? s = some (numberOfDecimal (Text.trim s.toList)) := by
  rw [numberOfText?]
  generalize Text.trim s.toList = text at *
  split
  · exact absurd rfl nonempty
  · next mark digits =>
    split
    · next base radix =>
      have known := radixOf_eq_some_iff.1 radix
      rw [numberInBase_nan fun proper => other base digits (.mk known proper.1 proper.2),
        numberOfDecimal_nan (not_decimalText_of_mark known digits)]
    · rfl
  · rfl

/-- Digits in a base have their exact number, unless it is past `2 ^ 53`. -/
theorem BaseText.numberOfText_eq {base : Nat} {digits : List Char}
    (text : BaseText (Text.trim s.toList) base digits) :
    numberOfText? s =
      if natInBase base digits ≤ 2 ^ 53 then some (.ofNat (natInBase base digits)) else none := by
  generalize eq : Text.trim s.toList = trimmed at text
  cases text with
  | mk known nonempty proper =>
    obtain ⟨positive, small⟩ := base_bounds known
    rw [numberOfText_base eq known, numberInBase_eq positive small proper nonempty]

/-- Digits in a base are never reported as too large. -/
theorem BaseText.not_overflow {text digits : List Char} {base : Nat}
    (inBase : BaseText text base digits) : wholeInBase base digits ≠ .error .overflow := by
  cases inBase with
  | mk known nonempty proper =>
    obtain ⟨positive, small⟩ := base_bounds known
    rw [wholeInBase_eq positive small proper nonempty]
    split <;> nofun

/-- Digits in a base are the only texts without an answer. -/
theorem numberOfText_eq_none_iff : numberOfText? s = none ↔
    ∃ base digits, BaseText (Text.trim s.toList) base digits ∧ 2 ^ 53 < natInBase base digits := by
  constructor
  · intro none
    by_cases inBase : ∃ base digits, BaseText (Text.trim s.toList) base digits
    · obtain ⟨base, digits, text⟩ := inBase
      refine ⟨base, digits, text, lt_of_not_ge fun exact => ?_⟩
      rw [text.numberOfText_eq, if_pos exact] at none
      cases none
    · by_cases empty : Text.trim s.toList = []
      · rw [numberOfText_empty empty] at none
        cases none
      · rw [numberOfText_decimal empty fun base digits text => inBase ⟨base, digits, text⟩] at none
        cases none
  · rintro ⟨base, digits, text, large⟩
    rw [text.numberOfText_eq, if_neg (not_le.2 large)]

/-- The conversion of strings to numbers accepts exactly the numeric texts. Without the blanks around
it, a text that is empty is zero; digits in a base are the whole number that they spell if it is at
most `2 ^ 53`, and have no answer otherwise, though not for lack of room in 64 bits; any other text is
the number that it denotes as a decimal number, and NaN if it is none. -/
theorem numberOfText_grammar {s : String} {t : List Char} (core : Text.IsCore s.toList t) :
    (t = [] → numberOfText? s = some (.zero false)) ∧
    (∀ base digits, BaseText t base digits →
      (natInBase base digits ≤ 2 ^ 53 →
        ∃ x, numberOfText? s = some x ∧ x.value? = some (natInBase base digits : ℚ)) ∧
      wholeInBase base digits ≠ .error .overflow) ∧
    (numberOfText? s = none ↔
      ∃ base digits, BaseText t base digits ∧ 2 ^ 53 < natInBase base digits) ∧
    (t ≠ [] → (∀ base digits, ¬BaseText t base digits) →
      ∃ x, numberOfText? s = some x ∧ (x ≠ .nan ↔ ∃ y, DecimalText t y) ∧
        ∀ y, DecimalText t y → x = y) := by
  obtain rfl := Text.isCore_iff.1 core
  refine ⟨numberOfText_empty, ?_, numberOfText_eq_none_iff, ?_⟩
  · intro base digits text
    refine ⟨fun exact => ⟨_, ?_, Double.isWhole_ofNat exact⟩, text.not_overflow⟩
    rw [text.numberOfText_eq, if_pos exact]
  · intro nonempty other
    refine ⟨_, numberOfText_decimal nonempty other, ⟨fun proper => ?_, ?_⟩,
      fun y => numberOfDecimal_eq⟩
    · by_contra none
      exact proper (numberOfDecimal_nan fun x decimal => none ⟨x, decimal⟩)
    · rintro ⟨y, decimal⟩
      rw [numberOfDecimal_eq decimal]
      exact decimal.ne_nan

/-- Octal digits between blanks, as great as they may be. -/
theorem numberOfText_grammar_octal :
    Text.IsCore "\t0O400000000000000000 ".toList "0O400000000000000000".toList ∧
      ∃ x, numberOfText? "\t0O400000000000000000 " = some x ∧ x.value? = some (2 ^ 53 : ℚ) := by
  have core : Text.IsCore "\t0O400000000000000000 ".toList "0O400000000000000000".toList :=
    Text.isCore_iff.2 (by decide)
  have digits : ∀ c ∈ "400000000000000000".toList, isDigitIn 8 c = true :=
    List.all_eq_true.1 rfl
  have spelled : natInBase 8 "400000000000000000".toList = 2 ^ 53 := by decide
  have text : BaseText "0O400000000000000000".toList 8 "400000000000000000".toList :=
    @BaseText.mk 'O' 8 _ (by decide) (by decide) digits
  obtain ⟨x, read, value⟩ := ((numberOfText_grammar core).2.1 8 _ text).1 spelled.le
  refine ⟨core, x, read, ?_⟩
  rw [value, spelled]
  norm_num

-- A sign makes a base a mere letter, and a point needs a digit on one side only.
example : numberOfText? "-0x10" = some .nan ∧ numberOfText? "\t5.E1 " = some (.ofNat 50) := by
  decide +kernel

end Minifier
