import Minifier.Double.Text
import Minifier.Proofs.Double.Notation
import Minifier.Proofs.Double.Shortest

/-!
# Numerals spell numbers

Which texts spell which decimal numerals, as a relation: digits with an optional point among or in
front of them and an optional exponent. Reading a text that spells a numeral gives that numeral.
All layouts in which digits are written spell the digits' own numeral, except that a long whole
number has its zeros written out. With the shortest digits, the source text of a number is
therefore read as the number itself. No text of a number begins with a zero that could be left out.
-/

namespace Minifier

namespace Decimal

open Double (zeros)

/-- The part of a numeral behind its coefficient, and the exponent it stands for. -/
inductive ExponentText : List Char → Int → Prop
  | none : ExponentText [] 0
  | plain {digits : List Char} (proper : IsDigits digits) :
    ExponentText ('e' :: digits) (natOfDigits digits)
  | plus {digits : List Char} (proper : IsDigits digits) :
    ExponentText ('e' :: '+' :: digits) (natOfDigits digits)
  | minus {digits : List Char} (proper : IsDigits digits) :
    ExponentText ('e' :: '-' :: digits) (-natOfDigits digits)

/-- The texts that spell a numeral. -/
inductive Spelled : List Char → Decimal → Prop
  | whole {digits tail : List Char} {e : Int} (proper : IsDigits digits)
    (exponent : ExponentText tail e) : Spelled (digits ++ tail) ⟨natOfDigits digits, e⟩
  | point {whole fraction tail : List Char} {e : Int} (properWhole : IsDigits whole)
    (proper : IsDigits fraction) (exponent : ExponentText tail e) :
    Spelled (whole ++ '.' :: fraction ++ tail)
      ⟨natOfDigits (whole ++ fraction), e - fraction.length⟩
  | fraction {fraction tail : List Char} {e : Int} (proper : IsDigits fraction)
    (exponent : ExponentText tail e) :
    Spelled ('.' :: fraction ++ tail) ⟨natOfDigits fraction, e - fraction.length⟩

/-! ## Reading what is spelled -/

/-- An exponent begins with its mark, if there is one. -/
theorem ExponentText.head {tail : List Char} {e : Int} (exponent : ExponentText tail e) :
    tail = [] ∨ ∃ rest, tail = 'e' :: rest := by
  cases exponent with
  | none => exact .inl rfl
  | plain | plus | minus => exact .inr ⟨_, rfl⟩

/-- These are exponents in the sense of the notation for numerals. -/
theorem ExponentText.exponent {tail : List Char} {e : Int} (text : ExponentText tail e) :
    Exponent tail e := by
  cases text with
  | none => exact .none
  | plain proper => exact .plain (.inl rfl) proper
  | plus proper => exact .plus (.inl rfl) proper
  | minus proper => exact .minus (.inl rfl) proper

/-- What is spelled is a numeral. -/
theorem Spelled.numeral {text : List Char} {d : Decimal} (spelled : Spelled text d) :
    Numeral text d := by
  cases spelled with
  | whole proper tail => exact .whole proper tail.exponent
  | @point whole fraction tail e properWhole proper exponent =>
    rw [List.append_assoc]
    exact .point properWhole proper.isDigit exponent.exponent
  | fraction proper tail => exact .fraction proper tail.exponent

/-- A text that spells a numeral is read as that numeral. -/
theorem Spelled.parse_eq {text : List Char} {d : Decimal} (spelled : Spelled text d) :
    parse? text = some d :=
  spelled.numeral.parse_eq

/-! ## Layouts of digits -/

/-- Further digits are counted on. -/
@[simp] theorem natOfDigits_append (a b : List Char) :
    natOfDigits (a ++ b) = Nat.ofDigitChars 10 b (natOfDigits a) :=
  Nat.ofDigitChars_append 0

/-- Zeros at the end multiply a number by a power of ten. -/
@[simp] theorem ofDigitChars_zeros (n : Int) (init : Nat) :
    Nat.ofDigitChars 10 (zeros n) init = 10 ^ n.toNat * init :=
  Nat.ofDigitChars_replicate_zero

/-- The digits of a number are read as the number. -/
theorem natOfDigits_toDigits (n : Nat) : natOfDigits (Nat.toDigits 10 n) = n :=
  Nat.ofDigitChars_ten_toDigits

/-- A number has at least one digit. -/
theorem isDigits_toDigits (n : Nat) : IsDigits (Nat.toDigits 10 n) where
  nonempty := Nat.toDigits_ne_nil
  isDigit _ mem := Nat.isDigit_of_mem_toDigits (by decide) (by decide) mem

theorem isDigit_of_mem_zeros {n : Int} {c : Char} (mem : c ∈ zeros n) : c.isDigit = true := by
  rw [List.eq_of_mem_replicate mem]
  decide

/-- Zeros may be put behind digits. -/
theorem IsDigits.append_zeros {digits : List Char} (proper : IsDigits digits) (n : Int) :
    IsDigits (digits ++ zeros n) where
  nonempty := by simp [proper.nonempty]
  isDigit c mem := (List.mem_append.1 mem).elim (proper.isDigit c) isDigit_of_mem_zeros

/-- Zeros may be put before digits. -/
theorem IsDigits.zeros_append {digits : List Char} (proper : IsDigits digits) (n : Int) :
    IsDigits (zeros n ++ digits) where
  nonempty := by simp [proper.nonempty]
  isDigit c mem := (List.mem_append.1 mem).elim isDigit_of_mem_zeros (proper.isDigit c)

/-- A part of a run of digits is one if it is not empty. -/
theorem IsDigits.of_mem {digits part : List Char} (proper : IsDigits digits) (some : part ≠ [])
    (sub : ∀ c ∈ part, c ∈ digits) : IsDigits part where
  nonempty := some
  isDigit c mem := proper.isDigit c (sub c mem)

/-- Digits alone spell a whole number. -/
theorem Spelled.run {digits : List Char} (proper : IsDigits digits) :
    Spelled digits ⟨natOfDigits digits, 0⟩ := by
  simpa using Spelled.whole proper .none

/-- Digits with a point among them spell a number with as many places as there are digits behind it. -/
theorem Spelled.pointRun {whole fraction : List Char} (properWhole : IsDigits whole)
    (proper : IsDigits fraction) :
    Spelled (whole ++ '.' :: fraction) ⟨natOfDigits (whole ++ fraction), -fraction.length⟩ := by
  simpa using Spelled.point properWhole proper .none

/-- The numeral `p` is `d`, or `d` with its zeros written out. -/
def WritesOut (d p : Decimal) : Prop :=
  p = d ∨ ∃ zeros : Nat, d.exponent = zeros ∧ p = ⟨d.coefficient * 10 ^ zeros, 0⟩

/-- A numeral with its zeros written out has the same value. -/
theorem WritesOut.value_eq {d p : Decimal} (same : WritesOut d p) : p.value = d.value := by
  obtain rfl | ⟨zeros, exponent, rfl⟩ := same
  · rfl
  · simp [value, exponent]

/-- Its exponent lies between the same bounds, if zero does. -/
theorem WritesOut.exponent_bounds {d p : Decimal} {low high : Int} (same : WritesOut d p)
    (least : low ≤ d.exponent) (most : d.exponent ≤ high) (around : low ≤ 0 ∧ 0 ≤ high) :
    low ≤ p.exponent ∧ p.exponent ≤ high := by
  obtain rfl | ⟨zeros, exponent, rfl⟩ := same
  · exact ⟨least, most⟩
  · exact around

end Decimal

namespace Double

open Decimal

/-- The numeral that digits stand for, wherever their point is written. -/
def Digits.decimal (d : Digits) : Decimal :=
  ⟨natOfDigits d.digits, d.point - d.digits.length⟩

variable {d : Digits}

/-- Digits with their point in place spell their numeral, perhaps with its zeros written out. -/
theorem Digits.spelled_positional (proper : IsDigits d.digits) :
    ∃ p, Spelled d.positional p ∧ WritesOut d.decimal p := by
  obtain ⟨digits, point⟩ := d
  have length := List.length_pos_of_ne_nil proper.nonempty
  unfold positional decimal
  dsimp only at *
  split
  · next wide =>
    -- The zeros up to the point are part of the coefficient.
    obtain ⟨n, eq⟩ : ∃ n : Nat, point - digits.length = n := Int.eq_ofNat_of_zero_le (by omega)
    refine ⟨_, .run (proper.append_zeros _), .inr ⟨n, eq, ?_⟩⟩
    simp [eq, Nat.mul_comm]
  · split
    · next narrow inside =>
      obtain ⟨n, rfl⟩ := Int.eq_ofNat_of_zero_le inside.le
      have whole : IsDigits (digits.take n) :=
        proper.of_mem (List.ne_nil_of_length_pos (by simp; omega)) fun _ => List.mem_of_mem_take
      have fraction : IsDigits (digits.drop n) :=
        proper.of_mem (List.ne_nil_of_length_pos (by simp; omega)) fun _ => List.mem_of_mem_drop
      refine ⟨_, .pointRun whole fraction, .inl ?_⟩
      rw [List.take_append_drop, List.length_drop]
      congr 1
      omega
    · next narrow outside =>
      have zero : IsDigits ['0'] := ⟨by simp, by simp⟩
      have spelled := Spelled.pointRun zero (proper.zeros_append (-point))
      have leading : natOfDigits (['0'] ++ (zeros (-point) ++ digits)) = natOfDigits digits := by
        rw [natOfDigits_append, Nat.ofDigitChars_append, ofDigitChars_zeros]
        rfl
      refine ⟨_, spelled, .inl ?_⟩
      rw [leading]
      congr 1
      simp [zeros]
      omega

/-- The exponent of scientific notation, always with its sign. -/
theorem exponentText_signed (e : Int) :
    ExponentText ((if e < 0 then 'e' :: ['-'] else 'e' :: ['+']) ++ Nat.toDigits 10 e.natAbs) e := by
  have digits := isDigits_toDigits e.natAbs
  split
  · have minus := ExponentText.minus digits
    rwa [natOfDigits_toDigits, show -(e.natAbs : Int) = e by omega] at minus
  · have plus := ExponentText.plus digits
    rwa [natOfDigits_toDigits, show (e.natAbs : Int) = e by omega] at plus

/-- The exponent of source texts, with a sign only if it is negative. -/
theorem exponentText_bare (e : Int) :
    ExponentText ('e' :: ((if e < 0 then ['-'] else []) ++ Nat.toDigits 10 e.natAbs)) e := by
  have digits := isDigits_toDigits e.natAbs
  split
  · have minus := ExponentText.minus digits
    rwa [natOfDigits_toDigits, show -(e.natAbs : Int) = e by omega] at minus
  · have plain := ExponentText.plain digits
    rwa [natOfDigits_toDigits, show (e.natAbs : Int) = e by omega] at plain

/-- Digits with an exponent spell their numeral as it is. -/
theorem Digits.spelled_scientific (proper : IsDigits d.digits) :
    Spelled d.scientific d.decimal := by
  obtain ⟨digits, point⟩ := d
  have exponent := exponentText_signed (point - 1)
  unfold scientific decimal
  dsimp only at *
  generalize (if point - 1 < 0 then 'e' :: ['-'] else 'e' :: ['+']) ++ _ = tail at *
  match digits, proper with
  | [], proper => exact absurd rfl proper.nonempty
  | [first], proper => simpa using Spelled.whole proper exponent
  | first :: second :: rest, proper =>
    have whole : IsDigits [first] := proper.of_mem (by simp) (by simp)
    have fraction : IsDigits (second :: rest) := proper.of_mem (by simp) fun _ => .tail _
    have spelled := Spelled.point whole fraction exponent
    rwa [show point - 1 - ((second :: rest).length : Int) =
      point - ((first :: second :: rest).length : Int) by simp; omega] at spelled

/-- So do digits in whichever of the two layouts is taken for them. -/
theorem Digits.spelled_plain (proper : IsDigits d.digits) :
    ∃ p, Spelled d.plain p ∧ WritesOut d.decimal p := by
  unfold plain
  split
  · exact spelled_positional proper
  · exact ⟨_, spelled_scientific proper, .inl rfl⟩

/-- Digits end where a text has a point. -/
theorem eq_nil_of_append_eq_point {digits tail rest : List Char}
    (proper : ∀ c ∈ digits, c.isDigit = true) (eq : digits ++ tail = '.' :: rest) :
    digits = [] ∧ tail = '.' :: rest := by
  cases digits with
  | nil => exact ⟨rfl, eq⟩
  | cons c digits =>
    obtain ⟨rfl, -⟩ := List.cons.inj eq
    exact absurd (proper '.' List.mem_cons_self) (by decide)

/-- A zero in front of the point may be left out. -/
theorem Spelled.drop_zero {rest : List Char} {p : Decimal}
    (spelled : Spelled ('0' :: '.' :: rest) p) : Spelled ('.' :: rest) p := by
  generalize text : '0' :: '.' :: rest = all at spelled
  cases spelled with
  | @whole digits tail e proper exponent =>
    obtain ⟨c, digits, rfl, -⟩ := proper.exists_cons
    obtain ⟨rfl, more⟩ := List.cons.inj text
    obtain ⟨-, rfl⟩ :=
      eq_nil_of_append_eq_point (fun c mem => proper.isDigit c (.tail _ mem)) more.symm
    obtain eq | ⟨rest, eq⟩ := exponent.head <;> cases eq
  | @point whole fraction tail e properWhole proper exponent =>
    obtain ⟨c, whole, rfl, -⟩ := properWhole.exists_cons
    rw [List.cons_append, List.cons_append, List.append_assoc] at text
    obtain ⟨rfl, more⟩ := List.cons.inj text
    obtain ⟨rfl, more⟩ :=
      eq_nil_of_append_eq_point (fun c mem => properWhole.isDigit c (.tail _ mem)) more.symm
    obtain ⟨-, rfl⟩ := List.cons.inj more
    exact .fraction proper exponent
  | fraction proper exponent => cases text

/-- The source text of digits spells their numeral. -/
theorem Digits.spelled_source (proper : IsDigits d.digits) :
    ∃ p, Spelled d.source p ∧ WritesOut d.decimal p := by
  obtain ⟨p, spelled, same⟩ := spelled_plain proper
  have exponent := exponentText_bare (d.point - d.digits.length)
  unfold source
  dsimp only
  generalize (if d.point - d.digits.length < 0 then ['-'] else []) ++ _ = tail at *
  split
  · next fraction eq =>
    rw [eq] at spelled
    split
    · exact ⟨_, .whole proper exponent, .inl rfl⟩
    · exact ⟨p, Spelled.drop_zero spelled, same⟩
  · split
    · exact ⟨_, .whole proper exponent, .inl rfl⟩
    · exact ⟨p, spelled, same⟩

/-- The digits of a coefficient with its exponent stand for the numeral. -/
theorem decimal_toDigits (p : Decimal) :
    Digits.decimal ⟨Nat.toDigits 10 p.coefficient,
      p.exponent + (Nat.toDigits 10 p.coefficient).length⟩ = p := by
  unfold Digits.decimal
  rw [natOfDigits_toDigits, add_sub_cancel_right]

/-- The source text of a number without a sign spells a numeral that is read as that number. -/
theorem exists_spelled_source (code : Fin codes) :
    ∃ p, Spelled (Double.finite false code).source.toList p ∧
      ofDecimal false p = .finite false code := by
  by_cases zero : code.val = 0
  · refine ⟨⟨0, 0⟩, ?_, by simp [ofDecimal, Double.zero, Fin.ext_iff, zero]⟩
    have spelled : Spelled ['0'] ⟨0, 0⟩ := .run ⟨by simp, by simp⟩
    simpa [source, zero] using spelled
  · have some := Nat.pos_of_ne_zero zero
    obtain ⟨p, spelled, same⟩ :=
      @Digits.spelled_source (digitsOf languageTie code) (isDigits_toDigits _)
    replace same : WritesOut (shortest languageTie code) p := by
      rwa [digitsOf, decimal_toDigits] at same
    refine ⟨p, by simpa [source, zero] using spelled, ?_⟩
    obtain ⟨least, most⟩ := exponent_shortest languageTie some code.isLt
    obtain ⟨least, most⟩ := same.exponent_bounds least most ⟨by decide, by decide⟩
    apply ofDecimal_eq some (by omega) (by omega)
    rw [same.value_eq]
    exact roundsTo_shortest languageTie some code.isLt

end Double

namespace Decimal

/-- A numeral with neither point nor exponent is a run of digits. -/
theorem Spelled.isDigits {text : List Char} {p : Decimal} (spelled : Spelled text p)
    (noPoint : '.' ∉ text) (noExponent : 'e' ∉ text) :
    IsDigits text ∧ p = ⟨natOfDigits text, 0⟩ := by
  cases spelled with
  | whole proper exponent =>
    cases exponent with
    | none => simpa using proper
    | plain | plus | minus => simp at noExponent
  | point => simp at noPoint
  | fraction => simp at noPoint

/-- A whole number may be written with a point behind it. -/
theorem IsDigits.trailing_point {digits : List Char} (proper : IsDigits digits) :
    Numeral (digits ++ ['.']) ⟨natOfDigits digits, 0⟩ := by
  simpa using @Numeral.point digits [] [] 0 proper nofun .none

/-- A point behind digits changes nothing. -/
theorem parse_trailing_point {digits : List Char} (proper : IsDigits digits) :
    parse? (digits ++ ['.']) = some ⟨natOfDigits digits, 0⟩ :=
  proper.trailing_point.parse_eq

/-! ## No idle zeros -/

/-- Whether a text begins with a zero that stands before another digit. A numeral in a source text
does not: its whole part is zero or begins with another digit. -/
def leadsWithZero : List Char → Bool
  | '0' :: c :: _ => c.isDigit
  | _ => false

/-- A positive number does not begin with a zero. -/
theorem head_toDigits_ne_zero {n : Nat} (positive : 0 < n) :
    (Nat.toDigits 10 n).head? ≠ some '0' := by
  induction n using Nat.strong_induction_on with
  | _ n ih =>
    rw [Nat.toDigits_eq_if (by decide)]
    split
    · next small =>
      have digit : ∀ n < 10, 0 < n → Nat.digitChar n ≠ '0' := by decide
      simpa using digit n small positive
    · have rest := ih (n / 10) (by omega) (by omega)
      rwa [List.head?_append_of_ne_nil _ Nat.toDigits_ne_nil]

theorem leadsWithZero_cons {c : Char} (other : c ≠ '0') (rest : List Char) :
    leadsWithZero (c :: rest) = false := by
  unfold leadsWithZero
  split
  · next eq => exact absurd (List.cons.inj eq).1 other
  · rfl

/-- A point behind a text makes no idle zero. -/
theorem leadsWithZero_append_point {text : List Char} (fine : leadsWithZero text = false) :
    leadsWithZero (text ++ ['.']) = false := by
  match text with
  | [] => rfl
  | [c] =>
    by_cases zero : c = '0'
    · subst zero
      rfl
    · exact leadsWithZero_cons zero _
  | c :: d :: rest =>
    by_cases zero : c = '0'
    · subst zero
      exact fine
    · exact leadsWithZero_cons zero _

end Decimal

namespace Double

open Decimal

variable {d : Digits}

/-- Digits are laid out beginning with the first of them, or with a zero before the point. -/
theorem Digits.plain_begins {c : Char} {more : List Char} (digits : d.digits = c :: more) :
    (∃ rest, d.plain = c :: rest) ∨ ∃ rest, d.plain = '0' :: '.' :: rest := by
  unfold plain positional scientific
  rw [digits]
  split
  · split
    · exact .inl ⟨_, rfl⟩
    · split
      · next inside =>
        obtain ⟨n, eq⟩ : ∃ n, d.point.toNat = n + 1 := Nat.exists_eq_succ_of_ne_zero (by omega)
        exact .inl ⟨_, by rw [eq]; rfl⟩
      · exact .inr ⟨_, rfl⟩
  · cases more with
    | nil => exact .inl ⟨_, rfl⟩
    | cons => exact .inl ⟨_, rfl⟩

variable {code : Fin codes}

/-- No layout puts a zero before a digit if the digits do not begin with one. -/
theorem Digits.leadsWithZero_plain {c : Char} {more : List Char} (digits : d.digits = c :: more)
    (other : c ≠ '0') : leadsWithZero d.plain = false := by
  obtain ⟨rest, eq⟩ | ⟨rest, eq⟩ := plain_begins digits
  · rw [eq, leadsWithZero_cons other]
  · rw [eq]
    rfl

/-- Nor does the shorter form that is written in a source text. -/
theorem Digits.leadsWithZero_source {c : Char} {more : List Char} (digits : d.digits = c :: more)
    (other : c ≠ '0') : leadsWithZero d.source = false := by
  have plain := leadsWithZero_plain digits other
  unfold source
  dsimp only
  generalize (if d.point - d.digits.length < 0 then ['-'] else []) ++ _ = tail at *
  have candidate : leadsWithZero (d.digits ++ 'e' :: tail) = false := by
    rw [digits, List.cons_append, leadsWithZero_cons other]
  split
  · split
    · exact candidate
    · exact leadsWithZero_cons (by decide) _
  · split
    · exact candidate
    · exact plain

/-- The shortest digits of a positive number do not begin with a zero. -/
theorem digitsOf_begins (tie : TieRule) {code : Nat} (positive : 0 < code) (small : code < codes) :
    ∃ c more, (digitsOf tie code).digits = c :: more ∧ c ≠ '0' := by
  have some : 0 < (shortest tie code).coefficient := by
    refine Nat.pos_of_ne_zero fun zero => ?_
    have above := (roundsTo_shortest tie positive small).pos positive
    rw [value, zero, Nat.cast_zero, zero_mul, zero_mul] at above
    exact lt_irrefl 0 above
  have first := head_toDigits_ne_zero some
  unfold digitsOf
  dsimp only
  cases eq : Nat.toDigits 10 (shortest tie code).coefficient with
  | nil => exact absurd eq Nat.toDigits_ne_nil
  | cons c more =>
    refine ⟨c, more, rfl, fun zero => first ?_⟩
    rw [eq, zero]
    rfl

/-- No usual text of a number begins with an idle zero. -/
theorem leadsWithZero_text (code : Fin codes) :
    leadsWithZero (Double.finite false code).text.toList = false := by
  by_cases zero : code.val = 0
  · simp [text, zero, leadsWithZero]
  · obtain ⟨c, more, digits, other⟩ :=
      digitsOf_begins languageTie (Nat.pos_of_ne_zero zero) code.isLt
    simpa [text, zero] using Digits.leadsWithZero_plain digits other

/-- No source text of a number does. -/
theorem leadsWithZero_source (code : Fin codes) :
    leadsWithZero (Double.finite false code).source.toList = false := by
  by_cases zero : code.val = 0
  · simp [source, zero, leadsWithZero]
  · obtain ⟨c, more, digits, other⟩ :=
      digitsOf_begins languageTie (Nat.pos_of_ne_zero zero) code.isLt
    simpa [source, zero] using Digits.leadsWithZero_source digits other

end Double

end Minifier
