import Mathlib.Data.List.TakeWhile
import Minifier.Double.Decimal

/-!
# The notation of numerals

Which texts are numerals at all, as a grammar: digits with an optional point among, before or behind
them, then perhaps an exponent. The reader accepts exactly these texts, and gives the numeral that
they stand for.
-/

namespace Minifier

namespace Decimal

/-- A run of at least one digit. -/
structure IsDigits (digits : List Char) : Prop where
  nonempty : digits ≠ []
  isDigit : ∀ c ∈ digits, c.isDigit = true

/-- What may stand behind the coefficient of a numeral, and the exponent that it denotes. -/
inductive Exponent : List Char → Int → Prop
  | none : Exponent [] 0
  | plain {mark : Char} {digits : List Char} (known : mark = 'e' ∨ mark = 'E')
    (proper : IsDigits digits) : Exponent (mark :: digits) (natOfDigits digits)
  | plus {mark : Char} {digits : List Char} (known : mark = 'e' ∨ mark = 'E')
    (proper : IsDigits digits) : Exponent (mark :: '+' :: digits) (natOfDigits digits)
  | minus {mark : Char} {digits : List Char} (known : mark = 'e' ∨ mark = 'E')
    (proper : IsDigits digits) : Exponent (mark :: '-' :: digits) (-natOfDigits digits)

/-- The texts of numerals without a sign. -/
inductive Numeral : List Char → Decimal → Prop
  | whole {digits tail : List Char} {e : Int} (proper : IsDigits digits)
    (exponent : Exponent tail e) : Numeral (digits ++ tail) ⟨natOfDigits digits, e⟩
  | point {whole fraction tail : List Char} {e : Int} (proper : IsDigits whole)
    (places : ∀ c ∈ fraction, c.isDigit = true) (exponent : Exponent tail e) :
    Numeral (whole ++ '.' :: (fraction ++ tail))
      ⟨natOfDigits (whole ++ fraction), e - fraction.length⟩
  | fraction {fraction tail : List Char} {e : Int} (proper : IsDigits fraction)
    (exponent : Exponent tail e) :
    Numeral ('.' :: (fraction ++ tail)) ⟨natOfDigits fraction, e - fraction.length⟩

/-! ## What is read is a numeral -/

/-- Digits are split off up to what is no digit. -/
theorem spanDigits_append {digits rest : List Char} (proper : ∀ c ∈ digits, c.isDigit = true)
    (stop : ∀ c ∈ rest.head?, c.isDigit = false) : spanDigits (digits ++ rest) = (digits, rest) := by
  unfold spanDigits
  rw [List.takeWhile_append_of_pos proper, List.dropWhile_append_of_pos proper]
  cases rest with
  | nil => simp
  | cons c rest => simp [stop c rfl]

/-- Digits are read only if there are some, and nothing else. -/
theorem isDigits_of_read {digits : List Char} {value e : Int}
    (read : (if digits.isEmpty || !digits.all Char.isDigit then none else some value) = some e) :
    IsDigits digits ∧ value = e := by
  split at read
  · cases read
  · next proper =>
    simp only [Bool.or_eq_true, List.isEmpty_iff, Bool.not_eq_true', not_or, Bool.not_eq_false,
      List.all_eq_true] at proper
    exact ⟨⟨proper.1, proper.2⟩, Option.some_inj.1 read⟩

/-- What is read as an exponent is one in the notation. -/
theorem exponent_of_parse {tail : List Char} {e : Int} (read : parseExponent? tail = some e) :
    Exponent tail e := by
  cases tail with
  | nil =>
    cases read
    exact .none
  | cons mark rest =>
    simp only [parseExponent?] at read
    split at read
    · next known =>
      split at read
      · obtain ⟨proper, rfl⟩ := isDigits_of_read read
        exact .minus known proper
      · obtain ⟨proper, rfl⟩ := isDigits_of_read read
        exact .plus known proper
      · obtain ⟨proper, rfl⟩ := isDigits_of_read read
        exact .plain known proper
    · cases read

/-- What is left of a text behind its leading characters of a kind does not begin with another one. -/
theorem head_dropWhile (p : Char → Bool) (text : List Char) :
    ∀ c ∈ (text.dropWhile p).head?, p c = false := by
  intro c mem
  have stop := List.head?_dropWhile_not p text
  rw [mem] at stop
  exact stop

/-- Each text splits behind its leading digits. -/
theorem exists_spanDigits (text : List Char) :
    ∃ digits rest, text = digits ++ rest ∧ (∀ c ∈ digits, c.isDigit = true) ∧
      ∀ c ∈ rest.head?, c.isDigit = false :=
  ⟨text.takeWhile Char.isDigit, text.dropWhile Char.isDigit, List.takeWhile_append_dropWhile.symm,
    fun _ => List.mem_takeWhile_imp, head_dropWhile Char.isDigit text⟩

/-- What is read is a numeral. -/
theorem numeral_of_parse {text : List Char} {d : Decimal} (read : parse? text = some d) :
    Numeral text d := by
  obtain ⟨whole, rest, rfl, digits, stop⟩ := exists_spanDigits text
  rw [parse?, spanDigits_append digits stop] at read
  dsimp only at read
  split at read
  · next rest =>
    obtain ⟨fraction, tail, rfl, places, stop⟩ := exists_spanDigits rest
    rw [spanDigits_append places stop] at read
    dsimp only at read
    split at read
    · cases read
    · next some =>
      obtain ⟨e, exponent, rfl⟩ := Option.map_eq_some_iff.1 read
      by_cases empty : whole = []
      · subst empty
        exact .fraction ⟨by simpa using some, places⟩ (exponent_of_parse exponent)
      · exact .point ⟨empty, digits⟩ places (exponent_of_parse exponent)
  · dsimp only at read
    split at read
    · cases read
    · next some =>
      obtain ⟨e, exponent, rfl⟩ := Option.map_eq_some_iff.1 read
      have numeral := Numeral.whole ⟨by simpa using some, digits⟩ (exponent_of_parse exponent)
      simpa using numeral

/-! ## Numerals are read -/

/-- A run of digits has a first one. -/
theorem IsDigits.exists_cons {digits : List Char} (proper : IsDigits digits) :
    ∃ c rest, digits = c :: rest ∧ c.isDigit = true := by
  obtain ⟨c, rest, rfl⟩ := List.exists_cons_of_ne_nil proper.nonempty
  exact ⟨c, rest, rfl, proper.isDigit c List.mem_cons_self⟩

theorem IsDigits.all {digits : List Char} (proper : IsDigits digits) :
    digits.all Char.isDigit = true := by
  rw [List.all_eq_true]
  exact proper.isDigit

theorem not_sign_of_isDigit {c : Char} (digit : c.isDigit = true) : c ≠ '-' ∧ c ≠ '+' := by
  constructor <;> rintro rfl <;> cases digit

/-- Every exponent of the notation is read. -/
theorem Exponent.parse_eq {tail : List Char} {e : Int} (exponent : Exponent tail e) :
    parseExponent? tail = some e := by
  cases exponent with
  | none => rfl
  | plain known proper =>
    -- A digit is neither of the two signs.
    obtain ⟨c, rest, rfl, digit⟩ := proper.exists_cons
    obtain ⟨minus, plus⟩ := not_sign_of_isDigit digit
    simp [parseExponent?, known, minus, plus, proper.all]
  | plus known proper => simp [parseExponent?, known, proper.nonempty, proper.all]
  | minus known proper => simp [parseExponent?, known, proper.nonempty, proper.all]

/-- An exponent begins with its mark. -/
theorem Exponent.head_mark {tail : List Char} {e : Int} (exponent : Exponent tail e) :
    ∀ c ∈ tail.head?, c = 'e' ∨ c = 'E' := by
  cases exponent with
  | none => simp
  | plain known | plus known | minus known => simpa using known

/-- No exponent begins with a digit. -/
theorem Exponent.head_not_digit {tail : List Char} {e : Int} (exponent : Exponent tail e) :
    ∀ c ∈ tail.head?, c.isDigit = false := by
  intro c mem
  obtain rfl | rfl := exponent.head_mark c mem <;> rfl

/-- Every numeral of the notation is read as the number that it stands for. -/
theorem Numeral.parse_eq {text : List Char} {d : Decimal} (numeral : Numeral text d) :
    parse? text = some d := by
  cases numeral with
  | @whole digits tail e proper exponent =>
    have span := spanDigits_append proper.isDigit exponent.head_not_digit
    have noPoint : ∀ rest, tail ≠ '.' :: rest := by
      rintro rest rfl
      exact absurd (exponent.head_mark '.' rfl) (by decide)
    simp [parse?, span, proper.nonempty, exponent.parse_eq]
  | @point whole fraction tail e proper places exponent =>
    have span := @spanDigits_append whole ('.' :: (fraction ++ tail)) proper.isDigit (by simp)
    have spanFraction := spanDigits_append places exponent.head_not_digit
    simp [parse?, span, spanFraction, proper.nonempty, exponent.parse_eq]
  | @fraction fraction tail e proper exponent =>
    have span := @spanDigits_append [] ('.' :: (fraction ++ tail)) (by simp) (by simp)
    have spanFraction := spanDigits_append proper.isDigit exponent.head_not_digit
    rw [List.nil_append] at span
    simp [parse?, span, spanFraction, proper.nonempty, exponent.parse_eq]

/-- The reader accepts exactly the numerals. -/
theorem parse_eq_some_iff {text : List Char} {d : Decimal} :
    parse? text = some d ↔ Numeral text d :=
  ⟨numeral_of_parse, Numeral.parse_eq⟩

/-! ## Signs -/

/-- The signs that may stand before a number, and whether it is a minus. -/
inductive SignText : List Char → Bool → Prop
  | none : SignText [] false
  | plus : SignText ['+'] false
  | minus : SignText ['-'] true

/-- Whether a text begins with a sign. -/
def BeginsSigned (text : List Char) : Prop :=
  text.head? = some '-' ∨ text.head? = some '+'

/-- A sign is split off a text that has no second one. -/
theorem splitSign_append {sign body : List Char} {negative : Bool} (signed : SignText sign negative)
    (bare : ¬BeginsSigned body) : splitSign (sign ++ body) = (negative, body) := by
  cases signed with
  | none =>
    rw [List.nil_append]
    unfold splitSign
    split
    · exact absurd (.inl rfl) bare
    · exact absurd (.inr rfl) bare
    · rfl
  | plus | minus => rfl

/-- Every text is a sign, which may be missing, and the rest. -/
theorem exists_signText (text : List Char) :
    ∃ sign, SignText sign (splitSign text).1 ∧ text = sign ++ (splitSign text).2 := by
  unfold splitSign
  split
  · exact ⟨['-'], .minus, rfl⟩
  · exact ⟨['+'], .plus, rfl⟩
  · exact ⟨[], .none, rfl⟩

/-- Numerals begin with a digit or a point. -/
theorem Numeral.exists_cons {text : List Char} {d : Decimal} (numeral : Numeral text d) :
    ∃ c rest, text = c :: rest ∧ (c.isDigit = true ∨ c = '.') := by
  cases numeral with
  | whole proper exponent | point proper places exponent =>
    obtain ⟨c, rest, rfl, digit⟩ := proper.exists_cons
    exact ⟨c, _, rfl, .inl digit⟩
  | fraction proper exponent => exact ⟨'.', _, rfl, .inr rfl⟩

/-- No numeral begins with a sign. -/
theorem Numeral.not_beginsSigned {text : List Char} {d : Decimal} (numeral : Numeral text d) :
    ¬BeginsSigned text := by
  obtain ⟨c, rest, rfl, head⟩ := numeral.exists_cons
  rintro (sign | sign) <;> cases sign <;> simp at head

end Decimal

end Minifier
