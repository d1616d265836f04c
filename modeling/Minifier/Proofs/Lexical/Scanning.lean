import Minifier.Proofs.Grammar.Tokens
import Minifier.Proofs.Lexical.Lexer

/-!
# Tokens are found where they stand

Which texts are tokens of each kind, and which characters would be read together with a token if they
followed it directly. A token is found at the beginning of a text if the reader is in a position for
it and none of these characters comes behind it.
-/

namespace Minifier.Lexical

open Decimal (IsDigits ExponentText Spelled)
open Text (isIdentStart isIdentPart isIdentifier isReserved isLineEnd)

variable {r : Reader} {rest : List Char}

/-! ## Words -/

/-- Ranges that begin above a character do not matter to it. -/
theorem inRanges_filter {c : Char} {bound : Nat} (small : c.toNat < bound) (ranges : List (Nat × Nat)) :
    Text.inRanges ranges c = Text.inRanges (ranges.filter fun range => range.1 < bound) c := by
  rw [Text.inRanges, Text.inRanges, List.any_filter]
  congr 1
  funext range
  by_cases low : range.1 < bound
  · simp [low]
  · have high : ¬range.1 ≤ c.toNat := by omega
    simp [low, high]

/-- Whether an ASCII character may begin an identifier. -/
def isAsciiStart (c : Char) : Bool :=
  c == '$' || Text.inRanges [(0x41, 0x5a), (0x5f, 0x5f), (0x61, 0x7a)] c

/-- The only ranges of letters that begin in ASCII are those of the Latin ones. -/
theorem startRanges_filter :
    Text.startRanges.filter (fun range => range.1 < 0x80) = [(0x41, 0x5a), (0x61, 0x7a)] := by
  decide +kernel

/-- Which ASCII characters begin identifiers can be told without the table. -/
theorem isIdentStart_ascii {c : Char} (small : c.toNat < 0x80) : isIdentStart c = isAsciiStart c := by
  have line : (c == '_') = Text.inRanges [(0x5f, 0x5f)] c := by
    rw [Bool.eq_iff_iff, beq_iff_eq]
    simp only [Text.inRanges, List.any_cons, List.any_nil, Bool.or_false, Bool.and_eq_true,
      decide_eq_true_eq]
    refine ⟨by rintro rfl; decide, fun same => ?_⟩
    rw [← Char.ofNat_toNat c, Nat.le_antisymm same.2 same.1]
  rw [isIdentStart, isAsciiStart, inRanges_filter small, startRanges_filter, line]
  simp only [Text.inRanges, List.any_cons, List.any_nil, Bool.or_false]
  grind

/-- So can which of them go on with one. -/
theorem isIdentPart_ascii {c : Char} (small : c.toNat < 0x80) :
    isIdentPart c = (c.isDigit || isAsciiStart c) := by
  have parts : Text.partRanges.filter (fun range => range.1 < 0x80) = [(0x30, 0x39), (0x5f, 0x5f)] := by
    decide +kernel
  have noJoiner : (c == '\u200c') = false ∧ (c == '\u200d') = false := by
    constructor <;> (rw [beq_eq_false_iff_ne]; rintro rfl; exact absurd small (by decide))
  have digit : c.isDigit = Text.inRanges [(0x30, 0x39)] c := by
    simp [Text.inRanges, Char.isDigit, UInt32.le_iff_toNat_le]
  rw [isIdentPart, isAsciiStart, noJoiner.1, noJoiner.2, inRanges_filter small Text.startRanges,
    inRanges_filter small Text.partRanges, startRanges_filter, parts, digit]
  simp only [Text.inRanges, List.any_cons, List.any_nil, Bool.or_false]
  grind

/-- What may begin an identifier may go on with one. -/
theorem isIdentPart_of_isIdentStart {c : Char} (starts : isIdentStart c = true) :
    isIdentPart c = true := by
  simp only [isIdentStart, Bool.or_eq_true, beq_iff_eq] at starts
  obtain (rfl | rfl) | ranges := starts
  · rfl
  · rw [isIdentPart_ascii (by decide)]
    rfl
  · simp [isIdentPart, ranges]

/-- A digit goes on with an identifier and begins none. -/
theorem isIdentPart_of_isDigit {c : Char} (digit : c.isDigit = true) :
    isIdentPart c = true ∧ isIdentStart c = false := by
  have bounds := digit
  simp only [Char.isDigit, Bool.and_eq_true, decide_eq_true_eq, ge_iff_le,
    UInt32.le_iff_toNat_le] at bounds
  have most : c.toNat ≤ 57 := bounds.2
  rw [isIdentPart_ascii (by omega), isIdentStart_ascii (by omega), digit]
  have all : ∀ n < 58, 48 ≤ n → isAsciiStart (Char.ofNat n) = false := by decide
  rw [← Char.ofNat_toNat c]
  exact ⟨rfl, all c.toNat (by omega) bounds.1⟩

/-- The text of a token is what a rest is missing. -/
theorem take_length_append (text rest : List Char) :
    (text ++ rest).take ((text ++ rest).length - rest.length) = text := by
  simp

/-- A run of characters is skipped up to the first one that does not belong to it. -/
theorem dropWhile_append_of_stop {p : Char → Bool} {text : List Char} (all : ∀ c ∈ text, p c = true)
    (stop : ∀ c ∈ rest.head?, p c = false) : (text ++ rest).dropWhile p = rest := by
  rw [List.dropWhile_append_of_pos all]
  cases rest with
  | nil => rfl
  | cons c rest => simp [stop c rfl]

/-- A word is found if no character follows that would go on with it. It is a keyword if it is reserved,
except where a name is to come. -/
theorem scan_word {text : String} (isName : isIdentifier text = true)
    (stop : ∀ c ∈ rest.head?, isIdentPart c = false) :
    scan r (text.toList ++ rest) =
      some (.token (if isReserved text && !r.takesName then .keyword else .identifier) rest) := by
  obtain ⟨c, more, shape⟩ : ∃ c more, text.toList = c :: more := by
    cases shape : text.toList with
    | nil => simp [isIdentifier, shape] at isName
    | cons c more => exact ⟨c, more, rfl⟩
  simp only [isIdentifier, shape, Bool.and_eq_true, List.all_eq_true] at isName
  have tail := dropWhile_append_of_stop isName.2 stop
  have taken := take_length_append (c :: more) rest
  rw [List.cons_append] at taken
  have word : String.ofList (c :: more) = text := by rw [← shape, String.ofList_toList]
  simp only [shape, List.cons_append, scan, isName.1, if_true, tail, taken, word]

/-! ## Numbers -/

/-- The texts of numbers: a numeral, or a whole number and a point. -/
def IsNumeral (text : List Char) : Prop :=
  (∃ d, Spelled text d) ∨ ∃ digits, IsDigits digits ∧ text = digits ++ ['.']

section Numbers

variable {text digits tail : List Char}

/-- What does not go on with an identifier is no digit. -/
theorem not_isDigit_of_stop {c : Char} (stop : isIdentPart c = false) : c.isDigit = false := by
  cases digit : c.isDigit with
  | false => rfl
  | true => simp [(isIdentPart_of_isDigit digit).1] at stop

/-- Digits are skipped up to what is no digit. -/
theorem skipDigits_append (proper : IsDigits digits) (stop : ∀ c ∈ rest.head?, c.isDigit = false) :
    skipDigits (digits ++ rest) = rest :=
  dropWhile_append_of_stop proper.isDigit stop

/-- An exponent is skipped as a whole. -/
theorem skipExponent_append {e : Int} (exponent : ExponentText tail e)
    (stop : ∀ c ∈ rest.head?, isIdentPart c = false) : skipExponent (tail ++ rest) = rest := by
  have stopDigits : ∀ c ∈ rest.head?, c.isDigit = false := fun c mem =>
    not_isDigit_of_stop (stop c mem)
  cases exponent with
  | none =>
    cases rest with
    | nil => rfl
    | cons c more =>
      have other : ¬(c = 'e' ∨ c = 'E') := by
        rintro (rfl | rfl) <;> exact absurd (stop _ rfl) (by rw [isIdentPart_ascii] <;> decide)
      simp [skipExponent, other]
  | plain proper =>
    obtain ⟨c, more, rfl, digit⟩ := proper.exists_cons
    have plus : c ≠ '+' := fun h => by simp [h] at digit
    have minus : c ≠ '-' := fun h => by simp [h] at digit
    have skipped := skipDigits_append proper stopDigits
    simp only [List.cons_append] at skipped
    simp [skipExponent, plus, minus, digit, skipped]
  | plus proper | minus proper =>
    obtain ⟨c, more, rfl, digit⟩ := proper.exists_cons
    have skipped := skipDigits_append proper stopDigits
    simp only [List.cons_append] at skipped
    simp [skipExponent, digit, skipped]

/-- No further digits come behind the digits before an exponent. -/
theorem exponent_head_not_digit {e : Int} (exponent : ExponentText tail e)
    (stop : ∀ c ∈ rest.head?, isIdentPart c = false) :
    ∀ c ∈ (tail ++ rest).head?, c.isDigit = false := by
  obtain rfl | ⟨more, rfl⟩ := exponent.head
  · exact fun c mem => not_isDigit_of_stop (stop c mem)
  · rintro c ⟨⟩
    decide

/-- Digits behind a point are skipped too. -/
theorem skipCoefficient_point {cs fraction : List Char} (whole : skipDigits cs = '.' :: fraction) :
    skipCoefficient cs = skipDigits fraction := by
  simp [skipCoefficient, whole]

/-- Without a point the digits are all of the coefficient. -/
theorem skipCoefficient_whole {cs tail : List Char} (whole : skipDigits cs = tail)
    (noPoint : tail.head? ≠ some '.') : skipCoefficient cs = tail := by
  rw [skipCoefficient, whole]
  split
  · exact absurd rfl noPoint
  · rfl

/-- A number is its coefficient and its exponent. -/
theorem skipNumber_of_coefficient {cs : List Char} {e : Int}
    (coefficient : skipCoefficient cs = tail ++ rest) (exponent : ExponentText tail e)
    (stop : ∀ c ∈ rest.head?, isIdentPart c = false) : skipNumber cs = some rest := by
  have ends : ¬rest.head?.any isIdentStart = true := by
    cases rest with
    | nil => simp
    | cons c more =>
      intro starts
      have part := isIdentPart_of_isIdentStart starts
      simp [stop c rfl] at part
  simp only [skipNumber, coefficient, skipExponent_append exponent stop, if_neg ends]

/-- A number is skipped as a whole. If it is a whole number, then no point follows it. -/
theorem skipNumber_append (numeral : IsNumeral text)
    (stop : ∀ c ∈ rest.head?, isIdentPart c = false)
    (noPoint : rest.head? = some '.' → text.all Char.isDigit = false) :
    skipNumber (text ++ rest) = some rest := by
  obtain ⟨d, spelled⟩ | ⟨digits, proper, rfl⟩ := numeral
  · cases spelled with
    | @whole digits tail e proper exponent =>
      have skipped := skipDigits_append proper (exponent_head_not_digit exponent stop)
      rw [List.append_assoc]
      refine skipNumber_of_coefficient (skipCoefficient_whole skipped ?_) exponent stop
      obtain rfl | ⟨more, rfl⟩ := exponent.head
      · intro point
        have marked := noPoint point
        simp [proper.all] at marked
      · simp
    | @point whole fraction tail e properWhole proper exponent =>
      have first : skipDigits (whole ++ '.' :: (fraction ++ (tail ++ rest))) =
          '.' :: (fraction ++ (tail ++ rest)) := skipDigits_append properWhole (by simp)
      have second := skipDigits_append proper (exponent_head_not_digit exponent stop)
      simp only [List.append_assoc, List.cons_append]
      exact skipNumber_of_coefficient ((skipCoefficient_point first).trans second) exponent stop
    | @fraction fraction tail e proper exponent =>
      have first : skipDigits ('.' :: (fraction ++ (tail ++ rest))) =
          '.' :: (fraction ++ (tail ++ rest)) := rfl
      have second := skipDigits_append proper (exponent_head_not_digit exponent stop)
      simp only [List.append_assoc, List.cons_append]
      exact skipNumber_of_coefficient ((skipCoefficient_point first).trans second) exponent stop
  · have first : skipDigits (digits ++ '.' :: rest) = '.' :: rest :=
      skipDigits_append proper (by simp)
    have second : skipDigits rest = [] ++ rest := by
      cases rest with
      | nil => rfl
      | cons c more => simp [skipDigits, not_isDigit_of_stop (stop c rfl)]
    rw [List.append_assoc, List.singleton_append]
    exact skipNumber_of_coefficient ((skipCoefficient_point first).trans second) .none stop

/-- A number begins with a digit, or with a point and a digit. -/
theorem IsNumeral.head (numeral : IsNumeral text) :
    ∃ c more, text = c :: more ∧ (c.isDigit || (c == '.' && more.head?.any Char.isDigit)) = true := by
  obtain ⟨d, spelled⟩ | ⟨digits, proper, rfl⟩ := numeral
  · cases spelled with
    | whole proper | point proper =>
      obtain ⟨c, more, rfl, digit⟩ := proper.exists_cons
      exact ⟨c, _, rfl, by simp [digit]⟩
    | fraction proper =>
      obtain ⟨c, more, rfl, digit⟩ := proper.exists_cons
      exact ⟨'.', _, rfl, by simp [digit]⟩
  · obtain ⟨c, more, rfl, digit⟩ := proper.exists_cons
    exact ⟨c, _, rfl, by simp [digit]⟩

/-- A number is found if no character follows that would go on with it: no name, and no point behind a
whole number. -/
theorem scan_number (numeral : IsNumeral text) (stop : ∀ c ∈ rest.head?, isIdentPart c = false)
    (noPoint : rest.head? = some '.' → text.all Char.isDigit = false) :
    scan r (text ++ rest) = some (.token .number rest) := by
  have skipped := skipNumber_append numeral stop noPoint
  obtain ⟨c, more, rfl, begins⟩ := numeral.head
  have noWord : isIdentStart c = false := by
    simp only [Bool.or_eq_true, Bool.and_eq_true, beq_iff_eq] at begins
    obtain digit | ⟨rfl, -⟩ := begins
    · exact (isIdentPart_of_isDigit digit).2
    · rw [isIdentStart_ascii] <;> decide
  have begins : (c.isDigit || (c == '.' && (more ++ rest).head?.any Char.isDigit)) = true := by
    cases more with
    | nil =>
      have digit : c.isDigit = true := by simpa using begins
      simp [digit]
    | cons d more => exact begins
  rw [List.cons_append] at skipped ⊢
  simp only [scan, noWord, begins, skipped, if_true, Option.map_some, Bool.false_eq_true, if_false]

end Numbers

/-! ## Strings -/

/-- A string literal is found whatever follows. -/
theorem scan_quoted (value : String) :
    scan r ((Text.quoted value).toList ++ rest) = some (.token .quoted rest) := by
  have proper := Text.isQuote_quoteFor value.toList
  have read := Text.readBody_escape_append proper value.toList rest
  have noWord : isIdentStart (Text.quoteFor value.toList) = false := by
    obtain shape | shape := proper <;> rw [shape, isIdentStart_ascii] <;> decide
  have noNumber : ∀ next : Option Char, ((Text.quoteFor value.toList).isDigit ||
      (Text.quoteFor value.toList == '.' && next.any Char.isDigit)) = false := by
    intro next
    obtain shape | shape := proper <;> rw [shape] <;> rfl
  simp only [Text.quoted, String.toList_ofList, List.cons_append, List.append_assoc,
    List.nil_append, scan, noWord, noNumber, Bool.false_eq_true, if_false, if_pos proper, read,
    Option.map_some]

/-! ## Regular expressions -/

/-- Whether a text can stand between the slashes of a regular expression, or in brackets in it: there
are no ends of lines, and a slash only behind a backslash or in brackets. -/
def isRegexBody (inClass : Bool) : List Char → Bool
  | [] => !inClass
  | '\\' :: c :: rest => !isLineEnd c && isRegexBody inClass rest
  | c :: rest =>
    c != '\\' && !isLineEnd c && (c != '/' || inClass) &&
      isRegexBody (if c = '[' then true else if c = ']' then false else inClass) rest

/-- The texts of regular expressions: a body between slashes that does not look like the beginning of
a comment, and flags. -/
structure IsRegex (text body flags : List Char) : Prop where
  shape : text = '/' :: (body ++ '/' :: flags)
  nonempty : body ≠ []
  noComment : body.head? ≠ some '*'
  proper : isRegexBody false body = true
  isFlag : ∀ c ∈ flags, isIdentPart c = true

/-- The body of a regular expression is skipped up to the slash that closes it. -/
theorem skipRegexBody_append {inClass : Bool} {body : List Char}
    (proper : isRegexBody inClass body = true) :
    skipRegexBody inClass (body ++ '/' :: rest) = some rest := by
  fun_induction isRegexBody inClass body with
  | case1 inClass =>
    have closed : inClass = false := by simpa using proper
    simp [skipRegexBody, closed, isLineEnd]
  | case2 inClass c more ih =>
    simp only [Bool.and_eq_true, Bool.not_eq_true'] at proper
    simp [skipRegexBody, proper.1, ih proper.2]
  | case3 inClass c more noEscape ih =>
    simp only [Bool.and_eq_true, Bool.not_eq_true', bne_iff_ne, ne_eq, Bool.or_eq_true] at proper
    obtain ⟨⟨⟨bare, inLine⟩, noSlash⟩, proper⟩ := proper
    rw [List.cons_append, skipRegexBody]
    · rw [if_neg (by simp [bare, inLine]), if_neg, ih proper]
      rintro ⟨rfl, outside⟩
      simp_all
    · intro d tail shape
      exact absurd shape bare

/-- A regular expression is found together with all characters of words behind it. -/
theorem scan_regex {text body flags : List Char} (regex : IsRegex text body flags)
    (position : r.position ≠ .operator) :
    scan r (text ++ rest) = some (.token .regex (rest.dropWhile isIdentPart)) := by
  obtain ⟨rfl, nonempty, noComment, proper, isFlag⟩ := regex
  have skipped := @skipRegexBody_append (flags ++ rest) false body proper
  have tail : (flags ++ rest).dropWhile isIdentPart = rest.dropWhile isIdentPart :=
    List.dropWhile_append_of_pos isFlag
  have noWord : isIdentStart '/' = false := by rw [isIdentStart_ascii] <;> decide
  obtain ⟨c, more, rfl⟩ := List.exists_cons_of_ne_nil nonempty
  have noSlash : c ≠ '/' := by
    rintro rfl
    simp [isRegexBody] at proper
  have noStar : c ≠ '*' := by simpa using noComment
  simp only [List.cons_append, List.append_assoc] at skipped ⊢
  simp [scan, noWord, Text.isBlank, noSlash, noStar, position, skipped, tail]

/-! ## Punctuators -/

/-- Whether a longer punctuator begins with the given one and a character. -/
def isExtendedBy (text : String) (c : Char) : Bool :=
  punctuators.any fun p => (text.toList ++ [c]).isPrefixOf p.toList

/-- What a punctuator begins with is no word, number, string or blank; only one of them begins with a
point, and two begin with a slash. -/
theorem punctuator_head {text : String} (mem : text ∈ punctuators) :
    ∃ c more, text.toList = c :: more ∧ isIdentPart c = false ∧ isIdentStart c = false ∧
      ¬Text.IsQuote c ∧ Text.isBlank c = false ∧ (c = '.' → text = ".") ∧
      (c = '/' → text = "/" ∨ text = "/=") := by
  have all : ∀ p ∈ punctuators, (p.toList.head?.any fun c =>
      c.toNat < 0x80 && !c.isDigit && !isAsciiStart c && !decide (Text.IsQuote c) &&
        !Text.isBlank c && (c != '.' || p == ".") && (c != '/' || p == "/" || p == "/=")) = true := by
    decide +kernel
  have facts := all text mem
  cases shape : text.toList with
  | nil => simp [shape] at facts
  | cons c more =>
    simp only [shape, List.head?_cons, Option.any_some, Bool.and_eq_true, Bool.not_eq_true',
      decide_eq_false_iff_not, decide_eq_true_eq, Bool.or_eq_true, bne_iff_ne, ne_eq,
      beq_iff_eq] at facts
    obtain ⟨⟨⟨⟨⟨⟨small, digit⟩, start⟩, quote⟩, blank⟩, point⟩, slash⟩ := facts
    have part : isIdentPart c = false := by rw [isIdentPart_ascii small, digit, start]; rfl
    have start : isIdentStart c = false := by rw [isIdentStart_ascii small, start]
    refine ⟨c, more, rfl, part, start, quote, blank, fun same => point.resolve_left ?_, fun same => ?_⟩
    · exact not_not_intro same
    · obtain (other | single) | double := slash
      · exact absurd same other
      · exact .inl single
      · exact .inr double

/-- No punctuator is longer than four characters. -/
theorem length_le_of_mem_punctuators : ∀ p ∈ punctuators, p.toList.length ≤ 4 := by
  decide +kernel

/-- The longest punctuator is skipped. -/
theorem skipPunctuator_append {text : String} (mem : text ∈ punctuators)
    (stop : ∀ c ∈ rest.head?, isExtendedBy text c = false) (n : Nat)
    (long : text.toList.length ≤ n) : skipPunctuator n (text.toList ++ rest) = some rest := by
  have found : punctuators.contains text = true := List.elem_eq_true_of_mem mem
  induction n with
  | zero =>
    obtain ⟨c, more, shape, -⟩ := punctuator_head mem
    simp [shape] at long
  | succ n ih =>
    rw [skipPunctuator]
    obtain exact | short := Nat.eq_or_lt_of_le long
    · have taken : (text.toList ++ rest).take (n + 1) = text.toList := by simp [← exact]
      rw [taken, String.ofList_toList, if_pos found]
      simp [← exact]
    · cases rest with
      | nil =>
        rw [List.append_nil, List.take_of_length_le long, String.ofList_toList, if_pos found,
          List.drop_of_length_le long]
      | cons c more =>
        rw [if_neg, ih (by omega)]
        -- A longer match would extend the punctuator by the character behind it.
        intro longer
        have extended : isExtendedBy text c = true := by
          refine List.any_eq_true.2 ⟨_, List.mem_of_elem_eq_true longer, ?_⟩
          rw [List.isPrefixOf_iff_prefix, String.toList_ofList, List.prefix_take_iff]
          exact ⟨⟨more, by simp⟩, by simp only [List.length_append, List.length_singleton]; omega⟩
        simp [stop c rfl] at extended

/-- A punctuator is found if no longer one begins there, if a point is not followed by a digit, and if a
slash opens no comment and comes behind an operand. -/
theorem scan_punctuator {text : String} (mem : text ∈ punctuators)
    (stop : ∀ c ∈ rest.head?, isExtendedBy text c = false)
    (noDigit : text = "." → ∀ c ∈ rest.head?, c.isDigit = false)
    (noComment : text = "/" → rest.head? ≠ some '/' ∧ rest.head? ≠ some '*')
    (position : text = "/" ∨ text = "/=" → r.position = .operator) :
    scan r (text.toList ++ rest) = some (.token .punctuator rest) := by
  have skipped := skipPunctuator_append mem stop 4 (length_le_of_mem_punctuators text mem)
  obtain ⟨c, more, shape, part, noWord, noQuote, noBlank, point, slash⟩ := punctuator_head mem
  have noNumber : (c.isDigit || (c == '.' && (more ++ rest).head?.any Char.isDigit)) = false := by
    rw [not_isDigit_of_stop part, Bool.false_or, Bool.and_eq_false_imp, beq_iff_eq]
    intro isPoint
    obtain rfl := point isPoint
    obtain ⟨-, rfl⟩ : '.' = c ∧ [] = more := by simpa using shape
    cases rest with
    | nil => rfl
    | cons d rest => simpa using noDigit rfl d rfl
  have noLine : ¬(c = '/' ∧ (more ++ rest).head? = some '/') := by
    rintro ⟨isSlash, next⟩
    obtain rfl | rfl := slash isSlash
    · obtain ⟨-, rfl⟩ : '/' = c ∧ [] = more := by simpa using shape
      exact (noComment rfl).1 next
    · obtain ⟨-, rfl⟩ : '/' = c ∧ ['='] = more := by simpa using shape
      simp at next
  have noStar : ¬(c = '/' ∧ (more ++ rest).head? = some '*') := by
    rintro ⟨isSlash, next⟩
    obtain rfl | rfl := slash isSlash
    · obtain ⟨-, rfl⟩ : '/' = c ∧ [] = more := by simpa using shape
      exact (noComment rfl).2 next
    · obtain ⟨-, rfl⟩ : '/' = c ∧ ['='] = more := by simpa using shape
      simp at next
  have noRegex : ¬(c = '/' ∧ r.position ≠ .operator) := fun h => h.2 (position (slash h.1))
  rw [shape, List.cons_append] at skipped ⊢
  simp only [scan, noWord, noNumber, noBlank, skipped, if_neg noQuote, if_neg noLine,
    if_neg noStar, if_neg noRegex, Bool.false_eq_true, if_false, Option.map_some]

end Minifier.Lexical
