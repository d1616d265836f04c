import Minifier.Proofs.Lexical.Spacing

/-!
# Reading printed tokens step by step

How a reader goes on at each kind of printed token. Whole numbers are joined with the point behind them
first, which changes nothing in the text.
-/

namespace Minifier.Lexical

open Grammar (isWhole joinPoints joinPoints_append endsWhole startsWithPoint)
open Text (isIdentifier isReserved isPlainName)

/-! ## Numbers and their points -/

section Points

/-- The first token is not joined unless it is a whole number before a point. -/
theorem joinPoints_cons {t : Token} {ts : List Token}
    (apart : isWhole t = false ∨ startsWithPoint ts = false) :
    joinPoints (t :: ts) = t :: joinPoints ts := by
  have joined := @joinPoints_append [t] ts (by simpa [endsWhole] using apart)
  simpa [joinPoints] using joined

/-- Joining keeps the first token, or makes it a number with a point. -/
theorem exists_joinPoints_head (t : Token) (ts : List Token) :
    ∃ u us, joinPoints (t :: ts) = u :: us ∧ (u = t ∨ isWhole t = true ∧ u = .digits (t.text ++ ".")) := by
  cases ts with
  | nil => exact ⟨t, [], rfl, .inl rfl⟩
  | cons next rest =>
    rw [joinPoints]
    split
    next joined =>
      rw [Bool.and_eq_true] at joined
      exact ⟨_, _, rfl, .inr ⟨joined.1, rfl⟩⟩
    next => exact ⟨_, _, rfl, .inl rfl⟩

/-- Once numbers are joined with their points, none stands before one. -/
theorem pointsApart_joinPoints (ts : List Token) : pointsApart (joinPoints ts) = true := by
  fun_induction joinPoints ts with
  | case1 t u rest joined ih =>
    have noWhole : isWhole (.digits (t.text ++ ".")) = false := by simp [isWhole, Token.digits]
    cases shape : joinPoints rest with
    | nil => rfl
    | cons v vs => rw [pointsApart, noWhole, ← shape, ih]; rfl
  | case2 t u rest separate ih =>
    obtain ⟨v, vs, shape, head⟩ := exists_joinPoints_head u rest
    rw [shape] at ih ⊢
    rw [pointsApart, ih, Bool.and_true, Bool.not_eq_true']
    obtain rfl | ⟨-, rfl⟩ := head
    · exact Bool.not_eq_true _ ▸ separate
    · simp [Token.digits, Token.punct]
  | case3 ts short =>
    rcases ts with _ | ⟨t, _ | ⟨u, rest⟩⟩
    · rfl
    · rfl
    · exact absurd rfl (short t u rest)

/-- A whole number and its point are written like one token. -/
theorem write_point {t : Token} (whole : isWhole t = true) (nonempty : t.text.toList ≠ [])
    (out : Output) : (out.write t).write (.punct ".") = out.write (.digits (t.text ++ ".")) := by
  obtain ⟨kind, text⟩ := t
  simp only [isWhole, Bool.and_eq_true, beq_iff_eq, List.all_eq_true] at whole
  obtain ⟨rfl, digits⟩ := whole
  have front : (Token.digits (text ++ ".")).front = (⟨.number, text⟩ : Token).front := by
    obtain ⟨c, more, shape⟩ := List.exists_cons_of_ne_nil nonempty
    simp [Token.front, Token.digits, show text.toList = _ from shape]
  have back : (⟨.number, text⟩ : Token).back = .word := by
    have last : text.toList.getLast? ≠ some '.' := fun last =>
      absurd (digits '.' (List.mem_of_getLast? last)) (by decide)
    simp [Token.back, last]
  have joinedBack : (Token.digits (text ++ ".")).back = .other := by simp [Token.back, Token.digits]
  have noBlank : Edge.word.clash (Token.punct ".").front = false := by decide
  have dotBack : (Token.punct ".").back = .other := by decide
  rw [write_eq nonempty, write_eq (by simp [Token.punct]), write_eq (by simp [Token.digits]), front,
    back, joinedBack, noBlank, dotBack]
  simp [Token.punct, Token.digits, String.append_assoc]

/-- Joining numbers with their points does not change the text. -/
theorem writeAll_joinPoints {ts : List Token} (lexemes : ∀ t ∈ joinPoints ts, IsLexeme t)
    (out : Output) : out.writeAll (joinPoints ts) = out.writeAll ts := by
  fun_induction joinPoints ts generalizing out with
  | case1 t u rest joined ih =>
    simp only [Bool.and_eq_true, beq_iff_eq] at joined
    obtain ⟨whole, rfl⟩ := joined
    have nonempty : t.text.toList ≠ [] := by
      intro empty
      obtain ⟨c, more, shape, begins⟩ := IsNumeral.head (lexemes _ List.mem_cons_self)
      obtain ⟨rfl, rfl⟩ : '.' = c ∧ [] = more := by simpa [Token.digits, empty] using shape
      simp at begins
    have rest := ih (fun t mem => lexemes t (.tail _ mem)) (out.write (.digits (t.text ++ ".")))
    simp only [Output.writeAll, List.foldl_cons, write_point whole nonempty] at rest ⊢
    exact rest
  | case2 t u rest separate ih => exact ih (fun t mem => lexemes t (.tail _ mem)) (out.write t)
  | case3 ts short => rfl

end Points

/-! ## Steps -/

/-- Printed tokens come as a reader expects them, once whole numbers are joined with their points. -/
def Reads (r : Reader) (ts : List Token) (r' : Reader) : Prop :=
  Tracks r (joinPoints ts) r'

namespace Reads

variable {r r₁ r' : Reader} {ts us : List Token} {t : Token} {text : String}

theorem nil : Reads r [] r :=
  Tracks.nil

/-- One token is read, and then the others. -/
theorem cons (apart : isWhole t = false ∨ startsWithPoint ts = false) (lexeme : IsLexeme t)
    (admits : r.Admits t) (plain : endsWithPoint t = false) (rest : Reads (r.after t) ts r') :
    Reads r (t :: ts) r' := by
  rw [Reads, joinPoints_cons apart]
  exact .cons lexeme admits (by simp [plain]) rest

/-- Two lists of tokens are read one after the other, unless they meet at a point behind a whole number.
-/
theorem append (first : Reads r ts r₁) (second : Reads r₁ us r')
    (apart : endsWhole ts = false ∨ startsWithPoint us = false) : Reads r (ts ++ us) r' := by
  rw [Reads, joinPoints_append apart]
  exact Tracks.append first second

/-- A point comes behind operands only. -/
theorem startsWithPoint_eq_false (reads : Reads r ts r') (position : r.position ≠ .operator) :
    startsWithPoint ts = false := by
  cases ts with
  | nil => rfl
  | cons t ts =>
    rw [← Bool.not_eq_true]
    intro point
    obtain rfl : t = .punct "." := by simpa [startsWithPoint] using point
    rw [Reads, joinPoints_cons (.inl rfl)] at reads
    cases reads with
    | cons lexeme admits =>
      obtain opens | ended := admits
      · exact absurd opens (by decide)
      · exact position ended

/-- Tokens that end where no operand has ended, and further ones. -/
theorem andThen (first : Reads r ts r₁) (second : Reads r₁ us r')
    (position : r₁.position ≠ .operator) : Reads r (ts ++ us) r' :=
  first.append second (.inr (second.startsWithPoint_eq_false position))

/-- A reserved word is read where no name is to come. -/
theorem keyword (reserved : text ∈ Text.reservedWords) (names : r.takesName = false)
    (step : r.afterKeyword text = r₁) (rest : Reads r₁ ts r') : Reads r (.word text :: ts) r' := by
  have proper : ∀ word ∈ Text.reservedWords, isIdentifier word = true := by decide +kernel
  subst step
  exact .cons (.inl rfl) (proper text reserved) ⟨List.elem_eq_true_of_mem reserved, names⟩ rfl rest

/-- A name is read, and where a name is to come it may be a reserved word. -/
theorem name (isName : isIdentifier text = true) (free : isReserved text = false ∨ r.takesName = true)
    (step : r.afterName text = r₁) (rest : Reads r₁ ts r') : Reads r (.name text :: ts) r' := by
  subst step
  exact .cons (.inl rfl) isName free rfl rest

/-- A name that is not reserved is read anywhere. -/
theorem plainName (plain : isPlainName text = true) (step : r.afterName text = r₁)
    (rest : Reads r₁ ts r') : Reads r (.name text :: ts) r' := by
  simp only [isPlainName, Bool.and_eq_true, Bool.not_eq_true'] at plain
  exact .name plain.1 (.inl plain.2) step rest

/-- A punctuator that needs no operand in front of it is read anywhere. -/
theorem punct (opens : text ∈ openPunctuators) (step : r.afterPunctuator text = r₁)
    (rest : Reads r₁ ts r') : Reads r (.punct text :: ts) r' := by
  have all : ∀ p ∈ openPunctuators, p ∈ punctuators := by decide
  subst step
  exact .cons (.inl rfl) (all text opens) (.inl opens) rfl rest

/-- Behind an operand every punctuator is read. -/
theorem operator (mem : text ∈ punctuators) (ended : r.position = .operator)
    (step : r.afterPunctuator text = r₁) (rest : Reads r₁ ts r') : Reads r (.punct text :: ts) r' := by
  subst step
  exact .cons (.inl rfl) mem (.inr ended) rfl rest

/-- Tokens that come as expected are split again as they were written, but for words behind regular
expressions without flags. -/
theorem lex_spell_iff (reads : Reads .start ts r') :
    lex (Token.spell ts) = some (joinPoints ts) ↔ regexMeetsWord (joinPoints ts) = false := by
  have lexemes := Tracks.isLexeme reads
  have text : (Token.spell ts).toList = spaced .other (joinPoints ts) := by
    rw [Token.spell, Output.ofTokens, ← writeAll_joinPoints lexemes,
      toList_writeAll fun t mem => (lexemes t mem).ne_nil]
    rfl
  rw [lex, text]
  exact lexFrom_spaced reads (pointsApart_joinPoints ts) _

/-- A string is read anywhere. -/
theorem literal (value : String) (step : r.afterLiteral = r₁) (rest : Reads r₁ ts r') :
    Reads r (⟨.quoted, Text.quoted value⟩ :: ts) r' := by
  subst step
  exact .cons (.inl rfl) ⟨value, rfl⟩ trivial rfl rest

end Reads

/-! ## Numbers and property names -/

open Decimal (IsDigits ExponentText Spelled)

/-- A text that ends with digits ends with a digit. -/
theorem getLast_of_isDigits {digits : List Char} (proper : IsDigits digits) (before : List Char) :
    ∃ c, (before ++ digits).getLast? = some c ∧ c.isDigit = true := by
  have last := List.getLast?_eq_some_getLast proper.nonempty
  refine ⟨_, by rw [List.getLast?_append, last]; rfl, ?_⟩
  exact proper.isDigit _ (List.getLast_mem proper.nonempty)

/-- A numeral ends with a digit. -/
theorem getLast_of_spelled {text : List Char} {d : Decimal} (spelled : Spelled text d) :
    ∃ c, text.getLast? = some c ∧ c.isDigit = true := by
  have exponent {before tail : List Char} {e : Int} (first : IsDigits before)
      (exponent : ExponentText tail e) (front : List Char) :
      ∃ c, (front ++ (before ++ tail)).getLast? = some c ∧ c.isDigit = true := by
    cases exponent with
    | none => simpa using getLast_of_isDigits first front
    | plain proper => simpa using getLast_of_isDigits proper (front ++ before ++ ['e'])
    | plus proper => simpa using getLast_of_isDigits proper (front ++ before ++ ['e', '+'])
    | minus proper => simpa using getLast_of_isDigits proper (front ++ before ++ ['e', '-'])
  cases spelled with
  | whole proper tail => exact exponent proper tail []
  | @point whole fraction _ _ properWhole proper tail => simpa using exponent proper tail (whole ++ ['.'])
  | fraction proper tail => exact exponent proper tail ['.']

/-- A numeral is read where the reader is in a position for one. -/
theorem Reads.numeral {r r₁ r' : Reader} {ts : List Token} {text : String} {d : Decimal}
    (spelled : Spelled text.toList d) (admits : r.Admits (.digits text)) (step : r.afterLiteral = r₁)
    (apart : isWhole (.digits text) = false ∨ startsWithPoint ts = false) (rest : Reads r₁ ts r') :
    Reads r (.digits text :: ts) r' := by
  have plain : endsWithPoint (.digits text) = false := by
    obtain ⟨c, last, digit⟩ := getLast_of_spelled spelled
    have noPoint : c ≠ '.' := by
      rintro rfl
      exact absurd digit (by decide)
    simp [endsWithPoint, Token.digits, Token.back, last, noPoint]
  subst step
  exact .cons apart (.inl ⟨d, spelled⟩) admits plain rest

/-- The language's own text of a number is a numeral. -/
theorem exists_spelled_text (code : Fin Double.codes) :
    ∃ d, Spelled (Double.finite false code).text.toList d := by
  by_cases zero : code.val = 0
  · have spelled : Spelled ['0'] ⟨0, 0⟩ := .run ⟨by simp, by simp⟩
    exact ⟨_, by simpa [Double.text, zero] using spelled⟩
  · obtain ⟨d, spelled, -⟩ := @Double.Digits.spelled_plain
      (Double.digitsOf Double.languageTie code) (Decimal.isDigits_toDigits _)
    exact ⟨d, by simpa [Double.text, zero] using spelled⟩

/-- A key in the usual notation of numbers spells a numeral. -/
theorem exists_spelled_key {key : String} (canonical : isCanonicalNumber key = true) :
    ∃ d, Spelled key.toList d := by
  obtain ⟨-, code, -, -, text⟩ := Grammar.exists_code_of_isCanonicalNumber canonical
  exact text ▸ exists_spelled_text code

/-- A property name comes where one is expected. -/
theorem Reads.key {r r' : Reader} {ts : List Token} (key : String)
    (position : r.position = .key ∨ r.position = .accessor)
    (named : Reads (r.afterName key) ts r') (spelled : Reads r.afterLiteral ts r')
    (apart : startsWithPoint ts = false) : Reads r (keyToken key :: ts) r' := by
  unfold keyToken
  split
  · next plain => exact .plainName plain rfl named
  · split
    · next canonical =>
      obtain ⟨d, numeral⟩ := exists_spelled_key canonical
      refine .numeral numeral ?_ rfl (.inr apart) spelled
      obtain position | position := position <;> simp [Reader.Admits, Token.digits, position]
    · exact .literal key rfl spelled

section Operands

variable {n : Nat} {outer : List (Frame × Nat)} {ts : List Token}

/-- A numeral is read as an operand. -/
theorem reads_digits {text : String} {d : Decimal} (spelled : Spelled text.toList d)
    {r' : Reader} (apart : isWhole (.digits text) = false ∨ startsWithPoint ts = false)
    (rest : Reads ⟨.operator, n, outer⟩ ts r') :
    Reads ⟨.operand, n, outer⟩ (.digits text :: ts) r' :=
  .numeral spelled (by simp [Reader.Admits, Token.digits]) rfl apart rest

/-- The tokens of a number are an operand. -/
theorem reads_number (v : Double) :
    Reads ⟨.operand, n, outer⟩ v.tokens ⟨.operator, n, outer⟩ := by
  have zero : Spelled "0".toList ⟨0, 0⟩ := .run ⟨by simp, by simp⟩
  have one : Spelled "1".toList ⟨1, 0⟩ := .run ⟨by simp, by simp⟩
  have quotient {text : String} {d : Decimal} (spelled : Spelled text.toList d) :
      Reads ⟨.operand, n, outer⟩ [.digits text, .punct "/", .digits "0"] ⟨.operator, n, outer⟩ :=
    reads_digits spelled (.inr rfl) (.operator (by decide) rfl rfl (reads_digits zero (.inr rfl) .nil))
  cases v with
  | nan => exact quotient zero
  | infinite negative =>
    cases negative with
    | false => exact quotient one
    | true => exact .punct (by decide) rfl (quotient one)
  | finite negative code =>
    obtain ⟨d, spelled, -⟩ := Double.exists_spelled_source code
    cases negative with
    | false => exact reads_digits spelled (.inr rfl) .nil
    | true => exact .punct (by decide) rfl (reads_digits spelled (.inr rfl) .nil)

/-- A point and a name behind an operand make another operand. -/
theorem reads_access {name : String} (isName : isIdentifier name = true) :
    Reads ⟨.operator, n, outer⟩ [.punct ".", .name name] ⟨.operator, n, outer⟩ :=
  .operator (by decide) rfl rfl (.name isName (.inr rfl) rfl .nil)

/-- A number with a member of it. -/
theorem reads_numberAccess (code : Fin Double.codes) {name : String}
    (isName : isIdentifier name = true) :
    Reads ⟨.operand, n, outer⟩
      ((Double.finite false code).tokensBeforeMember ++ [.punct ".", .name name])
      ⟨.operator, n, outer⟩ := by
  obtain ⟨d, spelled, -⟩ := Double.exists_spelled_source code
  obtain ⟨-, apart⟩ := Grammar.terminals_beforeMember code
  unfold Double.tokensBeforeMember at apart ⊢
  dsimp only at apart ⊢
  split at apart
  · next marked =>
    rw [if_pos marked]
    exact reads_digits spelled (.inl (by simpa [endsWhole] using apart)) (reads_access isName)
  · next bare =>
    -- Only digits are left, so the first point is part of the number.
    obtain ⟨proper, -⟩ := Grammar.isDigits_source bare spelled
    have whole : isWhole (.digits (Double.finite false code).source) = true := by
      simpa [isWhole, Token.digits] using proper.isDigit
    have lexeme : IsLexeme (.digits ((Double.finite false code).source ++ ".")) :=
      .inr ⟨_, proper, by simp [Token.digits]⟩
    rw [if_neg bare, Reads, List.cons_append, List.cons_append, joinPoints, if_pos (by simp [whole])]
    refine .cons lexeme (by simp [Reader.Admits, Token.digits]) (fun _ => ?_) (reads_access isName)
    rw [List.nil_append, joinPoints_cons (.inl rfl)]
    rfl

end Operands

end Minifier.Lexical
