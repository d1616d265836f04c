import Minifier.Printer
import Minifier.Proofs.Double.Numeral
import Minifier.Proofs.Grammar.Expression
import Minifier.Proofs.Text.Literal

/-!
# Tokens as the grammar sees them

How printed tokens become the terminals of the grammar: literals are read, and all else stands for
itself. Tokens are read one by one, except that a whole number and a point behind it are one
numeral. Two lists of tokens can therefore be read apart unless they meet at such a point.
-/

namespace Minifier.Grammar

/-- The number that a numeral denotes in a source text. -/
def number? (text : List Char) : Option Double :=
  if Decimal.leadsWithZero text then none
  else (Decimal.parse? text).map (Double.ofDecimal false)

/-- What the grammar sees of a token, if it is a proper one. -/
def terminal? (t : Token) : Option Terminal :=
  match t.kind with
  | .keyword | .identifier => some (.word t.text)
  | .number => (number? t.text.toList).map .number
  | .punctuator => some (.punct t.text)
  | .regex => some (.regex t.text)
  | .quoted => (Text.literal? t.text.toList).map .string

/-- Whether a token is a number that would take a point behind it. -/
def isWhole (t : Token) : Bool :=
  t.kind == .number && t.text.toList.all Char.isDigit

/-- The tokens with each whole number and the point behind it made one token. -/
def joinPoints : List Token → List Token
  | t :: u :: rest =>
    if isWhole t && u == .punct "." then .digits (t.text ++ ".") :: joinPoints rest
    else t :: joinPoints (u :: rest)
  | ts => ts

/-- The terminals that a list of tokens is read as. -/
def terminals? (ts : List Token) : Option (List Terminal) :=
  (joinPoints ts).mapM terminal?

/-- Whether the last token would take a point behind it. -/
def endsWhole (ts : List Token) : Bool :=
  ts.getLast?.any isWhole

/-- Whether the first token is a point. -/
def startsWithPoint (ts : List Token) : Bool :=
  ts.head? == some (.punct ".")

section Lists

variable {a b ts : List Token} {us vs : List Terminal} {t : Token} {u : Terminal}

@[simp] theorem isWhole_word (text : String) : isWhole (.word text) = false := rfl

@[simp] theorem isWhole_name (text : String) : isWhole (.name text) = false := rfl

@[simp] theorem isWhole_punct (text : String) : isWhole (.punct text) = false := rfl

@[simp] theorem terminal_word (text : String) : terminal? (.word text) = some (.word text) := rfl

@[simp] theorem terminal_name (text : String) : terminal? (.name text) = some (.word text) := rfl

@[simp] theorem terminal_punct (text : String) : terminal? (.punct text) = some (.punct text) := rfl

/-- Only the last token matters for a point behind a list. -/
@[simp] theorem endsWhole_concat (ts : List Token) (t : Token) :
    endsWhole (ts ++ [t]) = isWhole t := by
  simp [endsWhole]

/-- Numbers are joined with their points in each of two lists, unless the lists meet at such a point. -/
theorem joinPoints_append (apart : endsWhole a = false ∨ startsWithPoint b = false) :
    joinPoints (a ++ b) = joinPoints a ++ joinPoints b := by
  fun_induction joinPoints a with
  | case1 t u rest joined ih =>
    have apart : endsWhole rest = false ∨ startsWithPoint b = false := by
      cases rest with
      | nil => exact .inl rfl
      | cons => simpa [endsWhole] using apart
    rw [List.cons_append, List.cons_append, joinPoints, if_pos joined, ih apart, List.cons_append]
  | case2 t u rest separate ih =>
    have apart : endsWhole (u :: rest) = false ∨ startsWithPoint b = false := by
      simpa [endsWhole] using apart
    rw [List.cons_append, List.cons_append, joinPoints, if_neg separate, ← List.cons_append,
      ih apart, List.cons_append]
  | case3 ts short =>
    match ts, b with
    | [], b => rfl
    | [t], [] => rfl
    | [t], u :: b =>
      have separate : ¬(isWhole t && u == .punct ".") = true := by
        simpa [endsWhole, startsWithPoint, ← Bool.not_eq_true, imp_iff_not_or] using apart
      rw [List.singleton_append, joinPoints, if_neg separate]
      rfl
    | t :: u :: rest, b => exact absurd rfl (short t u rest)

@[simp] theorem terminals_nil : terminals? [] = some [] := rfl

/-- Two lists of tokens are read one after the other, unless they meet at such a point. -/
theorem terminals_append (apart : endsWhole a = false ∨ startsWithPoint b = false)
    (first : terminals? a = some us) (second : terminals? b = some vs) :
    terminals? (a ++ b) = some (us ++ vs) := by
  unfold terminals? at *
  rw [joinPoints_append apart, List.mapM_append, first, second]
  rfl

/-- A single token is read by itself. -/
theorem terminals_singleton (single : terminal? t = some u) : terminals? [t] = some [u] := by
  simp [terminals?, joinPoints, single]

/-- The first token is read by itself, unless it is a whole number before a point. -/
theorem terminals_cons (apart : isWhole t = false ∨ startsWithPoint ts = false)
    (first : terminal? t = some u) (rest : terminals? ts = some us) :
    terminals? (t :: ts) = some (u :: us) :=
  terminals_append (by simpa [endsWhole] using apart) (terminals_singleton first) rest

@[simp] theorem startsWithPoint_punct (text : String) (ts : List Token) :
    startsWithPoint (.punct text :: ts) = (text == ".") := by
  rw [Bool.eq_iff_iff]
  simp [startsWithPoint, Token.punct]

/-- Tokens between two punctuators are read apart from them. -/
theorem terminals_between (first last : String) (close : last ≠ ".")
    (inner : terminals? ts = some us) :
    terminals? (.punct first :: ts ++ [.punct last]) =
      some (.punct first :: us ++ [.punct last]) := by
  have opened := terminals_cons (.inl (isWhole_punct first)) (terminal_punct first) inner
  have closing := terminals_singleton (terminal_punct last)
  exact terminals_append (.inr (by simpa using close)) opened closing

end Lists

/-! ## Literals -/

section Literals

/-- The source text of a number without a sign is read as the number. -/
theorem number_source (code : Fin Double.codes) :
    number? (Double.finite false code).source.toList = some (.finite false code) := by
  obtain ⟨d, spelled, rounds⟩ := Double.exists_spelled_source code
  rw [number?, Double.leadsWithZero_source, spelled.parse_eq]
  simpa using rounds

/-- The grammar sees the number that a source text stands for. -/
@[simp] theorem terminal_source (code : Fin Double.codes) :
    terminal? (.digits (Double.finite false code).source) =
      some (.number (.finite false code)) := by
  simp [terminal?, Token.digits, number_source]

@[simp] theorem terminal_zero : terminal? (.digits "0") = some (.number (.zero false)) := by
  rfl

@[simp] theorem terminal_one : terminal? (.digits "1") = some (.number (.ofNat 1)) := by
  have parsed : Decimal.parse? "1".toList = some ⟨1, 0⟩ := by decide
  have one : Double.ofDecimal false ⟨1, 0⟩ = .ofNat 1 := by simp [Double.ofDecimal, Double.ofNat]
  have read : number? "1".toList = some (.ofNat 1) := by
    rw [number?, if_neg (by decide), parsed, Option.map_some, one]
  simp only [terminal?, Token.digits, read, Option.map_some]

/-- The grammar sees the string that a literal stands for. -/
@[simp] theorem terminal_quoted (value : String) :
    terminal? ⟨.quoted, Text.quoted value⟩ = some (.string value) := by
  simp [terminal?, Text.literal_quoted]

/-- What is written for a number without a mark is digits only. -/
theorem isDigits_source {code : Fin Double.codes} {d : Decimal}
    (bare : ¬((Double.finite false code).source.toList.any fun c =>
      c == '.' || c == 'e' || c == 'x') = true)
    (spelled : Decimal.Spelled (Double.finite false code).source.toList d) :
    Decimal.IsDigits (Double.finite false code).source.toList ∧
      d = ⟨Decimal.natOfDigits (Double.finite false code).source.toList, 0⟩ := by
  have noMark : ∀ c ∈ ['.', 'e'], c ∉ (Double.finite false code).source.toList := by
    intro c isMark mem
    refine bare (List.any_eq_true.2 ⟨c, mem, ?_⟩)
    obtain rfl | rfl := List.mem_pair.1 isMark <;> rfl
  exact spelled.isDigits (noMark _ (by simp)) (noMark _ (by simp))

/-- A number before a point is written so that it does not take that point. -/
theorem terminals_beforeMember (code : Fin Double.codes) :
    let ts := (Double.finite false code).tokensBeforeMember
    terminals? ts = some [.number (.finite false code)] ∧ endsWhole ts = false := by
  unfold Double.tokensBeforeMember
  dsimp only
  split
  · next marked =>
    refine ⟨terminals_singleton (terminal_source code), ?_⟩
    obtain ⟨c, mem, mark⟩ := List.any_eq_true.1 marked
    have other : c.isDigit = false := by
      simp only [Bool.or_eq_true, beq_iff_eq] at mark
      obtain (rfl | rfl) | rfl := mark <;> decide
    have some : (Double.finite false code).source.toList.all Char.isDigit = false :=
      List.all_eq_false.2 ⟨c, mem, by simp [other]⟩
    simpa [endsWhole, isWhole, Token.digits] using some
  · next bare =>
    -- Only digits are left, so the point that follows is part of the number.
    obtain ⟨d, spelled, rounds⟩ := Double.exists_spelled_source code
    obtain ⟨proper, rfl⟩ := isDigits_source bare spelled
    have joined : terminal? (.digits ((Double.finite false code).source ++ ".")) =
        some (.number (.finite false code)) := by
      have fine := Decimal.leadsWithZero_append_point (Double.leadsWithZero_source code)
      simp [terminal?, Token.digits, number?, fine, Decimal.parse_trailing_point proper, rounds]
    constructor
    · have whole : isWhole (.digits (Double.finite false code).source) = true := by
        simpa [isWhole, Token.digits] using proper.isDigit
      rw [terminals?, joinPoints, if_pos (by simp [whole])]
      exact terminals_singleton joined
    · rfl

/-- Rounding keeps the sign. -/
theorem isNegative_ofDecimal (negative : Bool) (d : Decimal) :
    (Double.ofDecimal negative d).isNegative = negative := by
  have units (num den : Nat) : (Double.ofUnits negative num den).isNegative = negative := by
    unfold Double.ofUnits
    dsimp only
    split <;> rfl
  unfold Double.ofDecimal
  split
  · rfl
  · split
    · split
      · rfl
      · exact units _ _
    · dsimp only
      split
      · rfl
      · exact units _ _

/-- A text that the language gives a number is the text of the number that it rounds to. -/
theorem exists_code_of_isCanonicalNumber {key : String} (canonical : isCanonicalNumber key = true) :
    ∃ d code, Decimal.parse? key.toList = some d ∧ Double.ofDecimal false d = .finite false code ∧
      (Double.finite false code).text = key := by
  unfold isCanonicalNumber at canonical
  split at canonical
  · cases canonical
  · next d parsed =>
    simp only [Bool.and_eq_true, beq_iff_eq] at canonical
    obtain ⟨finite, text⟩ := canonical
    have sign := isNegative_ofDecimal false d
    cases value : Double.ofDecimal false d with
    | nan | infinite => simp [value, Double.isFinite] at finite
    | finite negative code =>
      obtain rfl : negative = false := by simpa [value, Double.isNegative] using sign
      exact ⟨d, code, parsed, value, value ▸ text⟩

/-- It is read as that number. -/
theorem number_of_isCanonicalNumber {key : String} (canonical : isCanonicalNumber key = true) :
    ∃ v, number? key.toList = some v ∧ v.text = key := by
  obtain ⟨d, code, parsed, value, text⟩ := exists_code_of_isCanonicalNumber canonical
  have fine : Decimal.leadsWithZero key.toList = false := text ▸ Double.leadsWithZero_text code
  exact ⟨.finite false code, by simp [number?, fine, parsed, value], text⟩

/-- The token of a property name stands for that name. -/
theorem terminal_keyToken (key : String) :
    ∃ t, terminal? (keyToken key) = some t ∧ t.key? = some key := by
  unfold keyToken
  split
  · next plain =>
    have name : Text.isIdentifier key = true := by
      simp only [Text.isPlainName, Bool.and_eq_true] at plain
      exact plain.1
    exact ⟨.word key, rfl, by simp [Terminal.key?, name]⟩
  · split
    · next canonical =>
      obtain ⟨v, read, text⟩ := number_of_isCanonicalNumber canonical
      exact ⟨.number v, by simp [terminal?, Token.digits, read], by simp [Terminal.key?, text]⟩
    · exact ⟨.string key, terminal_quoted key, rfl⟩

end Literals

end Minifier.Grammar
