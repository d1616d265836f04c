import Minifier.Proofs.Text.Literal

/-!
# Escapes in string literals

What stands behind the backslashes of a literal. The literal that `quoted` writes holds a few kinds of
escapes only, no line end, and no more escaped quotes than there have to be: those of the kind of quote
that the text has fewer of.
-/

namespace Minifier.Text

/-- The characters that stand behind a backslash which is not itself behind one. -/
def signs : List Char → List Char
  | '\\' :: sign :: rest => sign :: signs rest
  | _ :: rest => signs rest
  | [] => []

/-- All of the signs are known, and so many of them are quotes. -/
structure MarksQuotes (added : List Char) (quotes : Nat) : Prop where
  known : ∀ sign ∈ added, sign ∈ knownSigns
  count : added.countP (fun sign => IsQuote sign) = quotes

/-- Escapes of two parts of a text are counted together. -/
theorem MarksQuotes.append {a b : List Char} {m n : Nat} (first : MarksQuotes a m)
    (second : MarksQuotes b n) : MarksQuotes (a ++ b) (m + n) where
  known := List.forall_mem_append.mpr ⟨first.known, second.known⟩
  count := by rw [List.countP_append, first.count, second.count]

/-! ## Digits -/

/-- A code is read from hexadecimal digits only. -/
theorem isDigitIn_of_hexChar? {digits : List Char} {c : Char} (eq : hexChar? digits = some c) :
    ∀ d ∈ digits, isDigitIn 16 d = true := by
  refine List.all_eq_true.mp ?_
  cases hex : digits.all (isDigitIn 16) with
  | true => rfl
  | false =>
    rw [hexChar?, dif_neg (by simp [hex])] at eq
    cases eq

theorem isLineEnd_of_isDigitIn {d : Char} (hex : isDigitIn 16 d = true) : isLineEnd d = false := by
  refine Bool.eq_false_iff.mpr fun ends => ?_
  simp only [isLineEnd, Bool.or_eq_true, beq_iff_eq] at ends
  obtain ((rfl | rfl) | rfl) | rfl := ends <;> cases hex

theorem signs_cons {c : Char} (bare : c ≠ '\\') (rest : List Char) : signs (c :: rest) = signs rest := by
  rw [signs]
  intros
  contradiction

/-- Digits of a code are no escapes. -/
theorem signs_digits_append {digits : List Char} (hex : ∀ d ∈ digits, isDigitIn 16 d = true)
    (rest : List Char) : signs (digits ++ rest) = signs rest := by
  induction digits with
  | nil => rfl
  | cons d digits ih =>
    obtain ⟨head, tail⟩ := List.forall_mem_cons.mp hex
    have bare : d ≠ '\\' := by
      rintro rfl
      cases head
    rw [List.cons_append, signs_cons bare, ih tail]

/-! ## Characters -/

section Written

variable {quote c : Char} {next : Option Char} {form : List Char}
  (written : Written quote next c form)
include written

/-- No line end is written. -/
theorem Written.inLine : ∀ d ∈ form, isLineEnd d = false := by
  have escaped (sign : Char) (digits : List Char) (known : sign ∈ knownSigns)
      (hex : ∀ d ∈ digits, isDigitIn 16 d = true) :
      ∀ d ∈ '\\' :: sign :: digits, isLineEnd d = false := by
    simp only [List.forall_mem_cons]
    exact ⟨rfl, isLineEnd_of_known known, fun d mem => isLineEnd_of_isDigitIn (hex d mem)⟩
  cases written with
  | single d known noHex marks eq => exact escaped d [] known nofun
  | null short other eq => exact escaped '0' [] (by decide) nofun
  | byte other eq => exact escaped 'x' _ (by decide) (isDigitIn_of_hexChar? eq)
  | unit other eq => exact escaped 'u' _ (by decide) (isDigitIn_of_hexChar? eq)
  | plain other bare inLine => exact List.forall_mem_singleton.mpr inLine

/-- The sign that a character adds, whatever follows, if it is escaped. It is a quote exactly if the
character is the quote of the literal. -/
theorem Written.signs_append : ∃ added, (∀ rest, signs (form ++ rest) = added ++ signs rest) ∧
    MarksQuotes added (if c = quote then 1 else 0) := by
  cases written with
  | single d known noHex marks eq =>
    refine ⟨[d], fun rest => rfl, by simpa using known, ?_⟩
    simp only [List.countP_singleton, decide_eq_true_eq, marks]
  | null short other eq =>
    exact ⟨['0'], fun rest => rfl, List.forall_mem_singleton.mpr (by decide),
      by rw [if_neg other]; rfl⟩
  | byte other eq =>
    exact ⟨['x'], fun rest => congrArg _ (signs_digits_append (isDigitIn_of_hexChar? eq) rest),
      List.forall_mem_singleton.mpr (by decide), by rw [if_neg other]; rfl⟩
  | unit other eq =>
    exact ⟨['u'], fun rest => congrArg _ (signs_digits_append (isDigitIn_of_hexChar? eq) rest),
      List.forall_mem_singleton.mpr (by decide), by rw [if_neg other]; rfl⟩
  | plain other bare inLine =>
    exact ⟨[], signs_cons bare, nofun, by rw [if_neg other]; rfl⟩

end Written

/-! ## Texts -/

section Texts

variable {quote : Char} (proper : IsQuote quote) (text : List Char)
include proper

/-- A text is written on one line. -/
theorem isLineEnd_escape : ∀ d ∈ escape quote text, isLineEnd d = false := by
  induction text with
  | nil => nofun
  | cons c text ih =>
    exact List.forall_mem_append.mpr ⟨(written_escapeChar proper text.head? c).inLine, ih⟩

/-- The signs in a written text hold its quotes of the literal's own kind, and no others. -/
theorem signs_escape : ∃ added, (∀ rest, signs (escape quote text ++ rest) = added ++ signs rest) ∧
    MarksQuotes added (text.count quote) := by
  induction text with
  | nil => exact ⟨[], fun rest => rfl, nofun, rfl⟩
  | cons c text ih =>
    obtain ⟨head, ofHead, inHead⟩ := (written_escapeChar proper text.head? c).signs_append
    obtain ⟨tail, ofTail, inTail⟩ := ih
    refine ⟨head ++ tail, fun rest => ?_, ?_⟩
    · rw [escape, List.append_assoc, ofHead, ofTail, List.append_assoc]
    · rw [List.count_cons, Nat.add_comm]
      simpa only [beq_iff_eq] using inHead.append inTail

end Texts

/-- The quote that is used is the one that the text has fewer of. -/
theorem count_quoteFor (text : List Char) :
    text.count (quoteFor text) = min (text.count '\'') (text.count '"') := by
  unfold quoteFor
  split <;> omega

/-- A string literal is read back, as a whole, as the text it was written for. It holds no line end, and
its escapes are of the known kinds. A quote is escaped as often as the text holds the kind of quote
that it has fewer of. -/
theorem quoted_reads (text : String) :
    literal? (quoted text).toList = some text ∧
    (∀ c ∈ (quoted text).toList, isLineEnd c = false) ∧
    (∀ sign ∈ signs (quoted text).toList, sign ∈ knownSigns) ∧
    (signs (quoted text).toList).countP (fun sign => IsQuote sign) =
      min (text.toList.count '\'') (text.toList.count '"') := by
  have proper := isQuote_quoteFor text.toList
  obtain ⟨added, ofText, marked⟩ := signs_escape proper text.toList
  have edge : isLineEnd (quoteFor text.toList) = false := by
    obtain same | same := proper <;> rw [same] <;> rfl
  have bare : quoteFor text.toList ≠ '\\' := by
    obtain same | same := proper <;> rw [same] <;> decide
  have shape : (quoted text).toList =
      quoteFor text.toList :: escape (quoteFor text.toList) text.toList ++ [quoteFor text.toList] :=
    String.toList_ofList
  have all : signs (quoted text).toList = added := by
    rw [shape, List.cons_append, signs_cons bare, ofText, signs_cons bare]
    exact List.append_nil _
  refine ⟨literal_quoted text, ?_, ?_, ?_⟩
  · rw [shape, List.forall_mem_append, List.forall_mem_cons, List.forall_mem_singleton]
    exact ⟨⟨edge, isLineEnd_escape proper text.toList⟩, edge⟩
  · exact all ▸ marked.known
  · rw [all, marked.count, count_quoteFor]

end Minifier.Text
