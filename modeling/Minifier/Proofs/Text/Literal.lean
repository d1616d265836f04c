import Minifier.Text.Quoted

/-!
# Reading string literals

How a string literal is read: from a quote up to the same quote, with escapes for single characters,
for code points in hexadecimal digits, and for line ends that are to be skipped. What `quoted` writes
is read back as the text it was made from.
-/

namespace Minifier.Text

/-- Whether a character ends a line, so that it cannot stand in a literal. -/
def isLineEnd (c : Char) : Bool :=
  c == '\n' || c == '\r' || c == '\u2028' || c == '\u2029'

/-- The character whose code point the hexadecimal digits spell. A half of a surrogate pair is no
character. -/
def hexChar? (digits : List Char) : Option Char :=
  let n := natInBase 16 digits
  if h : digits.all (isDigitIn 16) ∧ n.isValidChar then some (Char.ofNatAux n h.2) else none

/-- What a character stands for behind a backslash, from the one that follows. A zero with a digit
behind it, other digits, and `x` and `u` stand for nothing by themselves. -/
def escaped? (c : Char) (next : Option Char) : Option Char :=
  if c = 'b' then some '\x08'
  else if c = 't' then some '\t'
  else if c = 'n' then some '\n'
  else if c = 'v' then some '\x0b'
  else if c = 'f' then some '\x0c'
  else if c = 'r' then some '\r'
  else if c = '0' ∧ !next.any Char.isDigit then some '\x00'
  else if c = 'x' ∨ c = 'u' ∨ c.isDigit then none
  else some c

/-- A character and the text read behind it, if both could be read. -/
def followed (c : Option Char) (body : Option (List Char × List Char)) :
    Option (List Char × List Char) := do
  let c ← c
  let (text, rest) ← body
  return (c :: text, rest)

/-- The characters of a literal up to its closing quote, and what follows the quote. -/
def readBody (quote : Char) : List Char → Option (List Char × List Char)
  | [] => none
  | '\\' :: 'x' :: a :: b :: rest => followed (hexChar? [a, b]) (readBody quote rest)
  | '\\' :: 'u' :: a :: b :: c :: d :: rest =>
    followed (hexChar? [a, b, c, d]) (readBody quote rest)
  | '\\' :: '\r' :: '\n' :: rest => readBody quote rest
  | '\\' :: c :: rest =>
    if isLineEnd c then readBody quote rest
    else followed (escaped? c rest.head?) (readBody quote rest)
  | c :: rest =>
    if c = quote then some ([], rest)
    else if c = '\\' || isLineEnd c then none
    else followed (some c) (readBody quote rest)

/-- The two quotes. -/
abbrev IsQuote (c : Char) : Prop := c = '"' ∨ c = '\''

/-- The text that a whole string literal denotes. -/
def literal? : List Char → Option String
  | [] => none
  | quote :: rest =>
    if IsQuote quote then
      match readBody quote rest with
      | some (text, []) => some (String.ofList text)
      | _ => none
    else none

/-! ## What is written is read -/

/-- A character behind a backslash is read as what it stands for. -/
theorem readBody_escape {quote c d : Char} {rest : List Char} (noHex : c ≠ 'x' ∧ c ≠ 'u')
    (inLine : isLineEnd c = false) (eq : escaped? c rest.head? = some d) :
    readBody quote ('\\' :: c :: rest) = followed (some d) (readBody quote rest) := by
  rw [readBody]
  · rw [if_neg (by simp [inLine]), eq]
  · exact fun _ _ _ h => absurd h noHex.1
  · exact fun _ _ _ _ _ h => absurd h noHex.2
  · rintro _ rfl
    cases inLine

/-- Other characters are read as they are. -/
theorem readBody_plain {quote c : Char} {rest : List Char} (other : c ≠ quote) (bare : c ≠ '\\')
    (inLine : isLineEnd c = false) :
    readBody quote (c :: rest) = followed (some c) (readBody quote rest) := by
  rw [readBody]
  · simp [other, bare, inLine]
  all_goals
    intros
    contradiction

/-- The quote ends the literal. -/
theorem readBody_quote {quote : Char} {rest : List Char} (bare : quote ≠ '\\') :
    readBody quote (quote :: rest) = some ([], rest) := by
  rw [readBody]
  · simp
  all_goals
    intros
    contradiction

/-- A control character is written with two hexadecimal digits. -/
theorem hexChar_hexDigits {c : Char} (control : c.toNat < 0x20) :
    hexChar? (hexDigits 2 c.toNat) = some c := by
  have all : ∀ n < 0x20, hexChar? (hexDigits 2 n) = some (Char.ofNat n) := by decide
  rw [all c.toNat control, Char.ofNat_toNat]

/-- A quote is put around every text. -/
theorem isQuote_quoteFor (text : List Char) : IsQuote (quoteFor text) := by
  unfold quoteFor
  split
  · exact .inr rfl
  · exact .inl rfl

/-- The characters that a backslash may be written before. -/
def knownSigns : List Char :=
  ['\\', 'n', 'r', 't', 'b', 'v', 'f', '0', 'x', 'u', '"', '\'']

theorem isLineEnd_of_known {sign : Char} (known : sign ∈ knownSigns) : isLineEnd sign = false := by
  have all : knownSigns.all (fun sign => !isLineEnd sign) = true := rfl
  simpa using List.all_eq_true.mp all sign known

/-- The ways to write a character in a literal, from the character that follows it in the text. A quote
stands behind a backslash exactly if it is the quote of the literal. -/
inductive Written (quote : Char) (next : Option Char) (c : Char) : List Char → Prop
  | single (d : Char) (known : d ∈ knownSigns) (noHex : d ≠ 'x' ∧ d ≠ 'u')
    (marks : IsQuote d ↔ c = quote) (eq : ∀ n, escaped? d n = some c) : Written quote next c ['\\', d]
  | null (short : next.any Char.isDigit = false) (other : c ≠ quote) (eq : c = '\x00') :
    Written quote next c ['\\', '0']
  | byte {a b : Char} (other : c ≠ quote) (eq : hexChar? [a, b] = some c) :
    Written quote next c ['\\', 'x', a, b]
  | unit {a b d e : Char} (other : c ≠ quote) (eq : hexChar? [a, b, d, e] = some c) :
    Written quote next c ['\\', 'u', a, b, d, e]
  | plain (other : c ≠ quote) (bare : c ≠ '\\') (inLine : isLineEnd c = false) :
    Written quote next c [c]

/-- Every character is written in one of the forms that are read back. -/
theorem written_escapeChar {quote : Char} (proper : IsQuote quote) (next : Option Char) (c : Char) :
    Written quote next c (escapeChar quote next c) := by
  have other {d : Char} (special : ¬ IsQuote d) : d ≠ quote := by
    rintro rfl
    exact special proper
  have named {d : Char} (sign : Char) (special : ¬ IsQuote d)
      (usual : sign ∈ knownSigns ∧ (sign ≠ 'x' ∧ sign ≠ 'u') ∧ ¬ IsQuote sign)
      (eq : ∀ n, escaped? sign n = some d) : Written quote next d ['\\', sign] :=
    .single sign usual.1 usual.2.1 (iff_of_false usual.2.2 (other special)) eq
  unfold escapeChar
  by_cases backslash : c = '\\'
  · rw [if_pos backslash, backslash]
    exact named '\\' (by decide) (by decide) fun _ => rfl
  rw [if_neg backslash]
  by_cases feed : c = '\n'
  · rw [if_pos feed, feed]
    exact named 'n' (by decide) (by decide) fun _ => rfl
  rw [if_neg feed]
  by_cases carriage : c = '\r'
  · rw [if_pos carriage, carriage]
    exact named 'r' (by decide) (by decide) fun _ => rfl
  rw [if_neg carriage]
  by_cases tab : c = '\t'
  · rw [if_pos tab, tab]
    exact named 't' (by decide) (by decide) fun _ => rfl
  rw [if_neg tab]
  by_cases back : c = '\x08'
  · rw [if_pos back, back]
    exact named 'b' (by decide) (by decide) fun _ => rfl
  rw [if_neg back]
  by_cases vertical : c = '\x0b'
  · rw [if_pos vertical, vertical]
    exact named 'v' (by decide) (by decide) fun _ => rfl
  rw [if_neg vertical]
  by_cases form : c = '\x0c'
  · rw [if_pos form, form]
    exact named 'f' (by decide) (by decide) fun _ => rfl
  rw [if_neg form]
  by_cases null : c = '\x00'
  · rw [if_pos null, null]
    by_cases digit : next.any Char.isDigit
    · rw [if_pos digit]
      exact .byte (other (by decide)) rfl
    · rw [if_neg digit]
      exact .null (by simpa using digit) (other (by decide)) rfl
  rw [if_neg null]
  by_cases line : c = '\u2028'
  · rw [if_pos line, line]
    exact .unit (other (by decide)) rfl
  rw [if_neg line]
  by_cases paragraph : c = '\u2029'
  · rw [if_pos paragraph, paragraph]
    exact .unit (other (by decide)) rfl
  rw [if_neg paragraph]
  by_cases isQuote : c = quote
  · rw [if_pos isQuote]
    subst isQuote
    obtain rfl | rfl := proper <;> exact .single _ (by decide) (by decide) (by decide) fun _ => rfl
  rw [if_neg isQuote]
  by_cases control : c.toNat < 0x20
  · rw [if_pos control]
    exact .byte isQuote (hexChar_hexDigits control)
  · rw [if_neg control]
    exact .plain isQuote backslash (by simp [isLineEnd, feed, carriage, line, paragraph])

/-- A written character is read as the character it was written for. A null character is written
in short only if no digit follows. -/
theorem Written.read_eq {quote c : Char} {next : Option Char} {form tail : List Char}
    (written : Written quote next c form)
    (apart : next.any Char.isDigit = false → tail.head?.any Char.isDigit = false) :
    readBody quote (form ++ tail) = followed (some c) (readBody quote tail) := by
  cases written with
  | single d known noHex marks eq => exact readBody_escape noHex (isLineEnd_of_known known) (eq _)
  | null short other eq =>
    subst eq
    exact readBody_escape (by decide) rfl (by simp [escaped?, apart short])
  | byte other eq => rw [← eq]; rfl
  | unit other eq => rw [← eq]; rfl
  | plain other bare inLine => exact readBody_plain other bare inLine

/-- A character is written with a backslash in front, or begins with itself. -/
theorem Written.exists_cons {quote c : Char} {next : Option Char} {form : List Char}
    (written : Written quote next c form) : ∃ d rest, form = d :: rest ∧ (d = '\\' ∨ d = c) := by
  cases written with
  | plain => exact ⟨_, _, rfl, .inr rfl⟩
  | _ => exact ⟨_, _, rfl, .inl rfl⟩

/-- No digit comes first where a text is written that does not begin with one. -/
theorem head_escape {quote : Char} (proper : IsQuote quote) (text rest : List Char)
    (noDigit : text.head?.any Char.isDigit = false) :
    (escape quote text ++ quote :: rest).head?.any Char.isDigit = false := by
  cases text with
  | nil => obtain rfl | rfl := proper <;> rfl
  | cons c text =>
    obtain ⟨d, form, eq, head⟩ := (written_escapeChar proper text.head? c).exists_cons
    rw [escape, eq]
    obtain rfl | rfl := head
    · rfl
    · exact noDigit

/-- A written text is read up to its closing quote. -/
theorem readBody_escape_append {quote : Char} (proper : IsQuote quote) (text rest : List Char) :
    readBody quote (escape quote text ++ quote :: rest) = some (text, rest) := by
  induction text with
  | nil => obtain rfl | rfl := proper <;> exact readBody_quote (by decide)
  | cons c text ih =>
    rw [escape, List.append_assoc,
      (written_escapeChar proper text.head? c).read_eq (head_escape proper text rest), ih]
    rfl

/-- The literal for a text denotes that text. -/
theorem literal_quoted (text : String) : literal? (quoted text).toList = some text := by
  have proper := isQuote_quoteFor text.toList
  have read := readBody_escape_append proper text.toList []
  unfold quoted
  simp only [String.toList_ofList, List.cons_append, literal?]
  rw [if_pos proper, read]
  simp

end Minifier.Text
