import Minifier.Proofs.Lexical.Scanning

/-!
# Spelled tokens are found again

Tokens that follow each other as a reader expects them are written with enough blanks between them: the
text is split into the same tokens. The one exception is a regular expression without flags directly
before a word, which would be read as its flags.
-/

namespace Minifier.Lexical

open Grammar (isWhole joinPoints)
open Text (isIdentStart isIdentPart isIdentifier isReserved)

variable {r : Reader} {t u : Token}

/-- Whether the text of a token is one of its kind. -/
def IsLexeme (t : Token) : Prop :=
  match t.kind with
  | .keyword | .identifier => isIdentifier t.text = true
  | .number => IsNumeral t.text.toList
  | .punctuator => t.text ∈ punctuators
  | .regex => ∃ body flags, IsRegex t.text.toList body flags
  | .quoted => ∃ value, t.text = Text.quoted value

/-- The punctuators that need no operand in front of them. -/
def openPunctuators : List String :=
  ["(", ")", "[", "]", "\x7b", "\x7d", ",", ";", ":", "+", "-", "++", "--", "!", "~"]

/-- Whether a token can come where the reader stands. -/
def Reader.Admits (r : Reader) (t : Token) : Prop :=
  match t.kind with
  | .keyword => isReserved t.text = true ∧ r.takesName = false
  | .identifier => isReserved t.text = false ∨ r.takesName = true
  | .number => r.position ≠ .operator ∧ r.position ≠ .name ∧ ∀ declared, r.position ≠ .func declared
  | .punctuator => t.text ∈ openPunctuators ∨ r.position = .operator
  | .regex => r.position ≠ .operator
  | .quoted => True

/-- Whether a character can follow a token directly without being read with it. -/
def MayFollow (t : Token) (c : Char) : Prop :=
  match t.kind with
  | .keyword | .identifier | .regex => isIdentPart c = false
  | .number => isIdentPart c = false ∧ (c = '.' → isWhole t = false)
  | .punctuator => isExtendedBy t.text c = false ∧ (t.text = "." → c.isDigit = false) ∧
    (t.text = "/" → c ≠ '/' ∧ c ≠ '*')
  | .quoted => True

/-- A token is found at the beginning of a text. -/
theorem scan_token {rest : List Char} (lexeme : IsLexeme t) (admits : r.Admits t)
    (follow : ∀ c ∈ rest.head?, MayFollow t c) :
    scan r (t.text.toList ++ rest) = some (.token t.kind rest) := by
  obtain ⟨kind, text⟩ := t
  cases kind with
  | keyword =>
    rw [scan_word lexeme follow]
    simp [admits.1, admits.2]
  | identifier =>
    rw [scan_word lexeme follow]
    obtain free | name := admits
    · simp [show isReserved text = false from free]
    · simp [name]
  | number =>
    refine scan_number lexeme (fun c mem => (follow c mem).1) fun point => ?_
    have := (follow '.' point).2 rfl
    simpa [isWhole] using this
  | punctuator =>
    refine scan_punctuator lexeme (fun c mem => (follow c mem).1)
      (fun point c mem => (follow c mem).2.1 point) (fun slash => ⟨fun head => ?_, fun head => ?_⟩)
      fun slash => admits.resolve_left ?_
    · exact ((follow '/' head).2.2 slash).1 rfl
    · exact ((follow '*' head).2.2 slash).2 rfl
    · obtain same | same := slash <;> (rw [show text = _ from same]; decide)
  | regex =>
    obtain ⟨body, flags, regex⟩ := lexeme
    have stop : rest.dropWhile isIdentPart = rest :=
      @dropWhile_append_of_stop rest isIdentPart [] (by simp) follow
    rw [scan_regex regex admits, stop]
  | quoted =>
    obtain ⟨value, same⟩ := lexeme
    rw [show text = _ from same]
    exact scan_quoted value

/-! ## Neighbours -/

/-- How tokens of a kind begin. -/
def BeginsWith (kind : TokenKind) (c : Char) : Prop :=
  match kind with
  | .keyword | .identifier => isIdentStart c = true
  | .number => c.isDigit = true ∨ c = '.'
  | .punctuator => isIdentPart c = false
  | .regex => c = '/'
  | .quoted => Text.IsQuote c

/-- A token has a first character, which is one for its kind. -/
theorem IsLexeme.exists_head (lexeme : IsLexeme t) :
    ∃ c more, t.text.toList = c :: more ∧ BeginsWith t.kind c := by
  obtain ⟨kind, text⟩ := t
  cases kind with
  | keyword | identifier =>
    cases shape : text.toList with
    | nil => simp [IsLexeme, isIdentifier, shape] at lexeme
    | cons c more =>
      simp only [IsLexeme, isIdentifier, shape, Bool.and_eq_true] at lexeme
      exact ⟨c, more, rfl, lexeme.1⟩
  | number =>
    obtain ⟨c, more, shape, begins⟩ := IsNumeral.head lexeme
    simp only [Bool.or_eq_true, Bool.and_eq_true, beq_iff_eq] at begins
    exact ⟨c, more, shape, begins.imp_right And.left⟩
  | punctuator =>
    obtain ⟨c, more, shape, noPart, -⟩ := punctuator_head lexeme
    exact ⟨c, more, shape, noPart⟩
  | regex =>
    obtain ⟨body, flags, regex⟩ := lexeme
    exact ⟨'/', _, regex.shape, rfl⟩
  | quoted =>
    obtain ⟨value, same⟩ := lexeme
    exact ⟨_, _, by rw [show text = _ from same, Text.quoted, String.toList_ofList]; rfl,
      Text.isQuote_quoteFor value.toList⟩

/-- No token is empty. -/
theorem IsLexeme.ne_nil (lexeme : IsLexeme t) : t.text.toList ≠ [] := by
  obtain ⟨c, more, head, -⟩ := lexeme.exists_head
  simp [head]

/-- The first character of a token is one for its kind. -/
theorem IsLexeme.begins {c : Char} {more : List Char} (lexeme : IsLexeme t)
    (head : t.text.toList = c :: more) : BeginsWith t.kind c := by
  obtain ⟨d, tail, shape, begins⟩ := lexeme.exists_head
  obtain ⟨rfl, -⟩ := List.cons.inj (head.symm.trans shape)
  exact begins

/-- A token that does not begin like a word does not begin with a character of words. -/
theorem IsLexeme.noPart {c : Char} {more : List Char} (lexeme : IsLexeme t)
    (head : t.text.toList = c :: more) (noWord : t.front ≠ .word) : isIdentPart c = false := by
  have begins := lexeme.begins head
  obtain ⟨kind, text⟩ := t
  cases kind with
  | keyword | identifier => exact absurd rfl noWord
  | number =>
    have point : c = '.' := by simpa [Token.front, show text.toList = _ from head] using noWord
    rw [point, isIdentPart_ascii] <;> decide
  | punctuator => exact begins
  | regex => rw [show c = '/' from begins, isIdentPart_ascii] <;> decide
  | quoted => obtain rfl | rfl := begins <;> (rw [isIdentPart_ascii] <;> decide)

/-- Only punctuators begin with these characters. -/
theorem IsLexeme.isPunctuator {c : Char} {more : List Char} (lexeme : IsLexeme t)
    (head : t.text.toList = c :: more) (mark : c ∈ ['*', '=', '+', '-', '&', '|', '<', '>']) :
    t.kind = .punctuator := by
  have begins := lexeme.begins head
  have all : ['*', '=', '+', '-', '&', '|', '<', '>'].all (fun d => d.toNat < 0x80 ∧
      isAsciiStart d = false ∧ d.isDigit = false ∧ d ≠ '.' ∧ d ≠ '/' ∧ ¬Text.IsQuote d) = true := by
    decide
  obtain ⟨small, noStart, noDigit, noPoint, noSlash, noQuote⟩ :=
    of_decide_eq_true (List.all_eq_true.1 all c mark)
  cases kind : t.kind with
  | punctuator => rfl
  | keyword | identifier =>
    rw [kind] at begins
    simp [BeginsWith, isIdentStart_ascii small, noStart] at begins
  | number | regex | quoted =>
    rw [kind] at begins
    simp_all [BeginsWith]

/-- The characters that stand in punctuators behind the first one. -/
def tailChars : List Char := ['=', '+', '-', '&', '|', '<', '>']

/-- What a character makes longer is the beginning of another punctuator. -/
theorem exists_of_isExtendedBy {text : String} {c : Char} (extended : isExtendedBy text c = true) :
    ∃ p ∈ punctuators, ∃ more, p.toList = text.toList ++ c :: more := by
  obtain ⟨p, mem, longer⟩ := List.any_eq_true.1 extended
  obtain ⟨more, shape⟩ := List.isPrefixOf_iff_prefix.1 longer
  exact ⟨p, mem, more, by simp [← shape]⟩

/-- Only a few characters can make a punctuator longer. -/
theorem mem_tailChars {text : String} {c : Char} (mem : text ∈ punctuators)
    (extended : isExtendedBy text c = true) : c ∈ tailChars := by
  have all : ∀ p ∈ punctuators, p.toList.tail.all tailChars.contains = true := by decide +kernel
  obtain ⟨d, first, head, -⟩ := punctuator_head mem
  obtain ⟨p, found, more, shape⟩ := exists_of_isExtendedBy extended
  exact List.contains_iff_mem.1 (List.all_eq_true.1 (all p found) c (by simp [shape, head]))

/-- Nothing makes a closing bracket or a double sign longer. -/
theorem not_isExtendedBy_closing {text : String} (closing : text ∈ [")", "]", "\x7d", "++", "--"])
    (c : Char) : isExtendedBy text c = false := by
  have all : ∀ q ∈ [")", "]", "\x7d", "++", "--"], ∀ p ∈ punctuators,
      q.toList.isPrefixOf p.toList = true → p.toList.length ≤ q.toList.length := by
    decide +kernel
  rw [← Bool.not_eq_true]
  intro extended
  obtain ⟨p, mem, more, shape⟩ := exists_of_isExtendedBy extended
  have short := all text closing p mem (by simp [shape, List.isPrefixOf_iff_prefix])
  simp [shape] at short

/-- Of the punctuators that need no operand in front of them, only those with a sign could be read
with a punctuator before them, and that only if it is the same sign. -/
theorem sign_of_isExtendedBy {p q : String} (mem : p ∈ punctuators) (opens : q ∈ openPunctuators)
    {c : Char} {more : List Char} (head : q.toList = c :: more)
    (extended : isExtendedBy p c = true) :
    (Token.punct p).back.clash (Token.punct q).front = true := by
  have signs : ∀ q ∈ openPunctuators, (q.toList.head?.all fun c => !tailChars.contains c) = true ∨
      q ∈ ["+", "++"] ∨ q ∈ ["-", "--"] := by decide +kernel
  have plus : ∀ p ∈ punctuators, isExtendedBy p '+' = true → p = "+" := by decide +kernel
  have minus : ∀ p ∈ punctuators, isExtendedBy p '-' = true → p = "-" := by decide +kernel
  obtain other | sign | sign := signs q opens
  · have tail := mem_tailChars mem extended
    simp [head, tail] at other
  · obtain rfl | rfl := List.mem_pair.1 sign
    all_goals
      obtain ⟨rfl, -⟩ := List.cons.inj head
      obtain rfl := plus p mem extended
      decide
  · obtain rfl | rfl := List.mem_pair.1 sign
    all_goals
      obtain ⟨rfl, -⟩ := List.cons.inj head
      obtain rfl := minus p mem extended
      decide

/-- Behind a punctuator an operand ends only if it closes a bracket or stands behind its operand. -/
theorem closing_of_position {text : String} (position : (r.afterPunctuator text).position = .operator) :
    text ∈ [")", "]", "\x7d", "++", "--"] := by
  unfold Reader.afterPunctuator at position
  split at position <;> grind [Reader.expect, Reader.enter]

/-- Only a number or the point itself begins with a point. -/
theorem IsLexeme.eq_point {more : List Char} (lexeme : IsLexeme t)
    (head : t.text.toList = '.' :: more) : t.kind = .number ∨ t = .punct "." := by
  have begins := lexeme.begins head
  obtain ⟨kind, text⟩ := t
  cases kind with
  | number => exact .inl rfl
  | punctuator =>
    obtain ⟨c, tail, shape, -, -, -, -, point, -⟩ := punctuator_head lexeme
    obtain ⟨rfl, -⟩ := List.cons.inj (head.symm.trans shape)
    rw [show text = _ from point rfl]
    exact .inr rfl
  | keyword | identifier =>
    exact absurd begins (by simp only [BeginsWith]; rw [isIdentStart_ascii] <;> decide)
  | regex | quoted => exact absurd begins (by simp [BeginsWith])

/-- Only a number begins with a digit. -/
theorem IsLexeme.isNumber {c : Char} {more : List Char} (lexeme : IsLexeme t)
    (head : t.text.toList = c :: more) (digit : c.isDigit = true) : t.kind = .number := by
  have begins := lexeme.begins head
  obtain ⟨part, start⟩ := isIdentPart_of_isDigit digit
  cases kind : t.kind with
  | number => rfl
  | keyword | identifier | punctuator => simp_all [BeginsWith]
  | regex =>
    rw [kind] at begins
    rw [show c = '/' from begins] at digit
    exact absurd digit (by decide)
  | quoted =>
    rw [kind] at begins
    obtain rfl | rfl := begins <;> exact absurd digit (by decide)

/-- What begins with a slash is written like a slash. -/
theorem IsLexeme.front_slash {more : List Char} (lexeme : IsLexeme t)
    (head : t.text.toList = '/' :: more) : t.front = .slash := by
  have begins := lexeme.begins head
  obtain ⟨kind, text⟩ := t
  cases kind with
  | regex => rfl
  | punctuator =>
    obtain ⟨c, tail, shape, -, -, -, -, -, slash⟩ := punctuator_head lexeme
    obtain ⟨rfl, -⟩ := List.cons.inj (head.symm.trans shape)
    obtain same | same := slash rfl <;> (rw [show text = _ from same]; decide)
  | keyword | identifier =>
    exact absurd begins (by simp only [BeginsWith]; rw [isIdentStart_ascii] <;> decide)
  | number | quoted => exact absurd begins (by simp [BeginsWith])

/-- Behind a literal comes an operator, or the parameters of an accessor. -/
theorem Reader.afterLiteral_position (r : Reader) :
    r.afterLiteral.position = .operator ∨ r.afterLiteral.position = .func false := by
  unfold Reader.afterLiteral
  split
  · exact .inr rfl
  · exact .inl rfl

/-- Of two tokens that follow each other as the reader expects them, the second begins with a
character that may follow the first, if no blank is written between them. -/
theorem mayFollow_head {c : Char} {more : List Char} (first : IsLexeme t) (second : IsLexeme u)
    (admits : (r.after t).Admits u) (head : u.text.toList = c :: more)
    (noBlank : t.back.clash u.front = false) (plain : t.kind = .number → t.back = .word)
    (noFlags : t.kind = .regex → t.back ≠ .word → u.front ≠ .word)
    (noPoint : isWhole t = true → u ≠ .punct ".") : MayFollow t c := by
  -- A token that begins like a word is kept apart from one that ends like a word.
  have apart : t.back = .word → isIdentPart c = false := by
    intro back
    refine second.noPart head fun front => ?_
    simp [back, front, Edge.clash] at noBlank
  obtain ⟨kind, text⟩ := t
  cases kind with
  | keyword | identifier => exact apart rfl
  | number =>
    refine ⟨apart (plain rfl), ?_⟩
    rintro rfl
    obtain number | point := second.eq_point head
    · -- Behind a number there is no other one.
      simp only [Reader.Admits, number] at admits
      obtain ended | named := r.afterLiteral_position
      · exact absurd ended admits.1
      · exact absurd named (admits.2.2 false)
    · cases whole : isWhole (⟨.number, text⟩ : Token) with
      | false => rfl
      | true => exact absurd point (noPoint whole)
  | punctuator =>
    refine ⟨?_, ?_, ?_⟩
    · rw [← Bool.not_eq_true]
      intro extended
      have isPunctuator := second.isPunctuator head (.tail _ (mem_tailChars first extended))
      obtain ⟨kind, next⟩ := u
      cases isPunctuator
      obtain opens | ended := admits
      · have clash := sign_of_isExtendedBy first opens head extended
        exact absurd clash (by simp [Token.punct, noBlank])
      · simp [not_isExtendedBy_closing (closing_of_position ended)] at extended
    · rintro rfl
      rw [← Bool.not_eq_true]
      intro digit
      have number := second.isNumber head digit
      simp only [Reader.Admits, number] at admits
      exact admits.2.1 rfl
    · rintro rfl
      refine ⟨?_, ?_⟩
      · rintro rfl
        simp [second.front_slash head, Token.back, Edge.clash] at noBlank
      · rintro rfl
        have isPunctuator := second.isPunctuator head (by simp)
        obtain ⟨kind, next⟩ := u
        cases isPunctuator
        obtain opens | ended := admits
        · have none : ∀ q ∈ openPunctuators, q.toList.head? ≠ some '*' := by decide
          exact none next opens (by simp [show next.toList = _ from head])
        · exact absurd (closing_of_position ended) (by decide)
  | regex =>
    by_cases back : (⟨.regex, text⟩ : Token).back = .word
    · exact apart back
    · exact second.noPart head (noFlags rfl back)
  | quoted => trivial

/-- Every token may be followed by a blank. -/
theorem mayFollow_blank (lexeme : IsLexeme t) : MayFollow t ' ' := by
  have noPart : isIdentPart ' ' = false := by rw [isIdentPart_ascii] <;> decide
  obtain ⟨kind, text⟩ := t
  cases kind with
  | keyword | identifier | regex => exact noPart
  | number => exact ⟨noPart, by simp⟩
  | punctuator =>
    refine ⟨?_, fun _ => rfl, fun _ => by decide⟩
    rw [← Bool.not_eq_true]
    intro extended
    exact absurd (mem_tailChars lexeme extended) (by decide)
  | quoted => trivial

/-! ## Texts of tokens -/

/-- The text of tokens that are written behind one with the given back. -/
def spaced : Edge → List Token → List Char
  | _, [] => []
  | last, t :: ts => (if last.clash t.front then [' '] else []) ++ (t.text.toList ++ spaced t.back ts)

/-- A token is written behind a blank if it clashes with what is in front of it. -/
theorem write_eq (nonempty : t.text.toList ≠ []) (out : Output) :
    out.write t = ⟨out.text ++ (if out.last.clash t.front then " " else "") ++ t.text, t.back⟩ := by
  have some : t.text.isEmpty = false := by
    simpa [String.isEmpty_iff, ← String.toList_eq_nil_iff] using nonempty
  rw [Output.write, some]
  split
  · contradiction
  · split <;> simp

/-- Tokens are written one after the other, with blanks where they clash. -/
theorem toList_writeAll {ts : List Token} (nonempty : ∀ t ∈ ts, t.text.toList ≠ []) (out : Output) :
    (out.writeAll ts).text.toList = out.text.toList ++ spaced out.last ts := by
  induction ts generalizing out with
  | nil => simp [Output.writeAll, spaced]
  | cons t ts ih =>
    have rest := ih (fun u mem => nonempty u (.tail _ mem)) (out.write t)
    rw [Output.writeAll, List.foldl_cons, ← Output.writeAll, rest, spaced,
      write_eq (nonempty t List.mem_cons_self)]
    split <;> simp

/-- Whether a token is a regular expression without flags. -/
def isBareRegex (t : Token) : Bool :=
  t.kind == .regex && t.back == .slash

/-- Whether a regular expression without flags stands directly before a word somewhere. -/
def regexMeetsWord : List Token → Bool
  | t :: u :: rest => (isBareRegex t && u.front == .word) || regexMeetsWord (u :: rest)
  | _ => false

/-- Whether a token is a number that ends with its point. -/
def endsWithPoint (t : Token) : Bool :=
  t.kind == .number && t.back == .other

/-- No whole number stands directly before a point. -/
def pointsApart : List Token → Bool
  | t :: u :: rest => !(isWhole t && u == .punct ".") && pointsApart (u :: rest)
  | _ => true

/-- Tokens that come as a reader expects them, from one position to another. A number with a point
behind it comes before another point only. -/
inductive Tracks : Reader → List Token → Reader → Prop
  | nil {r : Reader} : Tracks r [] r
  | cons {r r' : Reader} {t : Token} {ts : List Token} (lexeme : IsLexeme t) (admits : r.Admits t)
    (point : endsWithPoint t = true → ts.head? = some (.punct "."))
    (rest : Tracks (r.after t) ts r') : Tracks r (t :: ts) r'

/-- Tokens that come as expected have proper texts. -/
theorem Tracks.isLexeme {r r' : Reader} {ts : List Token} (tracks : Tracks r ts r') :
    ∀ t ∈ ts, IsLexeme t := by
  induction tracks with
  | nil => simp
  | cons lexeme admits point rest ih => exact List.forall_mem_cons.mpr ⟨lexeme, ih⟩

/-- A reader goes on with further tokens where it stands. -/
theorem Tracks.append {r r' r'' : Reader} {ts us : List Token} (first : Tracks r ts r')
    (second : Tracks r' us r'') : Tracks r (ts ++ us) r'' := by
  induction first with
  | nil => exact second
  | cons lexeme admits point rest ih =>
    refine .cons lexeme admits (fun ends => ?_) (ih second)
    exact (List.head?_append).trans (by rw [point ends]; rfl)

/-- A blank is skipped. -/
theorem lexFrom_blank (r : Reader) (cs : List Char) : lexFrom r (' ' :: cs) = lexFrom r cs := by
  have noWord : isIdentStart ' ' = false := by rw [isIdentStart_ascii] <;> decide
  have blank : scan r (' ' :: cs) = some (.blank cs) := by simp [scan, noWord, Text.isBlank]
  rw [lexFrom, blank]
  simp

/-- A text is split at a token that is found at its beginning. -/
theorem lexFrom_of_scan {kind : TokenKind} {text rest : List Char}
    (found : scan r (text ++ rest) = some (.token kind rest)) (nonempty : text ≠ []) :
    lexFrom r (text ++ rest) =
      (lexFrom (r.after ⟨kind, String.ofList text⟩) rest).map (⟨kind, String.ofList text⟩ :: ·) := by
  have shorter : rest.length < (text ++ rest).length := by
    have := List.length_pos_of_ne_nil nonempty
    simp only [List.length_append]
    omega
  rw [lexFrom, found]
  simp only [take_length_append, if_pos shorter]

/-- A token is found if the reader is in a position for it and no character follows that would be read
with it. -/
theorem lexFrom_token {rest : List Char} (lexeme : IsLexeme t) (admits : r.Admits t)
    (follow : ∀ c ∈ rest.head?, MayFollow t c) :
    lexFrom r (t.text.toList ++ rest) = (lexFrom (r.after t) rest).map (t :: ·) := by
  obtain ⟨c, more, head, -⟩ := lexeme.exists_head
  have step := lexFrom_of_scan (scan_token lexeme admits follow) (by simp [head])
  rwa [String.ofList_toList] at step

/-- A token that begins like a word begins with a character of words. -/
theorem IsLexeme.isPart {c : Char} {more : List Char} (lexeme : IsLexeme t)
    (head : t.text.toList = c :: more) (word : t.front = .word) : isIdentPart c = true := by
  have begins := lexeme.begins head
  obtain ⟨kind, text⟩ := t
  cases kind with
  | keyword | identifier => exact isIdentPart_of_isIdentStart begins
  | number =>
    obtain digit | rfl := begins
    · exact (isIdentPart_of_isDigit digit).1
    · simp [Token.front, show text.toList = _ from head] at word
  | punctuator => grind [Token.front]
  | regex | quoted => cases word

/-- A word directly behind a regular expression without flags is read as its flags. -/
theorem lexFrom_swallow {rest : List Char} {ts : List Token} (first : IsLexeme t) (second : IsLexeme u)
    (admits : r.Admits t) (bare : isBareRegex t = true) (word : u.front = .word) :
    lexFrom r (t.text.toList ++ (u.text.toList ++ rest)) ≠ some (t :: ts) := by
  obtain ⟨kind, text⟩ := t
  obtain rfl : kind = .regex := by
    simp only [isBareRegex, Bool.and_eq_true, beq_iff_eq] at bare
    exact bare.1
  obtain ⟨body, flags, regex⟩ := first
  obtain ⟨c, more, head, -⟩ := second.exists_head
  have part := second.isPart head word
  have found := @scan_regex r (u.text.toList ++ rest) _ _ _ regex admits
  rw [head, List.cons_append, List.dropWhile_cons, if_pos part] at found
  have short := (List.dropWhile_sublist isIdentPart (l := more ++ rest)).length_le
  intro same
  rw [lexFrom, head, List.cons_append, found] at same
  dsimp only at same
  split at same
  · obtain ⟨us, -, same⟩ := Option.map_eq_some_iff.1 same
    have texts := congrArg (fun t => t.text.toList.length) (List.cons.inj same).1
    simp only [String.toList_ofList, List.length_take, List.length_append, List.length_cons] at texts short
    omega
  · cases same

/-- No token is written so that its first character would be read with the token in front of it. -/
theorem mayFollow_spaced {us : List Token} (first : IsLexeme t) (second : IsLexeme u)
    (admits : (r.after t).Admits u)
    (point : endsWithPoint t = true → (u :: us).head? = some (.punct "."))
    (apart : isWhole t = true → u ≠ .punct ".") (meets : (isBareRegex t && u.front == .word) = false) :
    ∀ c ∈ (spaced t.back (u :: us)).head?, MayFollow t c := by
  obtain ⟨c, more, head, -⟩ := second.exists_head
  rw [spaced, head]
  cases clash : t.back.clash u.front with
  | true =>
    rintro d ⟨⟩
    exact mayFollow_blank first
  | false =>
    rintro d ⟨⟩
    cases ends : endsWithPoint t with
    | true =>
      -- A number that has its point is followed by another one.
      obtain rfl : u = .punct "." := by simpa using point ends
      obtain ⟨rfl, -⟩ : '.' = c ∧ [] = more := by simpa [Token.punct] using head
      have noWhole : isWhole t = false := by
        rw [← Bool.not_eq_true]
        exact fun whole => apart whole rfl
      simp only [endsWithPoint, Bool.and_eq_true, beq_iff_eq] at ends
      simp only [MayFollow, ends.1]
      exact ⟨by rw [isIdentPart_ascii] <;> decide, fun _ => noWhole⟩
    | false =>
      refine mayFollow_head first second admits head clash (fun number => ?_) (fun regex back => ?_) apart
      · simp only [endsWithPoint, number, beq_self_eq_true, Bool.true_and, beq_eq_false_iff_ne] at ends
        simp only [Token.back, number] at ends ⊢
        split at ends
        · contradiction
        · simp_all
      · intro word
        have slash : t.back = .slash := by
          simp only [Token.back, regex] at back ⊢
          split at back <;> simp_all
        simp [isBareRegex, regex, slash, word] at meets

/-- Tokens that come as a reader expects them are found again in their text, unless a word stands
directly behind a regular expression without flags. -/
theorem lexFrom_spaced {r r' : Reader} {ts : List Token} (tracks : Tracks r ts r')
    (apart : pointsApart ts = true) (last : Edge) :
    lexFrom r (spaced last ts) = some ts ↔ regexMeetsWord ts = false := by
  induction tracks generalizing last with
  | nil =>
    rw [spaced, lexFrom, scan]
    simp [regexMeetsWord]
  | @cons r r' t ts lexeme admits point rest ih =>
    have skipped : lexFrom r (spaced last (t :: ts)) =
        lexFrom r (t.text.toList ++ spaced t.back ts) := by
      rw [spaced]
      split
      · exact lexFrom_blank r _
      · rfl
    rw [skipped]
    cases rest with
    | nil =>
      rw [spaced, lexFrom_token lexeme admits (by simp), lexFrom, scan]
      simp [regexMeetsWord]
    | @cons _ _ u us lexeme' admits' point' rest' =>
      simp only [pointsApart, Bool.and_eq_true, Bool.not_eq_true', Bool.and_eq_false_imp,
        beq_eq_false_iff_ne] at apart
      cases meets : isBareRegex t && u.front == .word with
      | true =>
        simp only [Bool.and_eq_true, beq_iff_eq] at meets
        obtain ⟨bare, word⟩ := meets
        have joined : t.back.clash u.front = false := by
          simp only [isBareRegex, Bool.and_eq_true, beq_iff_eq] at bare
          rw [bare.2, word]
          rfl
        rw [spaced, joined]
        refine iff_of_false (lexFrom_swallow lexeme lexeme' admits bare word) ?_
        simp [regexMeetsWord, bare, word]
      | false =>
        have follow : ∀ c ∈ (spaced t.back (u :: us)).head?, MayFollow t c :=
          mayFollow_spaced lexeme lexeme' admits' point apart.1 meets
        rw [lexFrom_token lexeme admits follow, regexMeetsWord, meets, Bool.false_or,
          ← ih apart.2 t.back]
        simp

end Minifier.Lexical
