import Mathlib.Data.List.DropRight
import Minifier.Json.Draft
import Minifier.Proofs.Double.Numeral

/-!
# JSON texts that are read back

The text of a JSON value is read as a draft of that value, whatever follows it. This holds of strings and
of whole numbers up to 64 bits. Of the other numbers it is asked for, since the quick rule by which they
are read rounds more than once. Three steps for each character of the text are enough.
-/

namespace Minifier.Json

/-! ## Strings -/

/-- The part of a string that a character is read as. -/
def pieceOf (c : Char) : Piece :=
  if c.toNat < 0x20 ∧ c ∉ ['\x08', '\x0c', '\n', '\r', '\t'] then .unit c.toNat else .char c

/-- A control character is written as four hexadecimal digits and read as the unit that they give. -/
theorem scanString_control {c : Char} (control : c.toNat < 0x20) (pieces : List Piece)
    (rest : List Char) :
    scanString pieces ('\\' :: 'u' :: Text.hexDigits 4 c.toNat ++ rest) =
      scanString (.unit c.toNat :: pieces) rest := by
  have all : ∀ n < 0x20, ∃ a b d e, Text.hexDigits 4 n = [a, b, d, e] ∧
      [a, b, d, e].all (Text.isDigitIn 16) = true ∧ Text.natInBase 16 [a, b, d, e] = n := by
    intro n small
    refine ⟨'0', '0', Text.hexDigit (n / 16 % 16), Text.hexDigit (n % 16), ?_⟩
    revert n
    decide
  obtain ⟨a, b, d, e, digits, proper, value⟩ := all c.toNat control
  rw [digits]
  simp only [List.cons_append, List.nil_append, scanString, proper, value, if_true]

/-- Any character but a quote, a backslash and the control characters is read as itself. -/
theorem scanString_plain {c : Char} (quote : c ≠ '"') (backslash : c ≠ '\\')
    (printable : ¬ c.toNat < 0x20) (pieces : List Piece) (rest : List Char) :
    scanString pieces (c :: rest) = scanString (.char c :: pieces) rest := by
  rw [scanString]
  · rw [if_neg quote, if_neg printable]
  all_goals simp_all

/-- The escaped form of a character is read as the character. -/
theorem scanString_escapeChar (c : Char) (pieces : List Piece) (rest : List Char) :
    scanString pieces (escapeChar c ++ rest) = scanString (pieceOf c :: pieces) rest := by
  unfold escapeChar
  split_ifs with quote backslash backspace feed line carriage tab control
  · subst quote; rfl
  · subst backslash; rfl
  · subst backspace; rfl
  · subst feed; rfl
  · subst line; rfl
  · subst carriage; rfl
  · subst tab; rfl
  · have piece : pieceOf c = .unit c.toNat := by simp_all [pieceOf]
    rw [piece]
    exact scanString_control control pieces rest
  · have piece : pieceOf c = .char c := by simp_all [pieceOf]
    rw [piece]
    exact scanString_plain quote backslash control pieces rest

/-- An escaped text is read up to the quote that ends it. -/
theorem scanString_escaped (text : List Char) (pieces : List Piece) (rest : List Char) :
    scanString pieces (text.flatMap escapeChar ++ '"' :: rest) =
      ((text.map pieceOf).reverse ++ pieces, rest) := by
  induction text generalizing pieces with
  | nil => rfl
  | cons c text ih =>
    rw [List.flatMap_cons, List.append_assoc, scanString_escapeChar, ih]
    simp

/-- The parts of a string are put together to the characters they came from. -/
theorem joinPieces_pieceOf (text before : List Char) :
    joinPieces before (text.map pieceOf) = .ok (before.reverse ++ text) := by
  induction text generalizing before with
  | nil => simp [joinPieces]
  | cons c text ih =>
    have joined : joinPieces before (pieceOf c :: text.map pieceOf) =
        joinPieces (c :: before) (text.map pieceOf) := by
      unfold pieceOf
      split
      · next control =>
        have low : ¬ (0xdc00 ≤ c.toNat ∧ c.toNat ≤ 0xdfff) := by omega
        have high : ¬ (0xd800 ≤ c.toNat ∧ c.toNat ≤ 0xdbff) := by omega
        rw [joinPieces.eq_def]
        simp only [if_neg low, if_neg high, Char.ofNat_toNat]
      · rw [joinPieces]
    rw [List.map_cons, joined, ih, List.reverse_cons, List.append_assoc, List.singleton_append]

/-- Nothing is wrong with the parts of an escaped text. -/
theorem scanFault?_pieceOf (text : List Char) : scanFault? (text.map pieceOf) = none := by
  cases text with
  | nil => rfl
  | cons c text =>
    rw [List.map_cons, pieceOf]
    split <;> rfl

/-- A string is read back up to its closing quote. -/
theorem readString_escaped (text : List Char) (rest : List Char) :
    readString (text.flatMap escapeChar ++ '"' :: rest) = .whole (.ok (String.ofList text)) rest := by
  unfold readString
  rw [scanString_escaped, List.append_nil]
  simp only [List.reverse_reverse, joinPieces_pieceOf, ← List.map_reverse, scanFault?_pieceOf]
  rfl

/-! ## Numbers -/

/-- What follows ends a number: it does not go on with a digit, a point or an exponent. -/
def EndsNumber (rest : List Char) : Prop :=
  ∀ c ∈ rest.head?, c.isDigit = false ∧ c ≠ '.' ∧ c ≠ 'e' ∧ c ≠ 'E'

/-- Digits end where the number ends. -/
theorem spanDigits_append_of_end {rest : List Char} (ends : EndsNumber rest) (text : List Char) :
    Decimal.spanDigits (text ++ rest) =
      ((Decimal.spanDigits text).1, (Decimal.spanDigits text).2 ++ rest) := by
  induction text with
  | nil => exact Decimal.spanDigits_append (by simp) fun c mem => (ends c mem).1
  | cons c text ih =>
    unfold Decimal.spanDigits at *
    by_cases digit : c.isDigit
    · simp_all
    · simp_all

/-- The digits of a fraction or an exponent are read the same way before other text. -/
theorem digits_append {α : Type} {text rest after : List Char} {x : α} (wrap : List Char → α)
    (ends : EndsNumber rest)
    (read : (if (Decimal.spanDigits text).1.isEmpty = true then
        .error (if (Decimal.spanDigits text).2.isEmpty = true then .endInValue else .invalidNumber)
      else .ok (wrap (Decimal.spanDigits text).1, (Decimal.spanDigits text).2) : Except Fault _) =
        .ok (x, after)) :
    (if (Decimal.spanDigits (text ++ rest)).1.isEmpty = true then
        .error (if (Decimal.spanDigits (text ++ rest)).2.isEmpty = true then .endInValue
          else .invalidNumber)
      else .ok (wrap (Decimal.spanDigits (text ++ rest)).1, (Decimal.spanDigits (text ++ rest)).2) :
        Except Fault _) = .ok (x, after ++ rest) := by
  rw [spanDigits_append_of_end ends]
  split at read
  · cases read
  · next some =>
    cases read
    rw [if_neg some]

theorem readFraction_of_end {rest : List Char} (ends : EndsNumber rest) :
    Numeral.readFraction rest = .ok (none, rest) := by
  cases rest with
  | nil => rfl
  | cons c rest =>
    have noPoint : c ≠ '.' := (ends c rfl).2.1
    rw [Numeral.readFraction]
    simp_all

/-- The digits behind the point are read the same if something else follows the number. -/
theorem readFraction_append {text rest after : List Char} {fraction : Option (List Char)}
    (ends : EndsNumber rest) (read : Numeral.readFraction text = .ok (fraction, after)) :
    Numeral.readFraction (text ++ rest) = .ok (fraction, after ++ rest) := by
  unfold Numeral.readFraction at read
  split at read
  · next digits =>
    exact digits_append _ ends read
  · next noPoint =>
    cases read
    cases text with
    | nil => exact readFraction_of_end ends
    | cons c text =>
      rw [List.cons_append, Numeral.readFraction]
      rintro after ⟨⟩
      exact noPoint _ rfl

theorem readExponent_of_end {rest : List Char} (ends : EndsNumber rest) :
    Numeral.readExponent rest = .ok (none, rest) := by
  cases rest with
  | nil => rfl
  | cons c rest =>
    have noMark : ¬ (c = 'e' ∨ c = 'E') := not_or.mpr (ends c rfl).2.2
    unfold Numeral.readExponent
    dsimp only
    rw [if_neg noMark]

/-- So is the exponent. -/
theorem readExponent_append {text rest after : List Char} {exponent : Option (Bool × List Char)}
    (ends : EndsNumber rest) (read : Numeral.readExponent text = .ok (exponent, after)) :
    Numeral.readExponent (text ++ rest) = .ok (exponent, after ++ rest) := by
  cases text with
  | nil =>
    cases read
    exact readExponent_of_end ends
  | cons mark text =>
    rw [List.cons_append]
    unfold Numeral.readExponent at read ⊢
    dsimp only at read ⊢
    split at read
    · next isMark =>
      rw [if_pos isMark]
      cases text with
      | nil => cases read
      | cons d text =>
        rw [List.cons_append]
        split at read
        · next shape =>
          cases shape
          exact digits_append (fun found => some (true, found)) ends read
        · next shape =>
          cases shape
          exact digits_append (fun found => some (false, found)) ends read
        · next minus plus =>
          split
          · next shape =>
            cases shape
            exact (minus _ rfl).elim
          · next shape =>
            cases shape
            exact (plus _ rfl).elim
          · exact digits_append (fun found => some (false, found)) ends read
    · next noMark =>
      cases read
      rw [if_neg noMark]
      rfl

/-- A number that is read up to the end of a text is read the same way before other text. -/
theorem numeral_read_append {negative : Bool} {text rest after : List Char} {n : Numeral}
    (ends : EndsNumber rest) (read : Numeral.read negative text = .ok (n, after)) :
    Numeral.read negative (text ++ rest) = .ok (n, after ++ rest) := by
  unfold Numeral.read at read ⊢
  rw [spanDigits_append_of_end ends]
  generalize Decimal.spanDigits text = split at *
  obtain ⟨whole, tail⟩ := split
  dsimp only at read ⊢
  split at read
  · cases read
  · cases read
  · next proper padded =>
    cases fraction : Numeral.readFraction tail with
    | error f =>
      rw [fraction] at read
      cases read
    | ok found =>
      obtain ⟨digits, tail'⟩ := found
      rw [fraction] at read
      cases exponent : Numeral.readExponent tail' with
      | error f =>
        simp only [bind, Except.bind, exponent] at read
        cases read
      | ok found =>
        obtain ⟨power, tail''⟩ := found
        simp only [bind, Except.bind, exponent] at read
        cases read
        simp only [bind, Except.bind, readFraction_append ends fraction,
          readExponent_append ends exponent]
        rfl

/-- A number is read the same whatever follows it, as long as that ends a number. -/
theorem readNumber_append {negative : Bool} {text rest : List Char} {value : Json}
    (ends : EndsNumber rest) (read : Draft.readNumber negative text = (.leaf value, [])) :
    Draft.readNumber negative (text ++ rest) = (.leaf value, rest) := by
  unfold Draft.readNumber at read ⊢
  cases found : Numeral.read negative text with
  | error f =>
    rw [found] at read
    cases read
  | ok pair =>
    obtain ⟨n, after⟩ := pair
    rw [found] at read
    rw [numeral_read_append ends found]
    dsimp only at read ⊢
    split at read
    · cases read
      rfl
    · cases read

/-- Leading blanks are skipped the same whatever follows. -/
theorem skipSpace_append {text found : List Char} {c : Char} (read : skipSpace text = c :: found)
    (rest : List Char) : skipSpace (text ++ rest) = c :: (found ++ rest) := by
  unfold skipSpace at *
  rw [List.dropWhile_append, read]
  rfl

/-- The value is a number. -/
def IsNumber : Json → Prop
  | .int _ | .float _ => True
  | _ => False

/-- Only the whole word stands for its value. -/
theorem readWord_eq {value found : Json} {word text rest : List Char}
    (read : Draft.readWord value word text = (.leaf found, rest)) : found = value := by
  fun_induction Draft.readWord value word text with
  | case1 text =>
    cases read
    rfl
  | case2 => cases read
  | case3 expected word text ih => exact ih read
  | case4 => cases read

/-- A value that begins with a minus sign is a number. -/
theorem readValue_of_minus {text tail : List Char} (found : skipSpace text = '-' :: tail) (fuel : Nat) :
    Draft.readValue (fuel + 1) text = Draft.readNumber true tail := by
  rw [Draft.readValue, found]
  rfl

/-- So is one that begins with a digit. -/
theorem readValue_of_digit {text tail : List Char} {c : Char} (found : skipSpace text = c :: tail)
    (digit : c.isDigit = true) (fuel : Nat) :
    Draft.readValue (fuel + 1) text = Draft.readNumber false (c :: tail) := by
  have other {d : Char} (noDigit : d.isDigit = false) : c ≠ d := by
    rintro rfl
    simp [digit] at noDigit
  rw [Draft.readValue, found]
  simp only [other (show 'n'.isDigit = false by decide), other (show 't'.isDigit = false by decide),
    other (show 'f'.isDigit = false by decide), other (show '-'.isDigit = false by decide), digit,
    if_true, if_false]

/-- A number begins with a minus sign or a digit. -/
theorem starts_number {text tail rest : List Char} {c : Char} {value : Json} (number : IsNumber value)
    (found : skipSpace text = c :: tail) (read : Draft.readValue 1 text = (.leaf value, rest)) :
    c = '-' ∨ c.isDigit = true := by
  by_contra neither
  obtain ⟨noMinus, noDigit⟩ := not_or.mp neither
  rw [Draft.readValue, found] at read
  simp only [if_neg noMinus, if_neg noDigit] at read
  split at read
  · exact (readWord_eq read ▸ number : IsNumber .null).elim
  split at read
  · exact (readWord_eq read ▸ number : IsNumber (.bool true)).elim
  split at read
  · exact (readWord_eq read ▸ number : IsNumber (.bool false)).elim
  split at read
  · unfold Draft.readText at read
    split at read
    · cases read
      exact number.elim
    · cases read
    · cases read
  split at read
  · cases read
  split at read
  · cases read
  · cases read

/-- A number that is read up to the end of a text is read the same way before other text. -/
theorem readValue_number {text rest : List Char} {value : Json} (number : IsNumber value)
    (read : Draft.readValue 1 text = (.leaf value, [])) (ends : EndsNumber rest) (fuel : Nat) :
    Draft.readValue (fuel + 1) (text ++ rest) = (.leaf value, rest) := by
  cases found : skipSpace text with
  | nil =>
    rw [Draft.readValue, found] at read
    cases read
  | cons c tail =>
    have longer := skipSpace_append found rest
    obtain rfl | digit := starts_number number found read
    · rw [readValue_of_minus found] at read
      rw [readValue_of_minus longer]
      exact readNumber_append ends read
    · rw [readValue_of_digit found digit] at read
      rw [readValue_of_digit longer digit]
      exact readNumber_append ends read

/-- The digits of a whole number are read as a numeral without fraction and exponent. -/
theorem numeral_read_toDigits (negative : Bool) (n : Nat) :
    Numeral.read negative (Nat.toDigits 10 n) =
      .ok (⟨negative, Nat.toDigits 10 n, [], none, true⟩, []) := by
  have digits := Decimal.isDigits_toDigits n
  have whole : Decimal.spanDigits (Nat.toDigits 10 n) = (Nat.toDigits 10 n, []) := by
    have split := @Decimal.spanDigits_append _ [] digits.isDigit (by simp)
    rwa [List.append_nil] at split
  unfold Numeral.read
  rw [whole]
  dsimp only
  split
  · next none => exact (digits.nonempty none).elim
  · next c more padded =>
    have leads : (Nat.toDigits 10 n).head? = some '0' := by rw [padded]; rfl
    obtain rfl | positive := Nat.eq_zero_or_pos n
    · cases padded
    · exact (Decimal.head_toDigits_ne_zero positive leads).elim
  · rfl

/-- A whole number of at most 64 bits is read from its digits. -/
theorem readValue_digits {n : Nat} (small : n < 2 ^ 64) :
    Draft.readValue 1 (Nat.toDigits 10 n) = (.leaf (.int n), []) := by
  obtain ⟨c, rest, shape, digit⟩ := (Decimal.isDigits_toDigits n).exists_cons
  have solid : skipSpace (c :: rest) = c :: rest := by
    have noSpace : isSpace c = false := by
      rw [← Bool.not_eq_true]
      intro space
      simp only [isSpace, Bool.or_eq_true, beq_iff_eq] at space
      obtain ((rfl | rfl) | rfl) | rfl := space <;> cases digit
    simp [skipSpace, noSpace]
  have value : Numeral.value ⟨false, Nat.toDigits 10 n, [], none, true⟩ = .ok (.int n) := by
    simp only [Numeral.value, Decimal.natOfDigits_toDigits, small, decide_true, Bool.not_false,
      Bool.and_self, if_true]
  rw [shape, readValue_of_digit solid digit, ← shape, Draft.readNumber, numeral_read_toDigits]
  simp only [value]

/-- A negative one is read if it fits in a signed word. -/
theorem readValue_minus {n : Nat} (positive : 0 < n) (small : n ≤ 2 ^ 63) :
    Draft.readValue 1 ('-' :: Nat.toDigits 10 n) = (.leaf (.int (-(n : Int))), []) := by
  have value : Numeral.value ⟨true, Nat.toDigits 10 n, [], none, true⟩ = .ok (.int (-(n : Int))) := by
    simp only [Numeral.value, Decimal.natOfDigits_toDigits, positive, small, and_self, decide_true,
      Bool.not_true, Bool.and_false, Bool.false_and, Bool.and_self, Bool.false_eq_true, if_false,
      if_true]
  rw [readValue_of_minus rfl, Draft.readNumber, numeral_read_toDigits]
  simp only [value]

/-- A whole number of at most 64 bits is read back. -/
theorem readValue_int {n : Int} (small : -2 ^ 63 ≤ n ∧ n < 2 ^ 64) :
    Draft.readValue 1 (toString n).toList = (.leaf (.int n), []) := by
  cases n with
  | ofNat n =>
    have text : (toString (Int.ofNat n)).toList = Nat.toDigits 10 n := Nat.toList_repr
    rw [text]
    exact readValue_digits (by simp at small; omega)
  | negSucc n =>
    have text : (toString (Int.negSucc n)).toList = '-' :: Nat.toDigits 10 (n + 1) := by
      rw [← Nat.toList_repr]
      exact String.toList_append
    rw [text]
    exact readValue_minus (Nat.succ_pos n) (by omega)

/-! ## Values -/

mutual

/-- The draft of a value. -/
def Draft.ofJson : Json → Draft
  | .arr items => .arr (Draft.ofItems items) none
  | .obj fields => .obj (Draft.ofFields fields) none
  | .null => .leaf .null
  | .bool value => .leaf (.bool value)
  | .int value => .leaf (.int value)
  | .float value => .leaf (.float value)
  | .str value => .leaf (.str value)

/-- The drafts of the items of a list. -/
def Draft.ofItems : List Json → List Draft
  | [] => []
  | item :: rest => .ofJson item :: Draft.ofItems rest

/-- The drafts of the fields of an object. -/
def Draft.ofFields : List (String × Json) → List (Key × Draft)
  | [] => []
  | (key, value) :: rest => (.ok key, .ofJson value) :: Draft.ofFields rest

end

/-- The text is read as the draft of the value, up to its end. -/
def IsTextOf (text : String) (j : Json) : Prop :=
  Draft.ofText text = (.ofJson j, false)

/-- The text of a number is read as that number. -/
def ReadsBack (v : Double) : Prop :=
  Draft.readValue 1 v.json.toList = (.leaf (.float v), [])

mutual

/-- The numbers in a value are read back from their texts: the whole ones have at most 64 bits, and of the
others it is so. -/
def IsReadable : Json → Prop
  | .null | .bool _ | .str _ => True
  | .int value => -2 ^ 63 ≤ value ∧ value < 2 ^ 64
  | .float value => ReadsBack value
  | .arr items => itemsReadable items
  | .obj fields => fieldsReadable fields

/-- The numbers in the items of a list are read back. -/
def itemsReadable : List Json → Prop
  | [] => True
  | item :: rest => item.IsReadable ∧ itemsReadable rest

/-- The numbers in the fields of an object are read back. -/
def fieldsReadable : List (String × Json) → Prop
  | [] => True
  | (_, value) :: rest => value.IsReadable ∧ fieldsReadable rest

end

/-- Texts with a comma before each of them. -/
def commaBefore (texts : List String) : List Char :=
  texts.flatMap fun text => ',' :: text.toList

/-- Texts with commas between them. -/
def joined : List String → List Char
  | [] => []
  | text :: rest => text.toList ++ commaBefore rest

/-- Texts with commas between them, as characters. -/
theorem toList_intercalate (texts : List String) : (",".intercalate texts).toList = joined texts := by
  rw [String.toList_intercalate]
  cases texts with
  | nil => rfl
  | cons text rest =>
    rw [joined, commaBefore]
    induction rest generalizing text with
    | nil => simp
    | cons next rest ih => simpa using ih next

/-- The text of a list is that of its items with commas between them, in brackets. -/
theorem toList_arr (items : List Json) :
    (render (.arr items)).toList = '[' :: (joined (renderItems items) ++ [']']) := by
  rw [render, String.toList_append, String.toList_append, toList_intercalate]
  rfl

/-- The text of an object is that of its fields with commas between them, in braces. -/
theorem toList_obj (fields : List (String × Json)) :
    (render (.obj fields)).toList = '\x7b' :: (joined (renderFields fields) ++ ['\x7d']) := by
  rw [render, String.toList_append, String.toList_append, toList_intercalate]
  rfl

/-- The text of a string is its escaped characters between quotes. -/
theorem toList_quote (text : String) :
    (quote text).toList = '"' :: (text.toList.flatMap escapeChar ++ ['"']) := by
  rw [quote, String.toList_ofList]
  rfl

namespace Draft

/-- Blanks before a value do not matter. -/
theorem readValue_skipSpace (fuel : Nat) (text : List Char) :
    readValue fuel (skipSpace text) = readValue fuel text := by
  cases fuel with
  | zero => rfl
  | succ fuel =>
    have again : skipSpace (skipSpace text) = skipSpace text := List.dropWhile_idempotent _ text
    rw [readValue, readValue, again]

/-- The draft of a value is nowhere cut short. -/
theorem stop?_ofJson (j : Json) : (ofJson j).stop? = none := by
  cases j <;> rfl

/-- An item is read, and then the rest of the list. -/
theorem readItem_eq {fuel : Nat} {text rest after : List Char} {item : Draft} {items : List Draft}
    (value : readValue fuel text = (item, rest)) (whole : item.stop? = none)
    (more : readItems fuel false rest = (items, none, after)) :
    readItem (fuel + 1) text = (item :: items, none, after) := by
  rw [readItem, value]
  simp only [whole, more]

/-- The first item of a list stands right behind the bracket. -/
theorem readItems_first {fuel : Nat} {text found : List Char} {c : Char}
    (solid : skipSpace text = c :: found) (opens : c ≠ ']') :
    readItems (fuel + 1) true text = readItem fuel (skipSpace text) := by
  rw [readItems, solid]
  simp only [opens, if_false, if_true]

/-- Every other one stands behind a comma. -/
theorem readItems_next {fuel : Nat} {text found : List Char} {c : Char}
    (solid : skipSpace text = c :: found) (opens : c ≠ ']') :
    readItems (fuel + 1) false (',' :: text) = readItem fuel (skipSpace text) := by
  have comma : skipSpace (',' :: text) = ',' :: text := rfl
  rw [readItems, comma]
  simp only [solid, opens, if_false, if_true, Bool.false_eq_true, show ',' ≠ ']' by decide]

/-- The first field of an object begins with its key, right behind the brace. -/
theorem readFields_first (fuel : Nat) (key : String) (text : List Char) :
    readFields (fuel + 1) true ((quote key).toList ++ text) =
      readField fuel ((quote key).toList ++ text) := by
  rw [toList_quote]
  rfl

/-- Every other one stands behind a comma. -/
theorem readFields_next (fuel : Nat) (key : String) (text : List Char) :
    readFields (fuel + 1) false (',' :: ((quote key).toList ++ text)) =
      readField fuel ((quote key).toList ++ text) := by
  rw [toList_quote]
  rfl

/-- A key, a colon and a value are read, and then the rest of the object. -/
theorem readField_eq {fuel : Nat} {key : String} {text rest after : List Char} {value : Draft}
    {fields : List (Key × Draft)} (read : readValue fuel text = (value, rest))
    (whole : value.stop? = none) (more : readFields fuel false rest = (fields, none, after)) :
    readField (fuel + 1) ((quote key).toList ++ ':' :: text) =
      ((.ok key, value) :: fields, none, after) := by
  have keyText : readString (key.toList.flatMap escapeChar ++ '"' :: ':' :: text) =
      .whole (.ok key) (':' :: text) := by
    rw [readString_escaped, String.ofList_toList]
  have colon : skipSpace (':' :: text) = ':' :: text := rfl
  rw [toList_quote]
  simp only [List.cons_append, List.append_assoc, List.nil_append]
  rw [readField, keyText]
  simp only [colon, if_true, read, whole, more]

/-- What begins with a quote is read as a string. -/
theorem readValue_quote (fuel : Nat) (text : String) (rest : List Char) :
    readValue (fuel + 1) ((quote text).toList ++ rest) = (.leaf (.str text), rest) := by
  have read : readString (text.toList.flatMap escapeChar ++ '"' :: rest) = .whole (.ok text) rest := by
    rw [readString_escaped, String.ofList_toList]
  have dispatch : readValue (fuel + 1) ((quote text).toList ++ rest) =
      readText (text.toList.flatMap escapeChar ++ '"' :: rest) := by
    rw [toList_quote]
    simp only [List.cons_append, List.append_assoc, List.nil_append]
    rfl
  rw [dispatch, readText, read]

/-- What begins with a bracket is read as a list. -/
theorem readValue_bracket {fuel : Nat} {text rest : List Char} {items : List Draft}
    (read : readItems fuel true text = (items, none, rest)) :
    readValue (fuel + 1) ('[' :: text) = (.arr items none, rest) := by
  have dispatch : readValue (fuel + 1) ('[' :: text) = (.arr (readItems fuel true text).1
      (readItems fuel true text).2.1, (readItems fuel true text).2.2) := rfl
  rw [dispatch, read]

/-- What begins with a brace is read as an object. -/
theorem readValue_brace {fuel : Nat} {text rest : List Char} {fields : List (Key × Draft)}
    (read : readFields fuel true text = (fields, none, rest)) :
    readValue (fuel + 1) ('\x7b' :: text) = (.obj fields none, rest) := by
  have dispatch : readValue (fuel + 1) ('\x7b' :: text) = (.obj (readFields fuel true text).1
      (readFields fuel true text).2.1, (readFields fuel true text).2.2) := rfl
  rw [dispatch, read]

/-- What is read as a value does not begin with the end of a list. -/
theorem starts_of_readValue {text rest : List Char} {value : Json}
    (read : readValue 1 text = (.leaf value, rest)) :
    ∃ c found, skipSpace text = c :: found ∧ c ≠ ']' := by
  cases found : skipSpace text with
  | nil =>
    rw [readValue, found] at read
    cases read
  | cons c tail =>
    refine ⟨c, tail, rfl, ?_⟩
    rintro rfl
    rw [readValue, found] at read
    cases read

/-- The text of a value begins with some character, and not with the end of a list. -/
theorem starts_render {j : Json} (readable : j.IsReadable) :
    ∃ c found, skipSpace j.render.toList = c :: found ∧ c ≠ ']' := by
  cases j with
  | null => exact ⟨'n', ['u', 'l', 'l'], rfl, by decide⟩
  | bool value => cases value <;> exact ⟨_, _, rfl, by decide⟩
  | int value => exact starts_of_readValue (readValue_int readable)
  | float value => exact starts_of_readValue readable
  | str value =>
    rw [render, toList_quote]
    exact ⟨_, _, rfl, by decide⟩
  | arr items =>
    rw [toList_arr]
    exact ⟨_, _, rfl, by decide⟩
  | obj fields =>
    rw [toList_obj]
    exact ⟨_, _, rfl, by decide⟩

/-- A comma and the end of a list or an object end a number. -/
theorem endsNumber_cons {c : Char} (rest : List Char)
    (mark : c = ',' ∨ c = ']' ∨ c = '\x7d') : EndsNumber (c :: rest) := by
  rintro _ ⟨⟩
  obtain rfl | rfl | rfl := mark <;> decide

/-- So a number in a list ends where its text ends. -/
theorem endsNumber_commaBefore (texts : List String) {c : Char} (rest : List Char)
    (mark : c = ']' ∨ c = '\x7d') : EndsNumber (commaBefore texts ++ c :: rest) := by
  cases texts with
  | nil => exact endsNumber_cons rest (.inr mark)
  | cons text texts => exact endsNumber_cons _ (.inl rfl)

theorem commaBefore_cons (text : String) (texts : List String) :
    commaBefore (text :: texts) = ',' :: (text.toList ++ commaBefore texts) := rfl

theorem toList_arr_cons (item : Json) (more : List Json) :
    (render (.arr (item :: more))).toList =
      '[' :: (item.render.toList ++ (commaBefore (renderItems more) ++ [']'])) := by
  rw [toList_arr, renderItems, joined, List.append_assoc]

theorem toList_obj_cons (key : String) (value : Json) (more : List (String × Json)) :
    (render (.obj ((key, value) :: more))).toList = '\x7b' :: ((quote key).toList ++
      ':' :: (value.render.toList ++ (commaBefore (renderFields more) ++ ['\x7d']))) := by
  rw [toList_obj, renderFields, joined, String.toList_append, String.toList_append]
  simp [commaBefore]

mutual

/-- The text of a value is read as its draft, and three steps for each of its characters are enough. -/
theorem readValue_render : (j : Json) → j.IsReadable → ∀ {fuel : Nat} {rest : List Char},
    EndsNumber rest → 3 * j.render.toList.length ≤ fuel + 1 →
      readValue (fuel + 1) (j.render.toList ++ rest) = (ofJson j, rest)
  -- Only the value is matched on, since matching on what is known of its text would unfold the text.
  | .null => by intros; rfl
  | .bool true => by intros; rfl
  | .bool false => by intros; rfl
  | .int _ => by
    intro readable fuel _ ends _
    exact readValue_number (by trivial) (readValue_int readable) ends fuel
  | .float _ => by
    intro readable fuel _ ends _
    exact readValue_number (by trivial) readable ends fuel
  | .str value => by
    intros
    rw [render, readValue_quote]
    rfl
  | .arr [] => by
    intro _ fuel rest _ enough
    have length : (render (.arr [])).toList.length = 2 := rfl
    obtain ⟨fuel, rfl⟩ : ∃ less, fuel = less + 1 := ⟨fuel - 1, by omega⟩
    rfl
  | .arr (item :: more) => by
    intro readable fuel rest _ enough
    rw [toList_arr_cons] at enough ⊢
    simp only [List.length_cons, List.length_append, List.length_nil] at enough
    obtain ⟨fuel, rfl⟩ : ∃ less, fuel = less + 3 := ⟨fuel - 3, by omega⟩
    obtain ⟨c, found, solid, opens⟩ := starts_render readable.1
    let after := commaBefore (renderItems more) ++ ']' :: rest
    have value : readValue (fuel + 1) (item.render.toList ++ after) = (ofJson item, after) :=
      readValue_render item readable.1 (endsNumber_commaBefore _ _ (.inl rfl)) (by omega)
    have others : readItems (fuel + 1) false after = (ofItems more, none, rest) :=
      readItems_render more readable.2 (by omega)
    simp only [List.cons_append, List.append_assoc, List.nil_append]
    refine readValue_bracket ?_
    rw [readItems_first (skipSpace_append solid after) opens]
    exact readItem_eq ((readValue_skipSpace _ _).trans value) (stop?_ofJson item) others
  | .obj [] => by
    intro _ fuel rest _ enough
    have length : (render (.obj [])).toList.length = 2 := rfl
    obtain ⟨fuel, rfl⟩ : ∃ less, fuel = less + 1 := ⟨fuel - 1, by omega⟩
    rfl
  | .obj ((key, value) :: more) => by
    intro readable fuel rest _ enough
    rw [toList_obj_cons] at enough ⊢
    simp only [List.length_cons, List.length_append, List.length_nil] at enough
    obtain ⟨fuel, rfl⟩ : ∃ less, fuel = less + 3 := ⟨fuel - 3, by omega⟩
    let after := commaBefore (renderFields more) ++ '\x7d' :: rest
    have first : readValue (fuel + 1) (value.render.toList ++ after) = (ofJson value, after) :=
      readValue_render value readable.1 (endsNumber_commaBefore _ _ (.inr rfl)) (by omega)
    have others : readFields (fuel + 1) false after = (ofFields more, none, rest) :=
      readFields_render more readable.2 (by omega)
    simp only [List.cons_append, List.append_assoc, List.nil_append]
    refine readValue_brace ?_
    rw [readFields_first]
    exact readField_eq first (stop?_ofJson value) others

theorem readItems_render : (items : List Json) → itemsReadable items →
    ∀ {fuel : Nat} {rest : List Char}, 3 * ((commaBefore (renderItems items)).length + 1) ≤ fuel + 1 →
      readItems (fuel + 1) false (commaBefore (renderItems items) ++ ']' :: rest) =
        (ofItems items, none, rest)
  | [] => by intros; rfl
  | item :: more => by
    intro readable fuel rest enough
    rw [renderItems, commaBefore_cons] at enough ⊢
    simp only [List.length_cons, List.length_append] at enough
    obtain ⟨fuel, rfl⟩ : ∃ less, fuel = less + 2 := ⟨fuel - 2, by omega⟩
    obtain ⟨c, found, solid, opens⟩ := starts_render readable.1
    let after := commaBefore (renderItems more) ++ ']' :: rest
    have value : readValue (fuel + 1) (item.render.toList ++ after) = (ofJson item, after) :=
      readValue_render item readable.1 (endsNumber_commaBefore _ _ (.inl rfl)) (by omega)
    have others : readItems (fuel + 1) false after = (ofItems more, none, rest) :=
      readItems_render more readable.2 (by omega)
    simp only [List.cons_append, List.append_assoc]
    rw [readItems_next (skipSpace_append solid after) opens]
    exact readItem_eq ((readValue_skipSpace _ _).trans value) (stop?_ofJson item) others

theorem readFields_render : (fields : List (String × Json)) → fieldsReadable fields →
    ∀ {fuel : Nat} {rest : List Char}, 3 * ((commaBefore (renderFields fields)).length + 1) ≤ fuel + 1 →
      readFields (fuel + 1) false (commaBefore (renderFields fields) ++ '\x7d' :: rest) =
        (ofFields fields, none, rest)
  | [] => by intros; rfl
  | (key, value) :: more => by
    intro readable fuel rest enough
    rw [renderFields, commaBefore_cons, String.toList_append, String.toList_append] at enough ⊢
    simp only [List.length_cons, List.length_append] at enough
    obtain ⟨fuel, rfl⟩ : ∃ less, fuel = less + 2 := ⟨fuel - 2, by omega⟩
    let after := commaBefore (renderFields more) ++ '\x7d' :: rest
    have first : readValue (fuel + 1) (value.render.toList ++ after) = (ofJson value, after) :=
      readValue_render value readable.1 (endsNumber_commaBefore _ _ (.inr rfl)) (by omega)
    have others : readFields (fuel + 1) false after = (ofFields more, none, rest) :=
      readFields_render more readable.2 (by omega)
    simp only [List.cons_append, List.append_assoc]
    rw [readFields_next]
    exact readField_eq first (stop?_ofJson value) others

end

/-- The usual text of a value is one of its texts. -/
theorem isTextOf_render {j : Json} (readable : j.IsReadable) : IsTextOf j.render j := by
  have read : readValue (3 * j.render.toList.length + 3) (j.render.toList ++ []) = (ofJson j, []) :=
    readValue_render j readable (by rintro _ ⟨⟩) (by omega)
  rw [List.append_nil] at read
  rw [IsTextOf, ofText, read]
  rfl

end Draft

end Minifier.Json
