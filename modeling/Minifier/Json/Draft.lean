import Minifier.Json.Numeral

/-!
# Reading JSON texts

A text is read into a *draft*, a tree that holds all of the text up to the place where it stops
making sense, and the fault at that place. A decoder that walks the draft from left to right meets
faults of the text and faults of its content in the order in which a reader of the text meets them.
`Draft.settle` takes a draft in whole: it gives the value, or the first fault in it.
`Draft.skipFault?` passes over a draft that nobody wants, and is less strict about its tokens.
-/

namespace Minifier.Json

-- Sums begin with the zero of the core library, whatever algebra is in scope.
attribute [local instance (2000)] Zero.ofOfNat0

/-- Why a text cannot be read on: the fault for a reader who wants the value, and the fault for one
who passes over it. -/
structure Stop where
  wanted : Fault
  skipped : Fault
deriving DecidableEq, Repr

/-- A fault that is the same for both. -/
def Stop.both (fault : Fault) : Stop := ⟨fault, fault⟩

/-- The key of a field, or the fault in it. -/
abbrev Key := Except Fault String

/-- Whether a key is the given name. -/
def Key.isName (key : Key) (name : String) : Bool :=
  match key with
  | .ok text => text == name
  | .error _ => false

/-- How a value begins: like a string, like a number or a word, or not at all. -/
inductive Lead
  | text
  | plain
  | absent
deriving DecidableEq, Repr

/-- A JSON text as far as it could be read. `leaf` holds a value without parts. `unfit` is a token
that has no value though it is well formed, and `broken` the place where the text stops making
sense; both tell how the value begins. A list or an object that has no proper end holds the reason
as its `cut`. -/
inductive Draft
  | leaf (value : Json)
  | unfit (lead : Lead) (fault : Fault)
  | broken (lead : Lead) (stop : Stop)
  | arr (items : List Draft) (cut : Option Stop)
  | obj (fields : List (Key × Draft)) (cut : Option Stop)

/-- Whether a character may stand between the tokens of a JSON text. -/
def isSpace (c : Char) : Bool :=
  c == ' ' || c == '\t' || c == '\n' || c == '\r'

/-- A text from its first character that is not blank. -/
def skipSpace (text : List Char) : List Char :=
  text.dropWhile isSpace

/-! ## Strings -/

/-- A part of a string: a character, a code unit written in hexadecimal, the end of the text or a
bad code unit, or something else that may not stand there. -/
inductive Piece
  | char (c : Char)
  | unit (n : Nat)
  | broken (fault : Fault)
  | stray (fault : Fault)

/-- The character that a backslash and a letter stand for. -/
def shortEscape? (c : Char) : Option Char :=
  match c with
  | '"' => some '"'
  | '\\' => some '\\'
  | '/' => some '/'
  | 'b' => some '\x08'
  | 'f' => some '\x0c'
  | 'n' => some '\n'
  | 'r' => some '\r'
  | 't' => some '\t'
  | _ => none

/-- Why four hexadecimal digits could not be read: the text ends within four bytes, or some
character is no such digit. -/
def hexFault (rest : List Char) : Fault :=
  if ((rest.take 4).map Char.utf8Size).sum < 4 then .endInString else .invalidEscape

/-- Splits a text after an opening quote into the parts of the string, last one first, and what
follows the closing quote. Without a closing quote the last part is a fault. -/
def scanString (pieces : List Piece) : List Char → List Piece × List Char
  | [] => (.broken .endInString :: pieces, [])
  | ['\\'] => (.broken .endInString :: pieces, [])
  | '\\' :: 'u' :: a :: b :: c :: d :: rest =>
    if [a, b, c, d].all (Text.isDigitIn 16) then
      scanString (.unit (Text.natInBase 16 [a, b, c, d]) :: pieces) rest
    else (.broken (hexFault [a, b, c, d]) :: pieces, [])
  | '\\' :: 'u' :: rest => (.broken (hexFault rest) :: pieces, [])
  | '\\' :: c :: rest =>
    match shortEscape? c with
    | some e => scanString (.char e :: pieces) rest
    | none => (.stray .invalidEscape :: pieces, [])
  | c :: rest =>
    if c = '"' then (pieces, rest)
    else if c.toNat < 0x20 then (.stray .controlCharacter :: pieces, [])
    else scanString (.char c :: pieces) rest

/-- The fault at which the scan of a string stopped, given its parts, last one first. -/
def scanFault? : List Piece → Option Fault
  | .broken f :: _ => some f
  | .stray f :: _ => some f
  | _ => none

/-- Joins the parts of a string, code units to characters. A leading surrogate must be followed by a
trailing one, written in hexadecimal too. -/
def joinPieces (text : List Char) : List Piece → Except Fault (List Char)
  | [] => .ok text.reverse
  | .char c :: rest => joinPieces (c :: text) rest
  | .broken f :: _ => .error f
  | .stray f :: _ => .error f
  | .unit n :: rest =>
    if 0xdc00 ≤ n ∧ n ≤ 0xdfff then .error .loneSurrogate
    else if 0xd800 ≤ n ∧ n ≤ 0xdbff then
      match rest with
      | .unit m :: rest =>
        if 0xdc00 ≤ m ∧ m ≤ 0xdfff then
          joinPieces (.ofNat ((n - 0xd800) * 0x400 + (m - 0xdc00) + 0x10000) :: text) rest
        else .error .loneSurrogate
      | .broken f :: _ => .error f
      | _ => .error .unexpectedEscapeEnd
    else joinPieces (.ofNat n :: text) rest

/-- A string that has been read. The text can be read on if the string has an end, even if it has no
value. -/
inductive Reading
  | whole (text : Key) (rest : List Char)
  | broken (stop : Stop)

/-- Reads a string after its opening quote. Code units are joined to characters only where the
string is wanted. -/
def readString (text : List Char) : Reading :=
  let (pieces, rest) := scanString [] text
  let joined := joinPieces [] pieces.reverse
  match scanFault? pieces, joined with
  | none, _ => .whole (joined.map String.ofList) rest
  | some f, .error first => .broken ⟨first, f⟩
  | some f, .ok _ => .broken (.both f)

/-! ## Values -/

namespace Draft

/-- Where the reading of a draft stopped, if it did. -/
def stop? : Draft → Option Stop
  | .broken _ stop => some stop
  | .arr _ cut => cut
  | .obj _ cut => cut
  | _ => none

/-- Reads the rest of a word whose value is known from its first letter. -/
def readWord (value : Json) : List Char → List Char → Draft × List Char
  | [], text => (.leaf value, text)
  | _ :: _, [] => (.broken .plain (.both .endInValue), [])
  | expected :: word, c :: text =>
    if c = expected then readWord value word text
    else (.broken .plain (.both .expectedWord), [])

/-- Reads a number after its sign. Who passes over a number does not tell its end from a wrong
character. -/
def readNumber (negative : Bool) (text : List Char) : Draft × List Char :=
  match Numeral.read negative text with
  | .error f => (.broken .plain ⟨f, .invalidNumber⟩, [])
  | .ok (n, rest) =>
    match n.value with
    | .ok value => (.leaf value, rest)
    | .error f => (.unfit .plain f, rest)

/-- Reads a string after its opening quote. -/
def readText (text : List Char) : Draft × List Char :=
  match readString text with
  | .whole (.ok value) rest => (.leaf (.str value), rest)
  | .whole (.error f) rest => (.unfit .text f, rest)
  | .broken stop => (.broken .text stop, [])

mutual

/-- Reads a value. At most three steps are taken for each character, so three times the length of
the text is fuel enough. -/
def readValue : Nat → List Char → Draft × List Char
  | 0, _ => (.broken .absent (.both .endInValue), [])
  | fuel + 1, text =>
    match skipSpace text with
    | [] => (.broken .absent (.both .endInValue), [])
    | c :: rest =>
      if c = 'n' then readWord .null ['u', 'l', 'l'] rest
      else if c = 't' then readWord (.bool true) ['r', 'u', 'e'] rest
      else if c = 'f' then readWord (.bool false) ['a', 'l', 's', 'e'] rest
      else if c = '-' then readNumber true rest
      else if c.isDigit then readNumber false (c :: rest)
      else if c = '"' then readText rest
      else if c = '[' then
        let (items, cut, rest) := readItems fuel true rest
        (.arr items cut, rest)
      else if c = '\x7b' then
        let (fields, cut, rest) := readFields fuel true rest
        (.obj fields cut, rest)
      else (.broken .absent (.both .expectedValue), [])

/-- Reads the items of a list up to its end, or up to where it is cut off. -/
def readItems : Nat → Bool → List Char → List Draft × Option Stop × List Char
  | 0, _, _ => ([], some (.both .endInList), [])
  | fuel + 1, isFirst, text =>
    match skipSpace text with
    | [] => ([], some (.both .endInList), [])
    | c :: rest =>
      if c = ']' then ([], none, rest)
      else if isFirst then readItem fuel (c :: rest)
      else if c = ',' then
        match skipSpace rest with
        | [] => ([], some (.both .endInValue), [])
        | d :: rest =>
          if d = ']' then ([], some ⟨.trailingComma, .expectedValue⟩, [])
          else readItem fuel (d :: rest)
      else ([], some (.both .expectedListEnd), [])

/-- Reads an item of a list and those after it. -/
def readItem : Nat → List Char → List Draft × Option Stop × List Char
  | 0, _ => ([], some (.both .endInList), [])
  | fuel + 1, text =>
    let (item, rest) := readValue fuel text
    match item.stop? with
    | some stop => ([item], some stop, [])
    | none =>
      let (items, cut, rest) := readItems fuel false rest
      (item :: items, cut, rest)

/-- Reads the fields of an object up to its end, or up to where it is cut off. -/
def readFields : Nat → Bool → List Char → List (Key × Draft) × Option Stop × List Char
  | 0, _, _ => ([], some (.both .endInObject), [])
  | fuel + 1, isFirst, text =>
    match skipSpace text with
    | [] => ([], some (.both .endInObject), [])
    | c :: rest =>
      if c = '\x7d' then ([], none, rest)
      else if isFirst then readField fuel (c :: rest)
      else if c = ',' then
        match skipSpace rest with
        | [] => ([], some ⟨.endInValue, .endInObject⟩, [])
        | d :: rest =>
          if d = '\x7d' then ([], some ⟨.trailingComma, .keyNotString⟩, [])
          else readField fuel (d :: rest)
      else ([], some (.both .expectedObjectEnd), [])

/-- Reads a field of an object and those after it. A key that no value follows is kept with the
reason why there is none. -/
def readField : Nat → List Char → List (Key × Draft) × Option Stop × List Char
  | 0, _ => ([], some (.both .endInObject), [])
  | fuel + 1, text =>
    match text with
    | '"' :: rest =>
      match readString rest with
      | .broken stop => ([], some stop, [])
      | .whole key rest =>
        let (value, rest) : Draft × List Char := match skipSpace rest with
          | [] => (.broken .absent (.both .endInObject), [])
          | c :: rest =>
            if c = ':' then readValue fuel rest
            else (.broken .absent (.both .expectedColon), [])
        match value.stop? with
        | some stop => ([(key, value)], some stop, [])
        | none =>
          let (fields, cut, rest) := readFields fuel false rest
          ((key, value) :: fields, cut, rest)
    | _ => ([], some (.both .keyNotString), [])

end

/-- Reads a text: the draft of its value, and whether anything but blanks follows. -/
def ofText (text : String) : Draft × Bool :=
  let chars := text.toList
  let (draft, rest) := readValue (3 * chars.length + 3) chars
  (draft, !(skipSpace rest).isEmpty)

/-! ## Taking drafts in -/

/-- The number of lists and objects that may be nested. -/
def nestLimit : Nat := 127

mutual

/-- The value of a draft in which at most `depth` lists and objects are nested, or its first
fault. -/
def settle : Nat → Draft → Except Fault Json
  | _, .leaf value => .ok value
  | _, .unfit _ f => .error f
  | _, .broken _ stop => .error stop.wanted
  | 0, .arr _ _ => .error .tooDeep
  | 0, .obj _ _ => .error .tooDeep
  | depth + 1, .arr items cut =>
    match settleItems depth items, cut with
    | .ok items, none => .ok (.arr items)
    | .ok _, some stop => .error stop.wanted
    | .error f, _ => .error f
  | depth + 1, .obj fields cut =>
    match settleFields depth fields, cut with
    | .ok fields, none => .ok (.obj fields)
    | .ok _, some stop => .error stop.wanted
    | .error f, _ => .error f

/-- The values of the items of a list. -/
def settleItems : Nat → List Draft → Except Fault (List Json)
  | _, [] => .ok []
  | depth, item :: rest =>
    match settle depth item with
    | .error f => .error f
    | .ok value => (settleItems depth rest).map (value :: ·)

/-- The keys and values of the fields of an object. -/
def settleFields : Nat → List (Key × Draft) → Except Fault (List (String × Json))
  | _, [] => .ok []
  | _, (.error f, _) :: _ => .error f
  | depth, (.ok key, item) :: rest =>
    match settle depth item with
    | .error f => .error f
    | .ok value => (settleFields depth rest).map ((key, value) :: ·)

end

/-- The value of a draft as far as its kind goes: lists and objects are not looked into. -/
def peek : Draft → Except Fault Json
  | .leaf value => .ok value
  | .unfit _ f => .error f
  | .broken _ stop => .error stop.wanted
  | .arr _ _ => .ok (.arr [])
  | .obj _ _ => .ok (.obj [])

mutual

/-- The first fault that is noticed in a draft nobody wants. Its tokens need not have a value, its
keys need not be texts, and it may be nested as deeply as it likes. -/
def skipFault? : Draft → Option Fault
  | .leaf _ => none
  | .unfit _ _ => none
  | .broken _ stop => some stop.skipped
  | .arr items cut => (itemsSkipFault? items).or (cut.map Stop.skipped)
  | .obj fields cut => (fieldsSkipFault? fields).or (cut.map Stop.skipped)

/-- The first fault that is noticed among items nobody wants. -/
def itemsSkipFault? : List Draft → Option Fault
  | [] => none
  | item :: rest => (skipFault? item).or (itemsSkipFault? rest)

/-- The first fault that is noticed among fields nobody wants. -/
def fieldsSkipFault? : List (Key × Draft) → Option Fault
  | [] => none
  | (_, item) :: rest => (skipFault? item).or (fieldsSkipFault? rest)

end

end Draft

end Minifier.Json
