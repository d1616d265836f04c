import Minifier.Json.Draft

/-!
# Decoding records

A record is written as an object or as the list of its fields in order. `Record` describes its
fields, and the records can be read from values (`Record.ofJson`) and straight from drafts
(`Record.ofDraft`).

Of several errors the first in reading order is reported. Each error therefore comes with its rank,
the number of fields read before it. That a field is missing shows only at the end of the object.
-/

namespace Minifier.Json

/-- Why JSON does not decode. -/
inductive DecodeError
  | text (fault : Fault)
  | missingField (name : String)
  | duplicateField (name : String)
  | unknownVariant (name : String) (known : List String)
  | invalidType (got want : String)
  | invalidValue (got want : String)
  | invalidLength (length : Nat) (want : String)
  | numberLiteral (literal : String)
  | notNumber
deriving DecidableEq, Repr

/-- Names in backquotes, two with `or` between them, and more as a list. -/
def oneOf : List String → String
  | [] => "there are no variants"
  | [a] => s!"expected `{a}`"
  | [a, b] => s!"expected `{a}` or `{b}`"
  | names => "expected one of " ++ ", ".intercalate (names.map fun name => s!"`{name}`")

/-- The wording of an error. -/
def DecodeError.message : DecodeError → String
  | .text fault => fault.message
  | .missingField name => s!"missing field `{name}`"
  | .duplicateField name => s!"duplicate field `{name}`"
  | .unknownVariant name known => s!"unknown variant `{name}`, {oneOf known}"
  | .invalidType got want => s!"invalid type: {got}, expected {want}"
  | .invalidValue got want => s!"invalid value: {got}, expected {want}"
  | .invalidLength length want => s!"invalid length {length}, expected {want}"
  | .numberLiteral literal => s!"invalid number literal `{literal}`"
  | .notNumber => "data did not match any variant of untagged enum Repr"

/-- A decoded value or the reason why there is none. -/
abbrev Decoded := Except DecodeError

/-- A count of elements in words. -/
def elements (n : Nat) : String :=
  if n = 1 then "1 element" else s!"{n} elements"

/-- The error for a value of the wrong kind. -/
def mismatch {α : Type} (got : Json) (want : String) : Decoded α :=
  .error (.invalidType got.describe want)

/-! ## Ranked results -/

/-- A value, or an error with its rank in reading order. -/
abbrev Ranked (α : Type) := Except (Nat × DecodeError) α

namespace Ranked

/-- Gives the errors of a result a rank. -/
def place {α : Type} (rank : Nat) (x : Decoded α) : Ranked α :=
  x.mapError fun e => (rank, e)

/-- Applies a function to an argument. If both fail the error of lower rank counts, the function's
on a tie. -/
def apply {α β : Type} : Ranked (α → β) → Ranked α → Ranked β
  | .ok f, .ok x => .ok (f x)
  | .ok _, .error e => .error e
  | .error e, .ok _ => .error e
  | .error e, .error d => .error (if d.1 < e.1 then d else e)

/-- A result without the ranks. -/
def forget {α : Type} (x : Ranked α) : Decoded α :=
  x.mapError (·.2)

end Ranked

/-! ## Records -/

/-- The parts of a written record. -/
inductive Parts (V : Type)
  | items (values : List V)
  | fields (values : List (Key × V))

/-- The first value under a key with its rank, and the rank of the second one. -/
def locate {V : Type} (name : String) : Nat → List (Key × V) → Option (Nat × V × Option Nat)
  | _, [] => none
  | rank, (key, value) :: rest =>
    if key.isName name then
      some (rank, value, (rest.findIdx? fun field => field.1.isName name).map (rank + 1 + ·))
    else locate name (rank + 1) rest

/-- The fields of an object, whose keys are texts. -/
def Parts.ofFields {V : Type} (values : List (String × V)) : Parts V :=
  .fields (values.map fun field => (.ok field.1, field.2))

/-- What messages call a record, and whether it may be written as an object. -/
structure Shape where
  kind : String
  name : String
  keyed : Bool
deriving DecidableEq, Repr

/-- A record that may be written as an object or as a list. -/
def Shape.record (name : String) : Shape := ⟨"struct", name, true⟩

/-- A record that is always written as a list. -/
def Shape.tuple (name : String) : Shape := ⟨"tuple struct", name, false⟩

/-- The shape in messages. -/
def Shape.want (shape : Shape) : String := s!"{shape.kind} {shape.name}"

/-- How the fields of a record are read: their names in order, and a reader that is told the error
for a list that ends before an element and the index of its own first element. -/
structure Record (V α : Type) where
  names : List String
  read : (Nat → DecodeError) → Nat → Parts V → Ranked α

namespace Record

variable {V α β : Type}

/-- A record without fields. -/
def pure (x : α) : Record V α :=
  ⟨[], fun _ _ _ => .ok x⟩

/-- A record with further fields behind those of another. -/
def seq (f : Record V (α → β)) (x : Record V α) : Record V β :=
  ⟨f.names ++ x.names, fun short start parts =>
    Ranked.apply (f.read short start parts) (x.read short (start + f.names.length) parts)⟩

instance : Functor (Record V) where
  map f x := (pure f).seq x

instance : Seq (Record V) where
  seq f x := f.seq (x ())

/-- A field that takes the values `ofKeys` and `ofItems` when it is absent from an object and from a
list; without such a value it must be present. -/
def fieldWith (name : String) (ofKeys ofItems : Option α) (f : V → Decoded α) : Record V α :=
  ⟨[name], fun short start parts =>
    match parts with
    | .items values =>
      match values[start]?, ofItems with
      | some value, _ => Ranked.place start (f value)
      | none, some x => .ok x
      | none, none => .error (start, short start)
    | .fields values =>
      match locate name 0 values with
      | some (rank, value, none) => Ranked.place rank (f value)
      | some (rank, value, some second) =>
        match f value with
        | .error e => .error (rank, e)
        | .ok _ => .error (second, .duplicateField name)
      | none =>
        match ofKeys with
        | some x => .ok x
        | none => .error (values.length + 1, .missingField name)⟩

/-- A field that must be present. -/
def required (name : String) (f : V → Decoded α) : Record V α :=
  fieldWith name none none f

/-- A field that may be absent from an object. -/
def optional (name : String) (f : V → Decoded (Option α)) : Record V (Option α) :=
  fieldWith name (some none) none f

/-- A field with a default. -/
def defaulted (name : String) (x : α) (f : V → Decoded α) : Record V α :=
  fieldWith name (some x) (some x) f

/-- The error for a list that ends before the element of this index. -/
def short (shape : Shape) (r : Record V α) (index : Nat) : DecodeError :=
  .invalidLength index s!"{shape.want} with {elements r.names.length}"

/-- Decodes a record from a value. Keys that name no field are ignored. -/
def ofJson (shape : Shape) (r : Record Json α) (value : Json) : Decoded α :=
  match value, shape.keyed with
  | .arr items, _ =>
    match Ranked.forget (r.read (r.short shape) 0 (.items items)) with
    | .error e => .error e
    | .ok x =>
      if r.names.length < items.length then
        .error (.invalidLength items.length s!"{elements r.names.length} in sequence")
      else .ok x
  | .obj fields, true => Ranked.forget (r.read (r.short shape) 0 (.ofFields fields))
  | other, _ => mismatch other shape.want

/-- The ranked faults of keys, of the fields that nobody wants, and of the end of the object. -/
def unwanted (names : List String) (cut : Option Stop) :
    Nat → List (Key × Draft) → Ranked Unit
  | rank, [] =>
    match cut with
    | some stop => .error (rank, .text stop.wanted)
    | none => .ok ()
  | rank, (.error f, _) :: _ => .error (rank, .text f)
  | rank, (.ok key, value) :: rest =>
    match if names.contains key then none else value.skipFault? with
    | some f => .error (rank, .text f)
    | none => unwanted names cut (rank + 1) rest

/-- What comes of a list of fixed length once its elements are read: it must end there. -/
def listEnd (length : Nat) (items : List Draft) (cut : Option Stop) : Decoded Unit :=
  if length < items.length then .error (.text .trailingCharacters)
  else match cut.map Stop.wanted with
    | none => .ok ()
    | some .trailingComma => .error (.text .trailingComma)
    | some .endInList => .error (.text .endInList)
    | some _ => .error (.text .trailingCharacters)

/-- Decodes a record straight from a draft, in the order of the text. -/
def ofDraft (shape : Shape) (r : Record Draft α) (draft : Draft) : Decoded α :=
  match draft, shape.keyed with
  | .arr items cut, _ =>
    let short := fun index => match cut with
      | some stop => .text stop.wanted
      | none => r.short shape index
    match Ranked.forget (r.read short 0 (.items items)) with
    | .error e => .error e
    | .ok x => (listEnd r.names.length items cut).map fun _ => x
  | .obj fields cut, true =>
    let value := r.read (r.short shape) 0 (.fields fields)
    Ranked.forget (Ranked.apply (value.map fun x (_ : Unit) => x) (unwanted r.names cut 0 fields))
  | other, _ =>
    match other.peek with
    | .ok value => mismatch value shape.want
    | .error f => .error (.text f)

end Record

/-! ## Values of other kinds -/

/-- Decodes a string. -/
def toText : Json → Decoded String
  | .str value => .ok value
  | other => mismatch other "a string"

/-- Decodes a truth value. -/
def toBool : Json → Decoded Bool
  | .bool value => .ok value
  | other => mismatch other "a boolean"

/-- Decodes a byte offset. -/
def toOffset : Json → Decoded UInt64
  | .int value =>
    if value < 0 then .error (.invalidValue (Json.int value).describe "usize")
    else .ok (.ofNat value.toNat)
  | other => mismatch other "usize"

/-- Decodes a list. -/
def toList {α : Type} (f : Json → Decoded α) : Json → Decoded (List α)
  | .arr items => items.mapM f
  | other => mismatch other "a sequence"

/-- Decodes what may be absent. -/
def toOption {α : Type} (f : Json → Decoded α) : Json → Decoded (Option α)
  | .null => .ok none
  | other => (f other).map some

/-- Decodes a draft by its kind alone, lists and objects not being wanted. -/
def ofPeek {α : Type} (f : Json → Decoded α) (draft : Draft) : Decoded α :=
  match draft.peek with
  | .ok value => f value
  | .error fault => .error (.text fault)

/-- Decodes a draft that is taken in whole first. -/
def ofSettled {α : Type} (f : Json → Decoded α) (depth : Nat) (draft : Draft) : Decoded α :=
  match draft.settle depth with
  | .ok value => f value
  | .error fault => .error (.text fault)

/-- Decodes each item of a list until one fails, then the end of the list. -/
def itemsOfDraft {α : Type} (f : Draft → Decoded α) (cut : Option Stop) :
    List Draft → Decoded (List α)
  | [] =>
    match cut with
    | some stop => .error (.text stop.wanted)
    | none => .ok []
  | item :: rest => do
    let x ← f item
    let xs ← itemsOfDraft f cut rest
    return x :: xs

/-- Decodes a list straight from a draft. -/
def listOfDraft {α : Type} (f : Draft → Decoded α) : Draft → Decoded (List α)
  | .arr items cut => itemsOfDraft f cut items
  | other => ofPeek (fun value => mismatch value "a sequence") other

/-- Decodes key and value of each field until one fails, then the end of the object. -/
def fieldsOfDraft {α : Type} (f : Draft → Decoded α) (cut : Option Stop) :
    List (Key × Draft) → Decoded (List (String × α))
  | [] =>
    match cut with
    | some stop => .error (.text stop.wanted)
    | none => .ok []
  | (.error fault, _) :: _ => .error (.text fault)
  | (.ok key, value) :: rest => do
    let x ← f value
    let xs ← fieldsOfDraft f cut rest
    return (key, x) :: xs

/-- Decodes an object with any keys straight from a draft. -/
def mapOfDraft {α : Type} (f : Draft → Decoded α) : Draft → Decoded (List (String × α))
  | .obj fields cut => fieldsOfDraft f cut fields
  | other => ofPeek (fun value => mismatch value "a map") other

/-- Decodes a text. Only a value that decodes may be followed by nothing. -/
def ofText {α : Type} (f : Draft → Decoded α) (text : String) : Decoded α :=
  let (draft, more) := Draft.ofText text
  match f draft with
  | .error e => .error e
  | .ok x => if more then .error (.text .trailingCharacters) else .ok x

/-! ## Variants -/

/-- The variant with the given name. -/
def variantNamed (known : List String) (name : String) : Decoded Nat :=
  match known.findIdx? (· == name) with
  | some index => .ok index
  | none => .error (.unknownVariant name known)

/-- Decodes the name of a variant, or its number. -/
def toVariant (known : List String) : Json → Decoded Nat
  | .str name => variantNamed known name
  | .int value =>
    if value < 0 then mismatch (.int value) "variant identifier"
    else if value < known.length then .ok value.toNat
    else .error (.invalidValue (Json.int value).describe
      s!"variant index 0 <= i < {known.length}")
  | other => mismatch other "variant identifier"

/-- Decodes the name of a variant. -/
def toVariantName (known : List String) : Json → Decoded Nat
  | .str name => variantNamed known name
  | other => mismatch other "variant identifier"

/-- Decodes a choice written as a bare name, or as an object with the name as its only key. -/
def toChoice (known : List String) : Json → Decoded (Nat × Option Json)
  | .str name => (variantNamed known name).map fun index => (index, none)
  | .obj [(name, value)] => (variantNamed known name).map fun index => (index, some value)
  | .obj fields => .error (.invalidValue (Json.obj fields).describe "map with a single key")
  | other => mismatch other "string or map"

/-- The content of a choice that has none. -/
def noContent : Option Json → Decoded Unit
  | none | some .null | some (.obj []) => .ok ()
  | some other => mismatch other "unit"

/-- Decodes null. -/
def toNull : Json → Decoded Unit
  | .null => .ok ()
  | other => mismatch other "unit"

/-- Decodes a choice that has no content straight from a draft. What begins like a number, a word or
a list is no value at all here, whether it could be read or not, nor is anything behind the only
key. -/
def choiceOfDraft (known : List String) : Draft → Decoded Nat
  | .leaf (.str name) => variantNamed known name
  | .unfit .text f | .obj ((.error f, _) :: _) _ => .error (.text f)
  | .broken .text stop | .broken .absent stop | .obj [] (some stop) => .error (.text stop.wanted)
  | .obj ((.ok name, value) :: rest) cut => do
    let index ← variantNamed known name
    ofPeek toNull value
    match rest, cut.map Stop.wanted with
    | [], none => return index
    | [], some .endInObject => throw (.text .endInObject)
    | _, _ => throw (.text .expectedValue)
  | _ => .error (.text .expectedValue)

/-- The value of a choice, given those of all choices. -/
def pick {α : Type} (names : List String) (values : List α) (index : Nat) : Decoded α :=
  match values[index]? with
  | some x => .ok x
  | none => .error (.unknownVariant "" names)

/-- Decodes the value of a choice without content straight from a draft. -/
def nameOfDraft {α : Type} (names : List String) (values : List α) (draft : Draft) : Decoded α :=
  choiceOfDraft names draft >>= pick names values

/-- The content of a choice that has some. -/
def content {α : Type} (f : Json → Decoded α) : Option Json → Decoded α
  | some value => f value
  | none => .error (.invalidType "unit variant" "newtype variant")

/-- The key of the tag in a tagged object. -/
def tagKey : String := "$t"

/-- Decodes a tagged object: the number of its variant, and all but the tag. A tagged list begins
with the tag. -/
def toTagged (name : String) (known : List String) : Json → Decoded (Nat × Json)
  | .obj fields => do
    let tag ← Ranked.forget ((Record.required tagKey (toVariant known)).read
      (fun _ => .missingField tagKey) 0 (.ofFields fields))
    return (tag, .obj (fields.filter fun field => field.1 != tagKey))
  | .arr [] => .error (.missingField tagKey)
  | .arr (tag :: rest) => (toVariant known tag).map fun tag => (tag, .arr rest)
  | other => mismatch other s!"internally tagged enum {name}"

/-- The fields of a tagged object but for the tag, taken in whole, and the end of the object. -/
def settleUntagged (depth : Nat) (cut : Option Stop) :
    Nat → List (Key × Draft) → Ranked (List (String × Json))
  | rank, [] =>
    match cut with
    | some stop => .error (rank, .text stop.wanted)
    | none => .ok []
  | rank, (.error f, _) :: _ => .error (rank, .text f)
  | rank, (.ok key, value) :: rest =>
    if key = tagKey then settleUntagged depth cut (rank + 1) rest
    else match value.settle depth with
      | .error f => .error (rank, .text f)
      | .ok value => (settleUntagged depth cut (rank + 1) rest).map ((key, value) :: ·)

/-- Decodes a tagged object straight from a draft in which `depth` lists and objects may be nested.
All but the tag is taken in whole. -/
def taggedOfDraft (name : String) (known : List String) (depth : Nat) :
    Draft → Decoded (Nat × Json)
  | .obj fields cut =>
    let tag := (Record.required tagKey (ofPeek (toVariantName known))).read
      (fun _ => .missingField tagKey) 0 (.fields fields)
    let rest := settleUntagged (depth - 1) cut 0 fields
    Ranked.forget (Ranked.apply (tag.map fun tag fields => (tag, Json.obj fields)) rest)
  | .arr [] none => .error (.missingField tagKey)
  | .arr [] (some stop) => .error (.text stop.wanted)
  | .arr (tag :: rest) cut => do
    let tag ← ofPeek (toVariantName known) tag
    let rest ← ofSettled .ok depth (.arr rest cut)
    return (tag, rest)
  | other => ofPeek (fun value => mismatch value s!"internally tagged enum {name}") other

end Minifier.Json
