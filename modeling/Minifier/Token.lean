/-!
# Tokens and spacing

A printed program is a list of tokens. `Output.ofTokens` joins their texts and puts a blank between
two of them only where they would otherwise be read as something else: between two words, before a
plus after a plus, before a minus after a minus, and before a slash after a slash.
-/

namespace Minifier

/-- What a token is to the reader of a source text. -/
inductive TokenKind
  | keyword
  | identifier
  | number
  | punctuator
  | regex
  | quoted
deriving DecidableEq, Repr

/-- A token with its source text. -/
structure Token where
  kind : TokenKind
  text : String
deriving DecidableEq, Repr

/-- What an end of a token looks like to its neighbour. -/
inductive Edge
  | word
  | plus
  | minus
  | slash
  | other
deriving DecidableEq, Repr

/-- Two ends that would run together if nothing stood between them. -/
def Edge.clash (a b : Edge) : Bool :=
  a == b && a != .other

namespace Token

/-- The front of a token. A number that begins with a point is no word. -/
def front (t : Token) : Edge :=
  match t.kind with
  | .keyword | .identifier => .word
  | .number => if t.text.toList.head? = some '.' then .other else .word
  | .punctuator =>
    if t.text = "+" ∨ t.text = "++" then .plus
    else if t.text = "-" ∨ t.text = "--" then .minus
    else if t.text = "/" ∨ t.text = "/=" then .slash
    else .other
  | .regex => .slash
  | .quoted => .other

/-- The back of a token. A number that ends with a point is no word, and a regular expression
without flags ends in its slash. -/
def back (t : Token) : Edge :=
  match t.kind with
  | .keyword | .identifier => .word
  | .number => if t.text.toList.getLast? = some '.' then .other else .word
  | .punctuator =>
    if t.text = "+" ∨ t.text = "++" then .plus
    else if t.text = "-" ∨ t.text = "--" then .minus
    else if t.text = "/" then .slash
    else .other
  | .regex => if t.text.toList.getLast? = some '/' then .slash else .word
  | .quoted => .other

end Token

/-- A text under construction and the back of the last token in it. -/
structure Output where
  text : String := ""
  last : Edge := .other
deriving DecidableEq, Repr

namespace Output

/-- Adds a token, after a blank if it would run together with the last one. A token without text
changes nothing. -/
def write (out : Output) (t : Token) : Output :=
  if t.text.isEmpty then out
  else if out.last.clash t.front then ⟨out.text ++ " " ++ t.text, t.back⟩
  else ⟨out.text ++ t.text, t.back⟩

/-- Adds tokens one after the other. -/
def writeAll (out : Output) (ts : List Token) : Output :=
  ts.foldl write out

/-- The output for a list of tokens. -/
def ofTokens (ts : List Token) : Output :=
  ({} : Output).writeAll ts

/-- The length of the text in UTF-8 bytes. -/
def size (out : Output) : Nat :=
  out.text.utf8ByteSize

end Output

/-- The source text of a list of tokens. -/
def Token.spell (ts : List Token) : String :=
  (Output.ofTokens ts).text

end Minifier
