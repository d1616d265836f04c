import Minifier.Double.Decimal
import Minifier.Proofs.Text.Literal
import Minifier.Text.Blank
import Minifier.Text.Identifier
import Minifier.Token

/-!
# Splitting a text into tokens

The lexical grammar of ECMAScript 5. A text is split from left to right, each time at the longest
token that begins there; blanks and comments are skipped. A slash begins a regular expression or is
an operator, depending on the tokens before it: it is an operator behind an operand. To tell operands
from statements, the reader keeps track of the brackets that are open. Likewise a reserved word is a
mere name where only a name can stand.

Numbers are read in decimal notation only, and identifiers without escapes.
-/

namespace Minifier.Lexical

/-! ## Where the reader stands -/

/-- What is to come. -/
inductive Position
  /-- A statement. -/
  | statement
  /-- An operand of an expression. -/
  | operand
  /-- Whatever can stand behind an operand. -/
  | operator
  /-- The name behind a point. -/
  | name
  /-- The parenthesis of a statement such as `if`. -/
  | head
  /-- The name or the parameters of a function, which may be a declaration. -/
  | func (declared : Bool)
  /-- The body of a function. -/
  | body (declared : Bool)
  /-- A property name in an object literal. -/
  | key
  /-- A property name behind `get` or `set`. -/
  | accessor
deriving DecidableEq, Repr

/-- What an open bracket has begun. -/
inductive Frame
  | group
  | head
  | params (declared : Bool)
  | bracket
  | block
  | object
  | body (declared : Bool)
deriving DecidableEq, Repr

/-- What comes behind the closing bracket. -/
def Frame.behind : Frame → Position
  | .group | .bracket | .object | .body false => .operator
  | .head | .block | .body true => .statement
  | .params declared => .body declared

/-- What is to come, how many `?` still lack their `:` since the last bracket was opened, and the open
brackets with the number of such `?` in front of them. -/
structure Reader where
  position : Position
  choices : Nat
  outer : List (Frame × Nat)
deriving DecidableEq, Repr

namespace Reader

/-- At the beginning of a program. -/
def start : Reader := ⟨.statement, 0, []⟩

/-- The innermost open bracket. -/
def frame? (r : Reader) : Option Frame :=
  r.outer.head?.map Prod.fst

/-- Something else is to come. -/
def expect (r : Reader) (p : Position) : Reader :=
  { r with position := p }

/-- Behind an opening bracket. -/
def enter (r : Reader) (f : Frame) (p : Position) : Reader :=
  ⟨p, 0, (f, r.choices) :: r.outer⟩

/-- Behind a closing bracket. -/
def leave (r : Reader) : Reader :=
  match r.outer with
  | [] => r.expect .operator
  | (f, choices) :: outer => ⟨f.behind, choices, outer⟩

/-- Whether only a name can come, so that reserved words are names too. -/
def takesName (r : Reader) : Bool :=
  r.position == .name || r.position == .key || r.position == .accessor

/-- Behind a keyword. -/
def afterKeyword (r : Reader) : String → Reader
  | "this" | "super" | "null" | "true" | "false" | "default" => r.expect .operator
  | "function" => r.expect (.func (r.position == .statement))
  | "if" | "while" | "for" | "with" | "switch" | "catch" => r.expect .head
  | "do" | "else" | "try" | "finally" => r.expect .statement
  | _ => r.expect .operand

/-- Behind a name. -/
def afterName (r : Reader) (name : String) : Reader :=
  match r.position with
  | .key => r.expect (if name = "get" ∨ name = "set" then .accessor else .operator)
  | .accessor => r.expect (.func false)
  | .func _ => r
  | _ => r.expect .operator

/-- Behind a number or a string. -/
def afterLiteral (r : Reader) : Reader :=
  match r.position with
  | .accessor => r.expect (.func false)
  | _ => r.expect .operator

/-- Behind a punctuator. -/
def afterPunctuator (r : Reader) : String → Reader
  | "(" =>
    match r.position with
    | .head => r.enter .head .operand
    | .func declared => r.enter (.params declared) .operand
    | _ => r.enter .group .operand
  | "[" => r.enter .bracket .operand
  | "\x7b" =>
    match r.position with
    | .operand => r.enter .object .key
    | .body declared => r.enter (.body declared) .statement
    | _ => r.enter .block .statement
  | ")" | "]" | "\x7d" => r.leave
  | ";" => r.expect (if r.frame? = some .head then .operand else .statement)
  | "," => r.expect (if r.frame? = some .object then .key else .operand)
  | "?" => { r with position := .operand, choices := r.choices + 1 }
  | ":" =>
    if 0 < r.choices then { r with position := .operand, choices := r.choices - 1 }
    else if r.frame? = some .object then r.expect .operand
    else r.expect .statement
  | "." => r.expect .name
  | "++" | "--" => r.expect (if r.position = .operator then .operator else .operand)
  | _ => r.expect .operand

/-- Behind a token. -/
def after (r : Reader) (t : Token) : Reader :=
  match t.kind with
  | .keyword => r.afterKeyword t.text
  | .identifier => r.afterName t.text
  | .number | .quoted => r.afterLiteral
  | .regex => r.expect .operator
  | .punctuator => r.afterPunctuator t.text

end Reader

/-! ## Tokens in a text

Each function gives what is left of a text behind a token of one kind.
-/

/-- The punctuators of the language. -/
def punctuators : List String := [
  "\x7b", "\x7d", "(", ")", "[", "]", ".", ";", ",", "<", ">", "<=", ">=", "==", "!=", "===", "!==",
  "+", "-", "*", "%", "++", "--", "<<", ">>", ">>>", "&", "|", "^", "!", "~", "&&", "||", "?", ":",
  "=", "+=", "-=", "*=", "%=", "<<=", ">>=", ">>>=", "&=", "|=", "^=", "/", "/="]

/-- Behind the longest punctuator of at most the given length. -/
def skipPunctuator : Nat → List Char → Option (List Char)
  | 0, _ => none
  | n + 1, cs =>
    if punctuators.contains (String.ofList (cs.take (n + 1))) then some (cs.drop (n + 1))
    else skipPunctuator n cs

/-- Behind digits. -/
def skipDigits (cs : List Char) : List Char :=
  cs.dropWhile Char.isDigit

/-- Behind the digits of a number and its point. -/
def skipCoefficient (cs : List Char) : List Char :=
  match skipDigits cs with
  | '.' :: fraction => skipDigits fraction
  | rest => rest

/-- Behind the exponent of a number, if there is one. -/
def skipExponent (cs : List Char) : List Char :=
  match cs with
  | mark :: rest =>
    let unsigned := match rest with
      | '+' :: digits | '-' :: digits => digits
      | digits => digits
    if (mark = 'e' ∨ mark = 'E') ∧ unsigned.head?.any Char.isDigit then skipDigits unsigned else cs
  | [] => cs

/-- Behind a number. No name may follow it directly. -/
def skipNumber (cs : List Char) : Option (List Char) :=
  let rest := skipExponent (skipCoefficient cs)
  if rest.head?.any Text.isIdentStart then none else some rest

/-- Behind the closing slash of a regular expression. A slash in brackets does not close it. -/
def skipRegexBody (inClass : Bool) : List Char → Option (List Char)
  | [] => none
  | '\\' :: c :: rest => if Text.isLineEnd c then none else skipRegexBody inClass rest
  | c :: rest =>
    if c = '\\' ∨ Text.isLineEnd c then none
    else if c = '/' ∧ !inClass then some rest
    else skipRegexBody (if c = '[' then true else if c = ']' then false else inClass) rest

/-- Behind a comment whose end is marked. -/
def skipComment : List Char → Option (List Char)
  | [] => none
  | '*' :: '/' :: rest => some rest
  | _ :: rest => skipComment rest

/-- What stands at the beginning of a text, and the text behind it. -/
inductive Scanned
  | blank (rest : List Char)
  | token (kind : TokenKind) (rest : List Char)
deriving DecidableEq, Repr

/-- Looks at the beginning of a text. -/
def scan (r : Reader) : List Char → Option Scanned
  | [] => none
  | c :: rest =>
    if Text.isIdentStart c then
      let tail := rest.dropWhile Text.isIdentPart
      let word := String.ofList ((c :: rest).take ((c :: rest).length - tail.length))
      some (.token (if Text.isReserved word && !r.takesName then .keyword else .identifier) tail)
    else if c.isDigit || (c == '.' && rest.head?.any Char.isDigit) then
      (skipNumber (c :: rest)).map (.token .number)
    else if Text.IsQuote c then (Text.readBody c rest).map fun read => .token .quoted read.2
    else if Text.isBlank c then some (.blank rest)
    else if c = '/' ∧ rest.head? = some '/' then
      some (.blank (rest.dropWhile fun d => !Text.isLineEnd d))
    else if c = '/' ∧ rest.head? = some '*' then (skipComment rest.tail).map .blank
    else if c = '/' ∧ r.position ≠ .operator then
      (skipRegexBody false rest).map fun flags => .token .regex (flags.dropWhile Text.isIdentPart)
    else (skipPunctuator 4 (c :: rest)).map (.token .punctuator)

/-- Splits a text into tokens. -/
def lexFrom (r : Reader) (cs : List Char) : Option (List Token) :=
  match scan r cs with
  | none => if cs.isEmpty then some [] else none
  | some (.blank rest) => if rest.length < cs.length then lexFrom r rest else none
  | some (.token kind rest) =>
    let t : Token := ⟨kind, String.ofList (cs.take (cs.length - rest.length))⟩
    if rest.length < cs.length then (lexFrom (r.after t) rest).map (t :: ·) else none
termination_by cs.length

/-- Splits a program into tokens. -/
def lex (text : String) : Option (List Token) :=
  lexFrom .start text.toList

end Minifier.Lexical
