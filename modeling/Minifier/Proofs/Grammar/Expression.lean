import Minifier.Double.Text
import Minifier.Syntax
import Minifier.Text.Identifier

/-!
# The grammar of expressions

The productions of ECMAScript 5 for expressions without functions and accessors, as one relation
between the nonterminals, the terminals they derive and the trees they stand for. Nonterminals and
productions carry the names of the standard in shortened form. All nonterminals of left-associative
operators have productions of the same form, so these are stated once, for a table that gives the
operators of each nonterminal.

The relation says which trees a list of terminals may stand for; that there is at most one is a
property of the grammar, not part of its definition.
-/

namespace Minifier.Grammar

/-- What the grammar sees of a token. Words are names and keywords alike. -/
inductive Terminal
  | word (text : String)
  | punct (text : String)
  | number (value : Double)
  | string (value : String)
  | regex (text : String)
deriving DecidableEq, Repr

/-- The words that are no identifiers: keywords, words reserved for later use, and literals. -/
def reservedWords : List String := [
  "break", "do", "instanceof", "typeof", "case", "else", "new", "var", "catch", "finally", "return",
  "void", "continue", "for", "switch", "while", "debugger", "function", "this", "with", "default",
  "if", "throw", "delete", "in", "try", "class", "enum", "extends", "super", "const", "export",
  "import", "null", "true", "false"]

/-- Whether a word can refer to a variable. -/
def isReference (name : String) : Bool :=
  !reservedWords.contains name && Text.isIdentifier name

/-- The nonterminals that stand for expressions. -/
inductive Nonterminal
  | primary
  | member
  | newExpr
  | call
  | leftHandSide
  | postfixed
  | unary
  | multiplicative
  | additive
  | shift
  | relational
  | equality
  | bitwiseAnd
  | bitwiseXor
  | bitwiseOr
  | logicalAnd
  | logicalOr
  | conditional
  | assignment
  | expression
deriving DecidableEq, Repr

namespace Nonterminal

/-- The nonterminals that a nonterminal may simply be replaced by. -/
def units : Nonterminal → List Nonterminal
  | primary => []
  | member => [primary]
  | newExpr => [member]
  | call => []
  | leftHandSide => [newExpr, call]
  | postfixed => [leftHandSide]
  | unary => [postfixed]
  | multiplicative => [unary]
  | additive => [multiplicative]
  | shift => [additive]
  | relational => [shift]
  | equality => [relational]
  | bitwiseAnd => [equality]
  | bitwiseXor => [bitwiseAnd]
  | bitwiseOr => [bitwiseXor]
  | logicalAnd => [bitwiseOr]
  | logicalOr => [logicalAnd]
  | conditional => [logicalOr]
  | assignment => [conditional]
  | expression => [assignment]

/-- The operators of a nonterminal whose productions have the form `N : N operator M`, together with
the nonterminal `M` of the right operand. -/
def infixes : Nonterminal → List (Terminal × Operator × Nonterminal)
  | multiplicative => [
    (.punct "*", .multiplication, unary),
    (.punct "/", .division, unary),
    (.punct "%", .remainder, unary)]
  | additive => [
    (.punct "+", .addition, multiplicative),
    (.punct "-", .subtraction, multiplicative)]
  | shift => [
    (.punct "<<", .shiftLeft, additive),
    (.punct ">>", .shiftRight, additive),
    (.punct ">>>", .shiftRightZero, additive)]
  | relational => [
    (.punct "<", .less, shift),
    (.punct ">", .greater, shift),
    (.punct "<=", .lessEq, shift),
    (.punct ">=", .greaterEq, shift),
    (.word "instanceof", .instanceOf, shift),
    (.word "in", .isIn, shift)]
  | equality => [
    (.punct "==", .equal, relational),
    (.punct "!=", .notEqual, relational),
    (.punct "===", .strictEqual, relational),
    (.punct "!==", .strictNotEqual, relational)]
  | bitwiseAnd => [(.punct "&", .bitAnd, equality)]
  | bitwiseXor => [(.punct "^", .bitXor, bitwiseAnd)]
  | bitwiseOr => [(.punct "|", .bitOr, bitwiseXor)]
  | logicalAnd => [(.punct "&&", .logicalAnd, bitwiseOr)]
  | logicalOr => [(.punct "||", .logicalOr, logicalAnd)]
  | expression => [(.punct ",", .comma, assignment)]
  | _ => []

end Nonterminal

/-- The operators before an operand. -/
def prefixes : List (Terminal × Operator) := [
  (.word "delete", .delete), (.word "void", .void), (.word "typeof", .typeOf),
  (.punct "++", .preIncrement), (.punct "--", .preDecrement), (.punct "+", .unaryPlus),
  (.punct "-", .unaryMinus), (.punct "~", .bitNot), (.punct "!", .logicalNot)]

/-- The operators behind an operand. -/
def suffixes : List (Terminal × Operator) := [
  (.punct "++", .postIncrement), (.punct "--", .postDecrement)]

/-- The operators of assignments. -/
def assignments : List (Terminal × Operator) := [
  (.punct "=", .assign), (.punct "*=", .assignMultiply), (.punct "/=", .assignDivide),
  (.punct "%=", .assignRemainder), (.punct "+=", .assignAdd), (.punct "-=", .assignSubtract),
  (.punct "<<=", .assignShiftLeft), (.punct ">>=", .assignShiftRight),
  (.punct ">>>=", .assignShiftRightZero), (.punct "&=", .assignBitAnd),
  (.punct "^=", .assignBitXor), (.punct "|=", .assignBitOr)]

/-- The words and literals that are expressions by themselves. -/
inductive Atom : Terminal → Expr → Prop
  | this : Atom (.word "this") (.this default)
  | ident {name : String} (reference : isReference name = true) :
    Atom (.word name) (.ident default name)
  | null : Atom (.word "null") (.null default)
  | bool (value : Bool) : Atom (.word (if value then "true" else "false")) (.bool default value)
  | number (value : Double) : Atom (.number value) (.num default value)
  | string (value : String) : Atom (.string value) (.str default value)
  | regex (text : String) : Atom (.regex text) (.regex default text)

/-- The name of the property that a terminal stands for in an object literal. -/
def Terminal.key? : Terminal → Option String
  | .word text => if Text.isIdentifier text then some text else none
  | .string value => some value
  | .number value => some value.text
  | _ => none

/-- A symbol with productions: an expression, or a list that is part of one. -/
inductive Symbol
  | expr (n : Nonterminal)
  | arguments
  | argumentList
  | elementList
  | propertyList

/-- The trees that a symbol stands for. A hole of an array literal is an absent element. -/
abbrev Symbol.Tree : Symbol → Type
  | .expr _ => Expr
  | .arguments | .argumentList => List Expr
  | .elementList => List (Option Expr)
  | .propertyList => List Member

/-- `n` commas, as they stand for holes of an array literal. -/
def elision (n : Nat) : List Terminal := List.replicate n (.punct ",")

/-- The holes that `n` commas stand for. -/
def holes (n : Nat) : List (Option Expr) := List.replicate n none

open Nonterminal in
/-- A symbol derives a list of terminals, which then stands for a tree. -/
inductive Derives : (s : Symbol) → List Terminal → s.Tree → Prop
  | unit {m n : Nonterminal} {ts : List Terminal} {e : Expr} (mem : m ∈ n.units)
    (inner : Derives (.expr m) ts e) : Derives (.expr n) ts e
  | atom {t : Terminal} {e : Expr} (atom : Atom t e) : Derives (.expr primary) [t] e
  | parens {ts : List Terminal} {e : Expr} (inner : Derives (.expr expression) ts e) :
    Derives (.expr primary) (.punct "(" :: ts ++ [.punct ")"]) e
  | arrayOfHoles (n : Nat) :
    Derives (.expr primary) (.punct "[" :: elision n ++ [.punct "]"]) (.array default (holes n))
  | array {ts : List Terminal} {elements : List (Option Expr)}
    (list : Derives .elementList ts elements) :
    Derives (.expr primary) (.punct "[" :: ts ++ [.punct "]"]) (.array default elements)
  | arrayWithHoles {ts : List Terminal} {elements : List (Option Expr)}
    (list : Derives .elementList ts elements) (n : Nat) :
    Derives (.expr primary) (.punct "[" :: ts ++ .punct "," :: elision n ++ [.punct "]"])
      (.array default (elements ++ holes n))
  | emptyObject :
    Derives (.expr primary) [.punct "\x7b", .punct "\x7d"] (.object default [])
  | object {ts : List Terminal} {members : List Member} (list : Derives .propertyList ts members) :
    Derives (.expr primary) (.punct "\x7b" :: ts ++ [.punct "\x7d"]) (.object default members)
  | objectWithComma {ts : List Terminal} {members : List Member}
    (list : Derives .propertyList ts members) :
    Derives (.expr primary) (.punct "\x7b" :: ts ++ [.punct ",", .punct "\x7d"])
      (.object default members)
  | index {n : Nonterminal} {ts us : List Terminal} {object key : Expr} (mem : n ∈ [member, call])
    (left : Derives (.expr n) ts object) (right : Derives (.expr expression) us key) :
    Derives (.expr n) (ts ++ .punct "[" :: us ++ [.punct "]"]) (.index default object key)
  | dot {n : Nonterminal} {ts : List Terminal} {object : Expr} {name : String}
    (mem : n ∈ [member, call]) (left : Derives (.expr n) ts object)
    (isName : Text.isIdentifier name = true) :
    Derives (.expr n) (ts ++ [.punct ".", .word name]) (.member default object name)
  | newWithArguments {ts us : List Terminal} {callee : Expr} {args : List Expr}
    (left : Derives (.expr member) ts callee) (right : Derives .arguments us args) :
    Derives (.expr member) (.word "new" :: ts ++ us) (.call default true callee args)
  | newBare {ts : List Terminal} {callee : Expr} (inner : Derives (.expr newExpr) ts callee) :
    Derives (.expr newExpr) (.word "new" :: ts) (.call default true callee [])
  | call {n : Nonterminal} {ts us : List Terminal} {callee : Expr} {args : List Expr}
    (mem : n ∈ [member, call]) (left : Derives (.expr n) ts callee)
    (right : Derives .arguments us args) :
    Derives (.expr call) (ts ++ us) (.call default false callee args)
  | suffix {ts : List Terminal} {t : Terminal} {op : Operator} {e : Expr}
    (mem : (t, op) ∈ suffixes) (inner : Derives (.expr leftHandSide) ts e) :
    Derives (.expr postfixed) (ts ++ [t]) (.update default op e)
  | unary {ts : List Terminal} {t : Terminal} {op : Operator} {e : Expr}
    (mem : (t, op) ∈ prefixes) (inner : Derives (.expr unary) ts e) :
    Derives (.expr unary) (t :: ts) (.unary default op e)
  | binary {m n : Nonterminal} {ts us : List Terminal} {t : Terminal} {op : Operator}
    {left right : Expr} (mem : (t, op, m) ∈ n.infixes) (first : Derives (.expr n) ts left)
    (second : Derives (.expr m) us right) :
    Derives (.expr n) (ts ++ t :: us) (.binary default op left right)
  | cond {ts us vs : List Terminal} {test yes no : Expr}
    (first : Derives (.expr logicalOr) ts test) (second : Derives (.expr assignment) us yes)
    (third : Derives (.expr assignment) vs no) :
    Derives (.expr conditional) (ts ++ .punct "?" :: us ++ .punct ":" :: vs)
      (.cond default test yes no)
  | assign {ts us : List Terminal} {t : Terminal} {op : Operator} {target value : Expr}
    (mem : (t, op) ∈ assignments) (first : Derives (.expr leftHandSide) ts target)
    (second : Derives (.expr assignment) us value) :
    Derives (.expr assignment) (ts ++ t :: us) (.binary default op target value)
  | noArguments : Derives .arguments [.punct "(", .punct ")"] []
  | someArguments {ts : List Terminal} {args : List Expr}
    (list : Derives .argumentList ts args) :
    Derives .arguments (.punct "(" :: ts ++ [.punct ")"]) args
  | firstArgument {ts : List Terminal} {e : Expr} (inner : Derives (.expr assignment) ts e) :
    Derives .argumentList ts [e]
  | nextArgument {ts us : List Terminal} {args : List Expr} {e : Expr}
    (list : Derives .argumentList ts args) (inner : Derives (.expr assignment) us e) :
    Derives .argumentList (ts ++ .punct "," :: us) (args ++ [e])
  | firstElement {ts : List Terminal} {e : Expr} (n : Nat)
    (inner : Derives (.expr assignment) ts e) :
    Derives .elementList (elision n ++ ts) (holes n ++ [some e])
  | nextElement {ts us : List Terminal} {elements : List (Option Expr)} {e : Expr}
    (list : Derives .elementList ts elements) (n : Nat)
    (inner : Derives (.expr assignment) us e) :
    Derives .elementList (ts ++ .punct "," :: elision n ++ us) (elements ++ holes n ++ [some e])
  | firstProperty {t : Terminal} {us : List Terminal} {key : String} {e : Expr}
    (isKey : t.key? = some key) (inner : Derives (.expr assignment) us e) :
    Derives .propertyList (t :: .punct ":" :: us) [.value default key e]
  | nextProperty {t : Terminal} {ts us : List Terminal} {members : List Member} {key : String}
    {e : Expr} (list : Derives .propertyList ts members) (isKey : t.key? = some key)
    (inner : Derives (.expr assignment) us e) :
    Derives .propertyList (ts ++ .punct "," :: t :: .punct ":" :: us)
      (members ++ [.value default key e])

end Minifier.Grammar
