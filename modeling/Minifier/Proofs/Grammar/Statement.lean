import Minifier.Proofs.Grammar.Brackets
import Minifier.Proofs.Grammar.Expression
import Minifier.Proofs.Grammar.WellFormed

/-!
# The grammar of statements

The productions of ECMAScript for statements, over terminals and whole expressions. Expressions are
not looked into, except where a production asks how their tokens begin, whether they are more than one
assignment expression, or whether `in` stands outside of brackets in them. `ParsesStmt ps s rest` says
that a statement `s` stands at the beginning of `ps` and that `rest` is what follows it; an `if` without
`else` must not be followed by an `else`, so that each `else` belongs to the nearest `if`.

As in the standard, statements and declarations are different things. A list holds both, by
`ParsesItem`, but the body of an `if`, of a loop and of `with` is a statement, and behind a label there
is a statement or a function. A `switch` has at most one default. In the head of a loop over keys only
`var` allows an initial value.

What the standard demands beside its productions, as early errors, is left out: that jumps have a
target, that constants have a value, that no name is declared twice. So are the productions that it adds
for browsers only, such as a function as the branch of an `if`.
-/

namespace Minifier.Grammar

/-- A part of a program: a terminal, or an expression as it is printed, perhaps in parentheses. -/
inductive Piece
  | terminal (t : Terminal)
  | phrase (parens : Bool) (e : Expr)

/-- A keyword or a name. -/
abbrev Piece.word (text : String) : Piece := .terminal (.word text)

/-- A punctuator. -/
abbrev Piece.punct (text : String) : Piece := .terminal (.punct text)

/-- The tokens of an expression, perhaps in parentheses. -/
def phraseTokens (parens : Bool) (e : Expr) : List Token :=
  if parens then inParens e.tokens else e.tokens

/-- Whether an expression has several parts with commas between them, so that it is no assignment
expression unless it stands in parentheses. -/
def isSequence : Expr → Bool
  | .binary _ .comma _ _ => true
  | _ => false

/-- An expression that may be absent. -/
inductive ParsesOption : List Piece → Option Expr → List Piece → Prop
  | absent {ps : List Piece} : ParsesOption ps none ps
  | present {ps : List Piece} {parens : Bool} {e : Expr} :
    ParsesOption (.phrase parens e :: ps) (some e) ps

/-- A declared name. In the head of a loop its initial value has no `in` outside of brackets. -/
inductive ParsesDeclarator (inHead : Bool) : List Piece → Declarator → List Piece → Prop
  | bare {rest : List Piece} {name : String} (isName : isReference name = true) :
    ParsesDeclarator inHead (.word name :: rest) (.mk name none) rest
  | withValue {rest : List Piece}
    {name : String} {parens : Bool} {e : Expr} (isName : isReference name = true)
    (single : isSequence e = true → parens = true)
    (noIn : inHead = true → ¬HasBareIn (phraseTokens parens e)) :
    ParsesDeclarator inHead (.word name :: .punct "=" :: .phrase parens e :: rest)
      (.mk name (some e)) rest

/-- Declared names with commas between them. -/
inductive ParsesDeclarators (inHead : Bool) : List Piece → List Declarator → List Piece → Prop
  | last {ps rest : List Piece} {d : Declarator} (single : ParsesDeclarator inHead ps d rest) :
    ParsesDeclarators inHead ps [d] rest
  | more {ps qs rest : List Piece} {d : Declarator} {ds : List Declarator}
    (first : ParsesDeclarator inHead ps d (.punct "," :: qs))
    (others : ParsesDeclarators inHead qs ds rest) : ParsesDeclarators inHead ps (d :: ds) rest

/-- A declaration of variables, without a semicolon. -/
inductive ParsesDecl (inHead : Bool) : List Piece → VarDecl → List Piece → Prop
  | decl {ps rest : List Piece}
    (mode : DeclMode) {ds : List Declarator} (names : ParsesDeclarators inHead ps ds rest) :
    ParsesDecl inHead (.word mode.keyword :: ps) (.mk default mode ds) rest

/-- What a counting loop starts from. -/
inductive ParsesLoopInit : List Piece → Option LoopHead → List Piece → Prop
  | absent {ps : List Piece} : ParsesLoopInit ps none ps
  | decl {ps rest : List Piece} {decl : VarDecl} (declares : ParsesDecl true ps decl rest) :
    ParsesLoopInit ps (some (.decl decl)) rest
  | expr {rest : List Piece}
    {parens : Bool} {e : Expr} (noIn : ¬HasBareIn (phraseTokens parens e)) :
    ParsesLoopInit (.phrase parens e :: rest) (some (.expr e)) rest

/-- The target of a loop over the keys of an object: one declared name, which has an initial value only
behind `var`, or an expression that can be stored into. -/
inductive ParsesTarget : List Piece → LoopHead → List Piece → Prop
  | decl {ps rest : List Piece}
    (mode : DeclMode) {d : Declarator} (declares : ParsesDeclarator true ps d rest)
    (bare : mode ≠ .var → d.hasInit = false) :
    ParsesTarget (.word mode.keyword :: ps) (.decl (.mk default mode [d])) rest
  | expr {rest : List Piece} {parens : Bool} {e : Expr} (target : e.isTarget = true)
    (noIn : ¬HasBareIn (phraseTokens parens e)) :
    ParsesTarget (.phrase parens e :: rest) (.expr e) rest

/-- The parameters of a function from the first one on, up to the closing parenthesis. -/
inductive ParsesParams : List Piece → List Param → List Piece → Prop
  | last {rest : List Piece} {name : String} (isName : isReference name = true) :
    ParsesParams (.word name :: .punct ")" :: rest) [⟨default, name⟩] rest
  | more {ps rest : List Piece}
    {name : String} {params : List Param} (isName : isReference name = true)
    (others : ParsesParams ps params rest) :
    ParsesParams (.word name :: .punct "," :: ps) (⟨default, name⟩ :: params) rest

mutual

/-- A statement. -/
inductive ParsesStmt : List Piece → Stmt → List Piece → Prop
  | block {ps rest : List Piece}
    {body : List Stmt} (inner : ParsesStmts ps body (.punct "\x7d" :: rest)) :
    ParsesStmt (.punct "\x7b" :: ps) (.block default body) rest
  | breakOut {rest : List Piece} :
    ParsesStmt (.word "break" :: .punct ";" :: rest) (.breakTo default none) rest
  | breakTo {rest : List Piece} {name : String} (isName : isReference name = true) :
    ParsesStmt (.word "break" :: .word name :: .punct ";" :: rest) (.breakTo default (some name)) rest
  | continueNext {rest : List Piece} :
    ParsesStmt (.word "continue" :: .punct ";" :: rest) (.continueTo default none) rest
  | continueTo {rest : List Piece} {name : String} (isName : isReference name = true) :
    ParsesStmt (.word "continue" :: .word name :: .punct ";" :: rest)
      (.continueTo default (some name)) rest
  | debugger {rest : List Piece} :
    ParsesStmt (.word "debugger" :: .punct ";" :: rest) (.debugger default) rest
  | doWhile {ps rest : List Piece} {body : Stmt} {parens : Bool} {test : Expr}
    (inner : ParsesStmt ps body
      (.word "while" :: .punct "(" :: .phrase parens test :: .punct ")" :: .punct ";" :: rest)) :
    ParsesStmt (.word "do" :: ps) (.doWhile default body test) rest
  | empty {rest : List Piece} : ParsesStmt (.punct ";" :: rest) (.empty default) rest
  | expr {rest : List Piece}
    {parens : Bool} {e : Expr} (apart : opensStmt (phraseTokens parens e) = false) :
    ParsesStmt (.phrase parens e :: .punct ";" :: rest) (.expr default e) rest
  | forIn {ps qs rest : List Piece}
    {target : LoopHead} {parens : Bool} {object : Expr} {body : Stmt}
    (head : ParsesTarget ps target (.word "in" :: .phrase parens object :: .punct ")" :: qs))
    (inner : ParsesStmt qs body rest) :
    ParsesStmt (.word "for" :: .punct "(" :: ps) (.forIn default target object body) rest
  | forLoop {ps qs us vs rest : List Piece}
    {init : Option LoopHead} {test step : Option Expr} {body : Stmt}
    (first : ParsesLoopInit ps init (.punct ";" :: us))
    (second : ParsesOption us test (.punct ";" :: vs))
    (third : ParsesOption vs step (.punct ")" :: qs)) (inner : ParsesStmt qs body rest) :
    ParsesStmt (.word "for" :: .punct "(" :: ps) (.forLoop default init test step body) rest
  | ifElse {ps qs rest : List Piece} {parens : Bool} {test : Expr} {yes no : Stmt}
    (first : ParsesStmt ps yes (.word "else" :: qs)) (second : ParsesStmt qs no rest) :
    ParsesStmt (.word "if" :: .punct "(" :: .phrase parens test :: .punct ")" :: ps)
      (.ite default test yes (some no)) rest
  | ifOnly {ps rest : List Piece}
    {parens : Bool} {test : Expr} {yes : Stmt} (first : ParsesStmt ps yes rest)
    (noElse : rest.head? ≠ some (.word "else")) :
    ParsesStmt (.word "if" :: .punct "(" :: .phrase parens test :: .punct ")" :: ps)
      (.ite default test yes none) rest
  | label {ps rest : List Piece} {name : String} {body : Stmt} (isName : isReference name = true)
    (inner : ParsesStmt ps body rest) :
    ParsesStmt (.word name :: .punct ":" :: ps) (.label default name body) rest
  | labelledFunc {ps rest : List Piece} {label name : String} {fn : Func}
    (isLabel : isReference label = true) (isName : isReference name = true)
    (inner : ParsesFunc ps fn rest) :
    ParsesStmt (.word label :: .punct ":" :: .word "function" :: .word name :: ps)
      (.label default label (.func default name fn)) rest
  | ret {ps rest : List Piece}
    {value : Option Expr} (result : ParsesOption ps value (.punct ";" :: rest)) :
    ParsesStmt (.word "return" :: ps) (.ret default value) rest
  | switch {ps rest : List Piece} {parens : Bool} {subject : Expr} {branches : List Branch}
    (inner : ParsesBranches 1 ps branches (.punct "\x7d" :: rest)) :
    ParsesStmt (.word "switch" :: .punct "(" :: .phrase parens subject :: .punct ")" ::
      .punct "\x7b" :: ps) (.switch default subject branches) rest
  | throw {rest : List Piece} {parens : Bool} {value : Expr} :
    ParsesStmt (.word "throw" :: .phrase parens value :: .punct ";" :: rest) (.throw default value) rest
  | tryCatch {ps qs rest : List Piece}
    {body : Block} {handler : Handler} (inner : ParsesBlock ps body qs)
    (second : ParsesHandler qs handler rest) :
    ParsesStmt (.word "try" :: ps) (.tryCatch default body (some handler) none) rest
  | tryFinally {ps qs rest : List Piece}
    {body final : Block} (inner : ParsesBlock ps body (.word "finally" :: qs))
    (last : ParsesBlock qs final rest) :
    ParsesStmt (.word "try" :: ps) (.tryCatch default body none (some final)) rest
  | tryCatchFinally {ps qs us rest : List Piece} {body final : Block} {handler : Handler}
    (inner : ParsesBlock ps body us) (second : ParsesHandler us handler (.word "finally" :: qs))
    (last : ParsesBlock qs final rest) :
    ParsesStmt (.word "try" :: ps) (.tryCatch default body (some handler) (some final)) rest
  | var {ps rest : List Piece}
    {decl : VarDecl} (isVar : decl.mode = .var)
    (declares : ParsesDecl false ps decl (.punct ";" :: rest)) :
    ParsesStmt ps (.var default decl) rest
  | whileLoop {ps rest : List Piece}
    {parens : Bool} {test : Expr} {body : Stmt} (inner : ParsesStmt ps body rest) :
    ParsesStmt (.word "while" :: .punct "(" :: .phrase parens test :: .punct ")" :: ps)
      (.whileLoop default test body) rest
  | withObject {ps rest : List Piece}
    {parens : Bool} {object : Expr} {body : Stmt} (inner : ParsesStmt ps body rest) :
    ParsesStmt (.word "with" :: .punct "(" :: .phrase parens object :: .punct ")" :: ps)
      (.withObject default object body) rest

/-- What may stand in a list of statements: a statement, a function, or a declaration whose names
belong to the list. -/
inductive ParsesItem : List Piece → Stmt → List Piece → Prop
  | stmt {ps rest : List Piece} {s : Stmt} (inner : ParsesStmt ps s rest) : ParsesItem ps s rest
  | func {ps rest : List Piece} {name : String} {fn : Func} (isName : isReference name = true)
    (inner : ParsesFunc ps fn rest) :
    ParsesItem (.word "function" :: .word name :: ps) (.func default name fn) rest
  | lexical {ps rest : List Piece}
    {decl : VarDecl} (isLexical : decl.mode ≠ .var)
    (declares : ParsesDecl false ps decl (.punct ";" :: rest)) :
    ParsesItem ps (.var default decl) rest

/-- Statements and declarations one after the other. -/
inductive ParsesStmts : List Piece → List Stmt → List Piece → Prop
  | nil {ps : List Piece} : ParsesStmts ps [] ps
  | cons {ps qs rest : List Piece} {s : Stmt} {more : List Stmt} (first : ParsesItem ps s qs)
    (others : ParsesStmts qs more rest) : ParsesStmts ps (s :: more) rest

/-- The branches of a `switch` one after the other, with at most the given number of defaults. -/
inductive ParsesBranches : Nat → List Piece → List Branch → List Piece → Prop
  | nil {defaults : Nat} {ps : List Piece} : ParsesBranches defaults ps [] ps
  | case {defaults : Nat} {ps qs rest : List Piece}
    {parens : Bool} {test : Expr} {body : List Stmt} {more : List Branch}
    (inner : ParsesStmts ps body qs) (others : ParsesBranches defaults qs more rest) :
    ParsesBranches defaults (.word "case" :: .phrase parens test :: .punct ":" :: ps)
      (.mk default (some test) body :: more) rest
  | default {defaults : Nat} {ps qs rest : List Piece}
    {body : List Stmt} {more : List Branch} (inner : ParsesStmts ps body qs)
    (others : ParsesBranches defaults qs more rest) :
    ParsesBranches (defaults + 1) (.word "default" :: .punct ":" :: ps)
      (.mk default none body :: more) rest

/-- A function from its parameters on. -/
inductive ParsesFunc : List Piece → Func → List Piece → Prop
  | noParams {ps rest : List Piece}
    {body : List Stmt} (inner : ParsesStmts ps body (.punct "\x7d" :: rest)) :
    ParsesFunc (.punct "(" :: .punct ")" :: .punct "\x7b" :: ps) (.mk default [] body) rest
  | withParams {ps qs rest : List Piece} {params : List Param} {body : List Stmt}
    (names : ParsesParams ps params (.punct "\x7b" :: qs))
    (inner : ParsesStmts qs body (.punct "\x7d" :: rest)) :
    ParsesFunc (.punct "(" :: ps) (.mk default params body) rest

/-- A block of a `try` statement. -/
inductive ParsesBlock : List Piece → Block → List Piece → Prop
  | mk {ps rest : List Piece}
    {body : List Stmt} (inner : ParsesStmts ps body (.punct "\x7d" :: rest)) :
    ParsesBlock (.punct "\x7b" :: ps) (.mk default body) rest

/-- The `catch` part of a `try` statement. -/
inductive ParsesHandler : List Piece → Handler → List Piece → Prop
  | noParam {ps rest : List Piece}
    {body : List Stmt} (inner : ParsesStmts ps body (.punct "\x7d" :: rest)) :
    ParsesHandler (.word "catch" :: .punct "\x7b" :: ps) (.mk default none body) rest
  | withParam {ps rest : List Piece}
    {name : String} {body : List Stmt} (isName : isReference name = true)
    (inner : ParsesStmts ps body (.punct "\x7d" :: rest)) :
    ParsesHandler (.word "catch" :: .punct "(" :: .word name :: .punct ")" :: .punct "\x7b" :: ps)
      (.mk default (some name) body) rest

end

end Minifier.Grammar
