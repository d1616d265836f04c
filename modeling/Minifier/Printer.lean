import Minifier.Double.Text
import Minifier.Syntax.Marks
import Minifier.Text.Identifier
import Minifier.Text.Quoted
import Minifier.Token

/-!
# Printing trees

The tokens of expressions, statements and programs. An operand is put in parentheses exactly if it
binds less tightly than its position demands. Further parentheses or braces stand where the grammar
would read a text differently: around an expression statement that begins like a declaration or a
block, around `in` in the head of a loop, around a call below `new`, and around an `if` that would
take the `else` of another.
-/

namespace Minifier

/-- The level of an assignment, the least one in lists of arguments and elements. -/
def assignmentLevel : Nat := 3

/-- The level of a quotient. -/
def quotientLevel : Nat := 14

/-- The level of an operator before its operand. -/
def unaryLevel : Nat := 16

/-- The level of an operator behind its operand, and of assignment targets. -/
def targetLevel : Nat := 17

/-- The level of calls and member accesses. -/
def accessLevel : Nat := 18

/-- The level of names, literals and whatever stands in parentheses. -/
def primaryLevel : Nat := 19

/-- A keyword. -/
def Token.word (text : String) : Token := ⟨.keyword, text⟩

/-- A name. -/
def Token.name (text : String) : Token := ⟨.identifier, text⟩

/-- A number without a sign. -/
def Token.digits (text : String) : Token := ⟨.number, text⟩

/-- A punctuator. -/
def Token.punct (text : String) : Token := ⟨.punctuator, text⟩

/-- Tokens between round brackets. -/
def inParens (ts : List Token) : List Token :=
  .punct "(" :: ts ++ [.punct ")"]

/-- Tokens between braces. -/
def inBraces (ts : List Token) : List Token :=
  .punct "\x7b" :: ts ++ [.punct "\x7d"]

/-- Lists of tokens with commas between them. -/
def commaJoined : List (List Token) → List Token
  | [] => []
  | [ts] => ts
  | ts :: rest => ts ++ .punct "," :: commaJoined rest

/-- How tightly a printed number binds: as a quotient if it is not finite, as a negation if it has a
sign. -/
def Double.level (v : Double) : Nat :=
  if !v.isFinite then quotientLevel else if v.isNegative then unaryLevel else primaryLevel

/-- The tokens of a number. -/
def Double.tokens : Double → List Token
  | .nan => [.digits "0", .punct "/", .digits "0"]
  | .infinite negative =>
    let quotient := [.digits "1", .punct "/", .digits "0"]
    if negative then .punct "-" :: quotient else quotient
  | .finite negative code =>
    let magnitude := [.digits (Double.finite false code).source]
    if negative then .punct "-" :: magnitude else magnitude

/-- The tokens of a positive number before a member access: a whole number needs a point of its
own. -/
def Double.tokensBeforeMember (v : Double) : List Token :=
  let text := v.source
  if text.toList.any fun c => c == '.' || c == 'e' || c == 'x' then [.digits text]
  else [.digits text, .punct "."]

/-- Whether a text is the one the language gives some positive number or zero, so that it can be
written as a number where a property is named. -/
def isCanonicalNumber (key : String) : Bool :=
  match Decimal.parse? key.toList with
  | none => false
  | some d =>
    let v := Double.ofDecimal false d
    v.isFinite && v.text == key

/-- A property name: bare if it can be, else a number if it is one, else a string. -/
def keyToken (key : String) : Token :=
  if Text.isPlainName key then .name key
  else if isCanonicalNumber key then .digits key
  else ⟨.quoted, Text.quoted key⟩

namespace Operator

/-- The token of an operator between two operands. -/
def infixToken (op : Operator) : Token :=
  if op = .isIn ∨ op = .instanceOf then .word op.text else .punct op.text

/-- The token of an operator before its operand. -/
def unaryToken (op : Operator) : Token :=
  if op.isKeyword then .word op.text else .punct op.text

end Operator

namespace Expr

/-- How tightly an expression binds when printed. -/
def level : Expr → Nat
  | binary _ op _ _ => op.precedence
  | cond .. => Operator.conditional.precedence
  | unary .. | undef _ => unaryLevel
  | update .. => targetLevel
  | call .. | member .. | index .. => accessLevel
  | num _ v => v.level
  | _ => primaryLevel

/-- Whether the text of an expression begins with a brace or the word `function`, and so would be
read as a block or a declaration at the start of a statement. -/
def startsLikeStmt : Expr → Bool
  | func .. | object .. => true
  | binary _ op left _ => decide (op.leftLevel ≤ left.level) && left.startsLikeStmt
  | call _ isNew callee _ => !isNew && decide (accessLevel ≤ callee.level) && callee.startsLikeStmt
  | index _ base _ => decide (accessLevel ≤ base.level) && base.startsLikeStmt
  | member _ base _ => decide (accessLevel ≤ base.level) && base.startsLikeStmt
  | cond _ test _ _ =>
    decide (Operator.conditional.precedence + 1 ≤ test.level) && test.startsLikeStmt
  | update _ _ arg => decide (targetLevel ≤ arg.level) && arg.startsLikeStmt
  | _ => false

/-- Whether a call occurs along the member accesses of a callee. Below `new` it would take the
arguments. -/
def calleeHasCall : Expr → Bool
  | call .. => true
  | member _ base _ => base.calleeHasCall
  | index _ base _ => base.calleeHasCall
  | _ => false

/-- The tokens `ts` of an expression, in parentheses if it binds less tightly than `least`. -/
def fit (least : Nat) (e : Expr) (ts : List Token) : List Token :=
  if e.level < least then inParens ts else ts

end Expr

/-- Whether an `if` at the end of a statement would take an `else` that follows. -/
def Stmt.endsWithOpenIf : Stmt → Bool
  | .ite _ _ _ none => true
  | .ite _ _ _ (some no) => no.endsWithOpenIf
  | .label _ _ body => body.endsWithOpenIf
  | .whileLoop _ _ body => body.endsWithOpenIf
  | .withObject _ _ body => body.endsWithOpenIf
  | .forLoop _ _ _ _ body => body.endsWithOpenIf
  | .forIn _ _ _ body => body.endsWithOpenIf
  | _ => false

/-- A word and perhaps a label, up to the semicolon. -/
def jumpTokens (word : String) (label : Option String) : List Token :=
  .word word :: label.toList.map Token.name ++ [.punct ";"]

mutual

/-- The tokens of an expression, without parentheses of its own. -/
def Expr.tokens : Expr → List Token
  | .binary _ op left right =>
    left.fit op.leftLevel left.tokens ++ op.infixToken :: right.fit op.rightLevel right.tokens
  | .call _ isNew callee args =>
    let head :=
      if isNew then
        .word "new" ::
          (if callee.calleeHasCall then inParens callee.tokens
          else callee.fit accessLevel callee.tokens)
      else callee.fit accessLevel callee.tokens
    head ++ inParens (commaJoined (argumentTokens args))
  | .index _ object key =>
    object.fit accessLevel object.tokens ++ .punct "[" :: key.tokens ++ [.punct "]"]
  | .cond _ test yes no =>
    test.fit (Operator.conditional.precedence + 1) test.tokens ++
      .punct "?" :: yes.fit assignmentLevel yes.tokens ++
      .punct ":" :: no.fit assignmentLevel no.tokens
  | .func _ name fn => .word "function" :: name.toList.map Token.name ++ fn.tokens
  | .ident _ name => [.name name]
  | .member _ object name =>
    let head := match object with
      | .num _ v =>
        if v.level = primaryLevel then v.tokensBeforeMember
        else object.fit accessLevel object.tokens
      | _ => object.fit accessLevel object.tokens
    head ++ [.punct ".", .name name]
  | .this _ => [.word "this"]
  | .unary _ op arg => op.unaryToken :: arg.fit unaryLevel arg.tokens
  | .update _ op arg => arg.fit targetLevel arg.tokens ++ [.punct op.text]
  | .array _ elements =>
    let trailing := match elements.getLast? with
      | some none => [.punct ","]
      | _ => []
    .punct "[" :: commaJoined (elementTokens elements) ++ trailing ++ [.punct "]"]
  | .bool _ value => [.word (if value then "true" else "false")]
  | .null _ => [.word "null"]
  | .num _ value => value.tokens
  | .object _ members => inBraces (commaJoined (memberTokens members))
  | .regex _ text => [⟨.regex, text⟩]
  | .str _ value => [⟨.quoted, Text.quoted value⟩]
  | .undef _ => [.word "void", .digits "0"]

/-- The tokens of each argument of a call. -/
def argumentTokens : List Expr → List (List Token)
  | [] => []
  | e :: rest => e.fit assignmentLevel e.tokens :: argumentTokens rest

/-- The tokens of each element of an array literal; a hole has none. -/
def elementTokens : List (Option Expr) → List (List Token)
  | [] => []
  | none :: rest => [] :: elementTokens rest
  | some e :: rest => e.fit assignmentLevel e.tokens :: elementTokens rest

/-- The tokens of each member of an object literal. -/
def memberTokens : List Member → List (List Token)
  | [] => []
  | .value _ key e :: rest =>
    (keyToken key :: .punct ":" :: e.fit assignmentLevel e.tokens) :: memberTokens rest
  | .getter _ key fn :: rest => (.name "get" :: keyToken key :: fn.tokens) :: memberTokens rest
  | .setter _ key fn :: rest => (.name "set" :: keyToken key :: fn.tokens) :: memberTokens rest

/-- The tokens of a function from its parameters on. -/
def Func.tokens : Func → List Token
  | .mk _ params body =>
    inParens (commaJoined (params.map fun p => [.name p.name])) ++ inBraces (stmtsTokens body)

/-- The tokens of each declared name. In the head of a loop an initial value that holds `in` is
parenthesized. -/
def declaratorTokens (inHead : Bool) : List Declarator → List (List Token)
  | [] => []
  | .mk name none :: rest => [.name name] :: declaratorTokens inHead rest
  | .mk name (some init) :: rest =>
    (.name name :: .punct "=" ::
      (if inHead && init.hasIn then inParens init.tokens
      else init.fit assignmentLevel init.tokens)) :: declaratorTokens inHead rest

/-- The tokens of a declaration, without a semicolon. -/
def VarDecl.tokens (inHead : Bool) : VarDecl → List Token
  | .mk _ mode declarators =>
    .word mode.keyword :: commaJoined (declaratorTokens inHead declarators)

/-- The tokens of an expression that may be absent. -/
def optionTokens : Option Expr → List Token
  | none => []
  | some e => e.tokens

/-- The tokens of what a counting loop starts from. -/
def loopInitTokens : Option LoopHead → List Token
  | none => []
  | some (.decl decl) => decl.tokens true
  | some (.expr e) => if e.hasIn || e.startsLikeStmt then inParens e.tokens else e.tokens

/-- The tokens of the target of a loop over the keys of an object. -/
def LoopHead.targetTokens : LoopHead → List Token
  | .decl decl => decl.tokens true
  | .expr e => e.fit targetLevel e.tokens

/-- The tokens of the branches of a `switch`. -/
def branchesTokens : List Branch → List Token
  | [] => []
  | .mk _ test body :: rest =>
    (match test with
      | some e => .word "case" :: e.tokens
      | none => [.word "default"]) ++
      .punct ":" :: stmtsTokens body ++ branchesTokens rest

/-- The tokens of a statement. -/
def Stmt.tokens : Stmt → List Token
  | .block _ body => inBraces (stmtsTokens body)
  | .breakTo _ label => jumpTokens "break" label
  | .continueTo _ label => jumpTokens "continue" label
  | .debugger _ => [.word "debugger", .punct ";"]
  | .doWhile _ body test =>
    .word "do" :: body.tokens ++ .word "while" :: inParens test.tokens ++ [.punct ";"]
  | .empty _ => [.punct ";"]
  | .expr _ e => (if e.startsLikeStmt then inParens e.tokens else e.tokens) ++ [.punct ";"]
  | .forIn _ target object body =>
    .word "for" :: inParens (target.targetTokens ++ .word "in" :: object.tokens) ++ body.tokens
  | .forLoop _ init test step body =>
    .word "for" ::
      inParens (loopInitTokens init ++ .punct ";" :: optionTokens test ++
        .punct ";" :: optionTokens step) ++ body.tokens
  | .func _ name fn => .word "function" :: .name name :: fn.tokens
  | .ite _ test yes none => .word "if" :: inParens test.tokens ++ yes.tokens
  | .ite _ test yes (some no) =>
    .word "if" :: inParens test.tokens ++
      (if yes.endsWithOpenIf then inBraces yes.tokens else yes.tokens) ++
      .word "else" :: no.tokens
  | .label _ name body => .name name :: .punct ":" :: body.tokens
  | .ret _ value => .word "return" :: optionTokens value ++ [.punct ";"]
  | .switch _ subject branches =>
    .word "switch" :: inParens subject.tokens ++ inBraces (branchesTokens branches)
  | .throw _ value => .word "throw" :: value.tokens ++ [.punct ";"]
  | .tryCatch _ (.mk _ body) handler final =>
    .word "try" :: inBraces (stmtsTokens body) ++ handlerTokens handler ++ finalTokens final
  | .var _ decl => decl.tokens false ++ [.punct ";"]
  | .whileLoop _ test body => .word "while" :: inParens test.tokens ++ body.tokens
  | .withObject _ object body => .word "with" :: inParens object.tokens ++ body.tokens

/-- The tokens of the `catch` part of a `try` statement. -/
def handlerTokens : Option Handler → List Token
  | none => []
  | some (.mk _ param body) =>
    .word "catch" :: (param.toList.flatMap fun p => inParens [.name p]) ++
      inBraces (stmtsTokens body)

/-- The tokens of the `finally` part of a `try` statement. -/
def finalTokens : Option Block → List Token
  | none => []
  | some (.mk _ body) => .word "finally" :: inBraces (stmtsTokens body)

/-- The tokens of a list of statements. -/
def stmtsTokens : List Stmt → List Token
  | [] => []
  | s :: rest => s.tokens ++ stmtsTokens rest

end

/-- The source text of an expression. -/
def Expr.render (e : Expr) : String :=
  Token.spell e.tokens

/-- The source text of a statement. -/
def Stmt.render (s : Stmt) : String :=
  Token.spell s.tokens

/-- The source text of a program. -/
def Program.render (p : Program) : String :=
  Token.spell (stmtsTokens p.body)

end Minifier
