import Minifier.Syntax

/-!
# Marks in a tree

Two questions about a tree need a walk through all of it, function bodies included: whether some
binary operator is `in`, and how many jumps name a label. Both are answered from the list of its
*marks*, the binary operators and the jumps that occur in it.
-/

namespace Minifier

/-- Something that occurs in a tree. -/
inductive Mark
  | operator (op : Operator)
  | jump (label : Option String)
deriving DecidableEq, Repr

mutual

/-- The marks of an expression, from the outside in and from left to right. -/
def Expr.marks : Expr → List Mark
  | .binary _ op l r => .operator op :: (l.marks ++ r.marks)
  | .call _ _ callee args => callee.marks ++ exprsMarks args
  | .index _ object key => object.marks ++ key.marks
  | .cond _ test yes no => test.marks ++ yes.marks ++ no.marks
  | .func _ _ fn => fn.marks
  | .member _ object _ => object.marks
  | .unary _ _ arg => arg.marks
  | .update _ _ arg => arg.marks
  | .array _ elements => elementsMarks elements
  | .object _ members => membersMarks members
  | .ident _ _ | .this _ | .bool _ _ | .null _ | .num _ _ | .regex _ _ | .str _ _ | .undef _ => []

/-- The marks of a list of expressions. -/
def exprsMarks : List Expr → List Mark
  | [] => []
  | e :: rest => e.marks ++ exprsMarks rest

/-- The marks of an expression that may be absent. -/
def optionMarks : Option Expr → List Mark
  | none => []
  | some e => e.marks

/-- The marks of the elements of an array literal. -/
def elementsMarks : List (Option Expr) → List Mark
  | [] => []
  | e :: rest => optionMarks e ++ elementsMarks rest

/-- The marks of a function. -/
def Func.marks : Func → List Mark
  | .mk _ _ body => stmtsMarks body

/-- The marks of the members of an object literal. -/
def membersMarks : List Member → List Mark
  | [] => []
  | .value _ _ e :: rest => e.marks ++ membersMarks rest
  | .getter _ _ fn :: rest => fn.marks ++ membersMarks rest
  | .setter _ _ fn :: rest => fn.marks ++ membersMarks rest

/-- The marks of declared names. -/
def declaratorsMarks : List Declarator → List Mark
  | [] => []
  | .mk _ init :: rest => optionMarks init ++ declaratorsMarks rest

/-- The marks of a declaration. -/
def VarDecl.marks : VarDecl → List Mark
  | .mk _ _ declarators => declaratorsMarks declarators

/-- The marks of the head of a loop. -/
def LoopHead.marks : LoopHead → List Mark
  | .decl decl => decl.marks
  | .expr e => e.marks

/-- The marks of the branches of a `switch`. -/
def branchesMarks : List Branch → List Mark
  | [] => []
  | .mk _ test body :: rest => optionMarks test ++ stmtsMarks body ++ branchesMarks rest

/-- The marks of a statement. -/
def Stmt.marks : Stmt → List Mark
  | .block _ body => stmtsMarks body
  | .breakTo _ label => [.jump label]
  | .continueTo _ label => [.jump label]
  | .debugger _ | .empty _ => []
  | .doWhile _ body test => test.marks ++ body.marks
  | .expr _ e => e.marks
  | .forIn _ target object body => target.marks ++ object.marks ++ body.marks
  | .forLoop _ none test step body => optionMarks test ++ optionMarks step ++ body.marks
  | .forLoop _ (some init) test step body =>
    init.marks ++ optionMarks test ++ optionMarks step ++ body.marks
  | .func _ _ fn => fn.marks
  | .ite _ test yes none => test.marks ++ yes.marks
  | .ite _ test yes (some no) => test.marks ++ yes.marks ++ no.marks
  | .label _ _ body => body.marks
  | .ret _ value => optionMarks value
  | .switch _ subject branches => subject.marks ++ branchesMarks branches
  | .throw _ value => value.marks
  | .tryCatch _ (.mk _ body) handler final =>
    stmtsMarks body ++ handlerMarks handler ++ blockMarks final
  | .var _ decl => decl.marks
  | .whileLoop _ test body => test.marks ++ body.marks
  | .withObject _ object body => object.marks ++ body.marks

/-- The marks of the `catch` part of a `try` statement. -/
def handlerMarks : Option Handler → List Mark
  | none => []
  | some (.mk _ _ body) => stmtsMarks body

/-- The marks of the `finally` part of a `try` statement. -/
def blockMarks : Option Block → List Mark
  | none => []
  | some (.mk _ body) => stmtsMarks body

/-- The marks of a list of statements. -/
def stmtsMarks : List Stmt → List Mark
  | [] => []
  | s :: rest => s.marks ++ stmtsMarks rest

end

/-- Whether the operator `in` occurs anywhere in an expression. -/
def Expr.hasIn (e : Expr) : Bool :=
  e.marks.contains (.operator .isIn)

/-- How many jumps in a statement name the given label. -/
def Stmt.labelRefs (s : Stmt) (label : String) : Nat :=
  s.marks.count (.jump (some label))

end Minifier
