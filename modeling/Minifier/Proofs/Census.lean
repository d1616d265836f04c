import Mathlib.Data.Multiset.OrderedMonoid
import Minifier.Syntax

/-!
# Taking stock of a tree

A census goes through all of a tree, function bodies included, and takes down something at every
expression and something at every function. What it takes down at an expression depends on the head
of the expression alone, that is on its form and on what it holds besides its parts.
-/

namespace Minifier

/-- The head of an expression: its form, with what it holds besides its parts. -/
inductive Head
  | binary (op : Operator)
  | call (isNew : Bool)
  | ident (name : String)
  | this
  | unary (op : Operator)
  | update (op : Operator)
  | regex (text : String)
  | other
deriving DecidableEq, Repr

/-- What is taken down at an expression, and at a function. -/
structure Census (α : Type) where
  atHead : Head → Multiset α
  atFunc : Func → Multiset α

variable {α : Type}

mutual

/-- The census of an expression. -/
def Expr.census (c : Census α) : Expr → Multiset α
  | .binary _ op left right => c.atHead (.binary op) + (left.census c + right.census c)
  | .call _ isNew callee args => c.atHead (.call isNew) + (callee.census c + exprsCensus c args)
  | .index _ object key => c.atHead .other + (object.census c + key.census c)
  | .cond _ test yes no => c.atHead .other + (test.census c + yes.census c + no.census c)
  | .func _ _ fn => c.atHead .other + fn.census c
  | .ident _ name => c.atHead (.ident name)
  | .member _ object _ => c.atHead .other + object.census c
  | .this _ => c.atHead .this
  | .unary _ op arg => c.atHead (.unary op) + arg.census c
  | .update _ op arg => c.atHead (.update op) + arg.census c
  | .array _ elements => c.atHead .other + elementsCensus c elements
  | .object _ members => c.atHead .other + membersCensus c members
  | .regex _ text => c.atHead (.regex text)
  | .bool _ _ | .null _ | .num _ _ | .str _ _ | .undef _ => c.atHead .other

/-- The census of a list of expressions. -/
def exprsCensus (c : Census α) : List Expr → Multiset α
  | [] => 0
  | e :: rest => e.census c + exprsCensus c rest

/-- The census of an expression that may be absent. -/
def optionCensus (c : Census α) : Option Expr → Multiset α
  | none => 0
  | some e => e.census c

/-- The census of the elements of an array literal. -/
def elementsCensus (c : Census α) : List (Option Expr) → Multiset α
  | [] => 0
  | e :: rest => optionCensus c e + elementsCensus c rest

/-- The census of a function, which it is part of itself. -/
def Func.census (c : Census α) : Func → Multiset α
  | .mk span params body => c.atFunc (.mk span params body) + stmtsCensus c body

/-- The census of the members of an object literal. -/
def membersCensus (c : Census α) : List Member → Multiset α
  | [] => 0
  | .value _ _ e :: rest => e.census c + membersCensus c rest
  | .getter _ _ fn :: rest => fn.census c + membersCensus c rest
  | .setter _ _ fn :: rest => fn.census c + membersCensus c rest

/-- The census of declared names. -/
def declaratorsCensus (c : Census α) : List Declarator → Multiset α
  | [] => 0
  | .mk _ init :: rest => optionCensus c init + declaratorsCensus c rest

/-- The census of a declaration. -/
def VarDecl.census (c : Census α) : VarDecl → Multiset α
  | .mk _ _ declarators => declaratorsCensus c declarators

/-- The census of the head of a loop. -/
def LoopHead.census (c : Census α) : LoopHead → Multiset α
  | .decl d => d.census c
  | .expr e => e.census c

/-- The census of what a counting loop starts from. -/
def loopInitCensus (c : Census α) : Option LoopHead → Multiset α
  | none => 0
  | some head => head.census c

/-- The census of the branches of a `switch`. -/
def branchesCensus (c : Census α) : List Branch → Multiset α
  | [] => 0
  | .mk _ test body :: rest =>
    optionCensus c test + stmtsCensus c body + branchesCensus c rest

/-- The census of a block of a `try` statement. -/
def Block.census (c : Census α) : Block → Multiset α
  | .mk _ body => stmtsCensus c body

/-- The census of the `catch` part of a `try` statement. -/
def handlerCensus (c : Census α) : Option Handler → Multiset α
  | none => 0
  | some (.mk _ _ body) => stmtsCensus c body

/-- The census of the `finally` part of a `try` statement. -/
def finalCensus (c : Census α) : Option Block → Multiset α
  | none => 0
  | some block => block.census c

/-- The census of a statement. -/
def Stmt.census (c : Census α) : Stmt → Multiset α
  | .block _ body => stmtsCensus c body
  | .doWhile _ body test => body.census c + test.census c
  | .expr _ e => e.census c
  | .forIn _ target object body => target.census c + object.census c + body.census c
  | .forLoop _ init test step body =>
    loopInitCensus c init + optionCensus c test + optionCensus c step + body.census c
  | .func _ _ fn => fn.census c
  | .ite _ test yes no => test.census c + yes.census c + elseCensus c no
  | .label _ _ body => body.census c
  | .ret _ value => optionCensus c value
  | .switch _ subject branches => subject.census c + branchesCensus c branches
  | .throw _ value => value.census c
  | .tryCatch _ body handler final =>
    body.census c + handlerCensus c handler + finalCensus c final
  | .var _ decl => decl.census c
  | .whileLoop _ test body => test.census c + body.census c
  | .withObject _ object body => object.census c + body.census c
  | .breakTo _ _ | .continueTo _ _ | .debugger _ | .empty _ => 0

/-- The census of an `else` branch. -/
def elseCensus (c : Census α) : Option Stmt → Multiset α
  | none => 0
  | some s => s.census c

/-- The census of a list of statements. -/
def stmtsCensus (c : Census α) : List Stmt → Multiset α
  | [] => 0
  | s :: rest => s.census c + stmtsCensus c rest

end

attribute [simp] Expr.census exprsCensus optionCensus elementsCensus Func.census membersCensus
  declaratorsCensus VarDecl.census LoopHead.census loopInitCensus branchesCensus Block.census
  handlerCensus finalCensus Stmt.census elseCensus stmtsCensus

/-- The census that takes down something else instead. -/
def Census.map {β : Type} (f : α → β) (c : Census α) : Census β :=
  ⟨fun h => (c.atHead h).map f, fun fn => (c.atFunc fn).map f⟩

section Map

variable {β : Type} (f : α → β) (c : Census α)

theorem Census.atHead_map (h : Head) : (c.map f).atHead h = (c.atHead h).map f := rfl

theorem Census.atFunc_map (fn : Func) : (c.map f).atFunc fn = (c.atFunc fn).map f := rfl

mutual

/-- What is gathered from an expression can be changed while it is gathered or afterwards. -/
theorem Expr.census_map : (e : Expr) → e.census (c.map f) = (e.census c).map f
  | .binary _ _ left right => by
    simp only [Expr.census, Multiset.map_add, left.census_map, right.census_map, Census.atHead_map]
  | .call _ _ callee args => by
    simp only [Expr.census, Multiset.map_add, callee.census_map, exprsCensus_map args, Census.atHead_map]
  | .index _ object key => by
    simp only [Expr.census, Multiset.map_add, object.census_map, key.census_map, Census.atHead_map]
  | .cond _ test yes no => by
    simp only [Expr.census, Multiset.map_add, test.census_map, yes.census_map, no.census_map,
      Census.atHead_map]
  | .func _ _ fn => by simp only [Expr.census, Multiset.map_add, fn.census_map, Census.atHead_map]
  | .member _ object _ => by
    simp only [Expr.census, Multiset.map_add, object.census_map, Census.atHead_map]
  | .unary _ _ arg | .update _ _ arg => by
    simp only [Expr.census, Multiset.map_add, arg.census_map, Census.atHead_map]
  | .array _ elements => by
    simp only [Expr.census, Multiset.map_add, elementsCensus_map elements, Census.atHead_map]
  | .object _ members => by
    simp only [Expr.census, Multiset.map_add, membersCensus_map members, Census.atHead_map]
  | .ident _ _ | .this _ | .bool _ _ | .null _ | .num _ _ | .regex _ _ | .str _ _ | .undef _ => rfl

theorem exprsCensus_map : (args : List Expr) →
    exprsCensus (c.map f) args = (exprsCensus c args).map f
  | [] => rfl
  | e :: rest => by simp only [exprsCensus, Multiset.map_add, e.census_map, exprsCensus_map rest]

theorem optionCensus_map : (e : Option Expr) → optionCensus (c.map f) e = (optionCensus c e).map f
  | none => rfl
  | some e => e.census_map

theorem elementsCensus_map : (elements : List (Option Expr)) →
    elementsCensus (c.map f) elements = (elementsCensus c elements).map f
  | [] => rfl
  | e :: rest => by
    simp only [elementsCensus, Multiset.map_add, optionCensus_map e, elementsCensus_map rest]

/-- The same for a function with its body. -/
theorem Func.census_map : (fn : Func) → fn.census (c.map f) = (fn.census c).map f
  | .mk _ _ body => by simp only [Func.census, Multiset.map_add, stmtsCensus_map body, Census.atFunc_map]

theorem membersCensus_map : (members : List Member) →
    membersCensus (c.map f) members = (membersCensus c members).map f
  | [] => rfl
  | .value _ _ e :: rest => by
    simp only [membersCensus, Multiset.map_add, e.census_map, membersCensus_map rest]
  | .getter _ _ fn :: rest | .setter _ _ fn :: rest => by
    simp only [membersCensus, Multiset.map_add, fn.census_map, membersCensus_map rest]

theorem declaratorsCensus_map : (declarators : List Declarator) →
    declaratorsCensus (c.map f) declarators = (declaratorsCensus c declarators).map f
  | [] => rfl
  | .mk _ init :: rest => by
    simp only [declaratorsCensus, Multiset.map_add, optionCensus_map init,
      declaratorsCensus_map rest]

theorem VarDecl.census_map : (decl : VarDecl) → decl.census (c.map f) = (decl.census c).map f
  | .mk _ _ declarators => declaratorsCensus_map declarators

theorem LoopHead.census_map : (head : LoopHead) → head.census (c.map f) = (head.census c).map f
  | .decl d => d.census_map
  | .expr e => e.census_map

theorem loopInitCensus_map : (init : Option LoopHead) →
    loopInitCensus (c.map f) init = (loopInitCensus c init).map f
  | none => rfl
  | some head => head.census_map

theorem branchesCensus_map : (branches : List Branch) →
    branchesCensus (c.map f) branches = (branchesCensus c branches).map f
  | [] => rfl
  | .mk _ test body :: rest => by
    simp only [branchesCensus, Multiset.map_add, optionCensus_map test, stmtsCensus_map body,
      branchesCensus_map rest]

theorem Block.census_map : (block : Block) → block.census (c.map f) = (block.census c).map f
  | .mk _ body => stmtsCensus_map body

theorem handlerCensus_map : (handler : Option Handler) →
    handlerCensus (c.map f) handler = (handlerCensus c handler).map f
  | none => rfl
  | some (.mk _ _ body) => stmtsCensus_map body

theorem finalCensus_map : (final : Option Block) →
    finalCensus (c.map f) final = (finalCensus c final).map f
  | none => rfl
  | some block => block.census_map

/-- The same for a statement and everything in it. -/
theorem Stmt.census_map : (s : Stmt) → s.census (c.map f) = (s.census c).map f
  | .block _ body => stmtsCensus_map body
  | .doWhile _ body test => by
    simp only [Stmt.census, Multiset.map_add, body.census_map, test.census_map]
  | .expr _ e => e.census_map
  | .forIn _ target object body => by
    simp only [Stmt.census, Multiset.map_add, target.census_map, object.census_map, body.census_map]
  | .forLoop _ init test step body => by
    simp only [Stmt.census, Multiset.map_add, loopInitCensus_map init, optionCensus_map test,
      optionCensus_map step, body.census_map]
  | .func _ _ fn => fn.census_map
  | .ite _ test yes no => by
    simp only [Stmt.census, Multiset.map_add, test.census_map, yes.census_map, elseCensus_map no]
  | .label _ _ body => body.census_map
  | .ret _ value => optionCensus_map value
  | .switch _ subject branches => by
    simp only [Stmt.census, Multiset.map_add, subject.census_map, branchesCensus_map branches]
  | .throw _ value => value.census_map
  | .tryCatch _ body handler final => by
    simp only [Stmt.census, Multiset.map_add, body.census_map, handlerCensus_map handler,
      finalCensus_map final]
  | .var _ decl => decl.census_map
  | .whileLoop _ test body => by
    simp only [Stmt.census, Multiset.map_add, test.census_map, body.census_map]
  | .withObject _ object body => by
    simp only [Stmt.census, Multiset.map_add, object.census_map, body.census_map]
  | .breakTo _ _ | .continueTo _ _ | .debugger _ | .empty _ => rfl

theorem elseCensus_map : (no : Option Stmt) → elseCensus (c.map f) no = (elseCensus c no).map f
  | none => rfl
  | some s => s.census_map

/-- The same for a list of statements. -/
theorem stmtsCensus_map : (body : List Stmt) →
    stmtsCensus (c.map f) body = (stmtsCensus c body).map f
  | [] => rfl
  | s :: rest => by simp only [stmtsCensus, Multiset.map_add, s.census_map, stmtsCensus_map rest]

end

end Map

/-- The census that lists the functions. -/
def Census.functions : Census Func :=
  ⟨fun _ => 0, fun fn => {fn}⟩

/-- The functions that occur in an expression, the nested ones included. -/
def Expr.functions (e : Expr) : Multiset Func :=
  e.census .functions

/-- The functions that occur in a statement, the nested ones included. -/
def Stmt.functions (s : Stmt) : Multiset Func :=
  s.census .functions

/-- The functions that occur in a list of statements, the nested ones included. -/
def stmtsFunctions (body : List Stmt) : Multiset Func :=
  stmtsCensus .functions body

end Minifier
