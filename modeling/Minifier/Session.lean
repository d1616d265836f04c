import Minifier.Session.Basic
import Minifier.Simplify

/-!
# Simplifying in a session

A session goes through a tree node by node. A node with parts is entered, then its parts are
simplified and the rules for the node are applied, and then it is left again. Bodies of functions,
branches of a `switch` and `catch` parts are entered on their own as well.
-/

namespace Minifier

namespace Session

/-- Looks at the options. -/
def settings : StateM Session Options := do
  let s ← get
  return s.options

/-- Applies a rule. -/
def apply {α : Type} (rule : Options → Report α) : StateM Session α :=
  fun s => s.run rule

/-- Does something inside a node. -/
def within {α : Type} (a : Ancestor) (step : StateM Session α) : StateM Session α := do
  modify fun s => s.enter a
  let x ← step
  modify leave
  return x

/-- Does something inside a node of the given kind, or where it is if there is none. -/
def withinKind {α : Type} (kind? : Option NodeKind) (span : Span) (step : StateM Session α) :
    StateM Session α :=
  match kind? with
  | some kind => within ⟨kind, span⟩ step
  | none => step

end Session

open Session

mutual

/-- Simplifies an expression. -/
def Expr.visit (e : Expr) : StateM Session Expr :=
  withinKind e.kind? e.span <| match e with
  | .binary pl op left right => do
    let left ← left.visit
    let right ← right.visit
    return binaryExpr (← settings) pl op left right
  | .call pl isNew callee args => do
    let callee ← callee.visit
    let args ← visitExprs args
    return .call pl isNew callee args
  | .index pl object key => do
    let object ← object.visit
    let key ← key.visit
    return indexExpr (← settings) pl object key
  | .cond pl test yes no => do
    let test ← test.visit
    let yes ← yes.visit
    let no ← no.visit
    let o ← settings
    return if o.conditionals then condExpr o pl.outer test yes no
      else .cond (.both pl.outer) test yes no
  | .func pl name fn => do
    let fn ← fn.visit
    return .func pl name fn
  | .member pl object name => do
    let object ← object.visit
    return .member pl object name
  | .unary pl op arg => do
    let arg ← arg.visit
    return (Expr.unary pl op arg).folded (← settings)
  | .update pl op arg => do
    let arg ← arg.visit
    return .update pl op arg
  | .array pl elements => do
    let elements ← visitElements elements
    return .array pl elements
  | .object pl members => do
    let members ← visitMembers members
    return .object pl members
  | .ident pl name => return .ident pl name
  | .this pl => return .this pl
  | .bool pl value => return .bool pl value
  | .null pl => return .null pl
  | .num pl value => return .num pl value
  | .regex pl text => return .regex pl text
  | .str pl value => return .str pl value
  | .undef pl => return .undef pl

/-- Simplifies the expressions of a list. -/
def visitExprs : List Expr → StateM Session (List Expr)
  | [] => return []
  | e :: rest => do
    let e ← e.visit
    let rest ← visitExprs rest
    return e :: rest

/-- Simplifies an expression, if there is one. -/
def visitOption : Option Expr → StateM Session (Option Expr)
  | none => return none
  | some e => do
    let e ← e.visit
    return some e

/-- Simplifies the elements of an array literal. -/
def visitElements : List (Option Expr) → StateM Session (List (Option Expr))
  | [] => return []
  | e :: rest => do
    let e ← visitOption e
    let rest ← visitElements rest
    return e :: rest

/-- Simplifies the body of a function. -/
def Func.visit : Func → StateM Session Func
  | .mk span params body => within ⟨.func, span⟩ do
    let body ← visitStmts body
    let body ← apply fun o => tighten o body
    return .mk span params body

/-- Simplifies the members of an object literal. -/
def visitMembers : List Member → StateM Session (List Member)
  | [] => return []
  | .value span key e :: rest => do
    let e ← e.visit
    let rest ← visitMembers rest
    return .value span key e :: rest
  | .getter span key fn :: rest => do
    let fn ← fn.visit
    let rest ← visitMembers rest
    return .getter span key fn :: rest
  | .setter span key fn :: rest => do
    let fn ← fn.visit
    let rest ← visitMembers rest
    return .setter span key fn :: rest

/-- Simplifies the initial values of declared names. -/
def visitDeclarators : List Declarator → StateM Session (List Declarator)
  | [] => return []
  | .mk name init :: rest => do
    let init ← visitOption init
    let rest ← visitDeclarators rest
    return .mk name init :: rest

/-- Simplifies the initial values of a declaration. -/
def VarDecl.visit : VarDecl → StateM Session VarDecl
  | .mk span mode declarators => do
    let declarators ← visitDeclarators declarators
    return .mk span mode declarators

/-- Simplifies the head of a loop. -/
def LoopHead.visit : LoopHead → StateM Session LoopHead
  | .decl d => do
    let d ← d.visit
    return .decl d
  | .expr e => do
    let e ← e.visit
    return .expr e

/-- Simplifies the head of a loop, if there is one. -/
def visitLoopInit : Option LoopHead → StateM Session (Option LoopHead)
  | none => return none
  | some head => do
    let head ← head.visit
    return some head

/-- Simplifies the branches of a `switch`. -/
def visitBranches : List Branch → StateM Session (List Branch)
  | [] => return []
  | .mk span test body :: rest => do
    let branch ← within ⟨.branch, span⟩ do
      let test ← visitOption test
      let body ← visitStmts body
      let body ← apply fun o => tighten o body
      return Branch.mk span test body
    let rest ← visitBranches rest
    return branch :: rest

/-- Simplifies the body of a block of a `try` statement. -/
def Block.visit : Block → StateM Session Block
  | .mk span body => do
    let body ← visitStmts body
    let body ← apply fun o => tighten o body
    return .mk span body

/-- Simplifies the `catch` part of a `try` statement, if there is one. -/
def visitHandler : Option Handler → StateM Session (Option Handler)
  | none => return none
  | some (.mk span param body) => within ⟨.handler, span⟩ do
    let body ← visitStmts body
    let body ← apply fun o => tighten o body
    return some (.mk span param body)

/-- Simplifies the `finally` part of a `try` statement, if there is one. -/
def visitFinal : Option Block → StateM Session (Option Block)
  | none => return none
  | some block => do
    let block ← block.visit
    return some block

/-- Simplifies a statement. -/
def Stmt.visit (s : Stmt) : StateM Session Stmt :=
  withinKind s.kind? s.span <| match s with
  | .block pl body => do
    let body ← visitStmts body
    let body ← apply fun o => tighten o body
    return blockStmt pl body
  | .breakTo pl label => return .breakTo pl label
  | .continueTo pl label => return .continueTo pl label
  | .debugger pl => do
    let o ← settings
    return if o.dropDebugger then .empty (.both pl.outer) else .debugger pl
  | .doWhile pl body test => do
    let body ← body.visit
    let test ← test.visit
    return .doWhile pl body test
  | .empty pl => return .empty pl
  | .expr pl e => do
    let e ← e.visit
    return .expr pl e
  | .forIn pl target object body => do
    let target ← target.visit
    let object ← object.visit
    let body ← body.visit
    return .forIn pl target object body
  | .forLoop pl init test step body => do
    let init ← visitLoopInit init
    let test ← visitOption test
    let step ← visitOption step
    let body ← body.visit
    return .forLoop pl init test step body
  | .func pl name fn => do
    let fn ← fn.visit
    return .func pl name fn
  | .ite pl test yes no => do
    let test ← test.visit
    let yes ← yes.visit
    let no ← visitElse no
    if (← settings).conditionals then apply fun o => simplifyIf o pl.outer test yes no
    else return ifStmt pl.outer test yes no
  | .label pl name body => do
    let body ← body.visit
    apply fun o => labelStmt o pl name body
  | .ret pl value => do
    let value ← visitOption value
    return .ret pl value
  | .switch pl subject branches => do
    let subject ← subject.visit
    let branches ← visitBranches branches
    return .switch pl subject branches
  | .throw pl value => do
    let value ← value.visit
    return .throw pl value
  | .tryCatch pl body handler final => do
    let body ← body.visit
    let handler ← visitHandler handler
    let final ← visitFinal final
    return .tryCatch pl body handler final
  | .var outer decl => do
    let decl ← decl.visit
    return .var outer decl
  | .whileLoop pl test body => do
    let test ← test.visit
    let body ← body.visit
    return .whileLoop pl test body
  | .withObject pl object body => do
    let object ← object.visit
    let body ← body.visit
    return .withObject pl object body

/-- Simplifies an `else` branch, if there is one. -/
def visitElse : Option Stmt → StateM Session (Option Stmt)
  | none => return none
  | some s => do
    let s ← s.visit
    return some s

/-- Simplifies the statements of a list, each for itself. -/
def visitStmts : List Stmt → StateM Session (List Stmt)
  | [] => return []
  | s :: rest => do
    let s ← s.visit
    let rest ← visitStmts rest
    return s :: rest

end

/-- Simplifies a list of statements. -/
def visitBody (body : List Stmt) : StateM Session (List Stmt) := do
  let body ← visitStmts body
  apply fun o => tighten o body

/-- Simplifies a program. -/
def Program.visit (p : Program) : StateM Session Program := do
  let body ← within ⟨.program, p.span⟩ (visitBody p.body)
  return ⟨p.span, body⟩

namespace Session

/-- Simplifies an expression. -/
def minifyExpr (s : Session) (e : Expr) : Expr × Session :=
  e.visit.run s

/-- Simplifies a statement. -/
def minifyStmt (s : Session) (stmt : Stmt) : Stmt × Session :=
  stmt.visit.run s

/-- Simplifies a list of statements. -/
def minifyBody (s : Session) (body : List Stmt) : List Stmt × Session :=
  (visitBody body).run s

/-- Simplifies a program. -/
def minifyProgram (s : Session) (p : Program) : Program × Session :=
  p.visit.run s

end Session

end Minifier
