import Minifier.Simplify.Condition
import Minifier.Simplify.Kind

/-!
# Simplifying trees

The parts of a node are simplified first, from left to right, and then the node itself. Findings
come up in the order in which nodes are done.
-/

namespace Minifier

/-- A member access with a point instead of brackets, if the key is a plain name. -/
def indexExpr (o : Options) (pl : Place) (object key : Expr) : Expr :=
  match key with
  | .str _ name =>
    if o.properties && Text.isPlainName name then .member (.both pl.outer) object name
    else .index pl object key
  | key => .index pl object key

/-- A binary expression. The left side of an assignment is a target and not a value, so it is left
alone. -/
def binaryExpr (o : Options) (pl : Place) (op : Operator) (left right : Expr) : Expr :=
  if op.isAssignment then .binary pl op left right
  else
    let op := if o.comparisons then (op.loosened? left right).getD op else op
    (Expr.binary pl op left right).folded o

/-- A block. One statement needs no block around it. -/
def blockStmt (pl : Place) (body : List Stmt) : Stmt :=
  match body with
  | [only] => if needsBlock [only] then .block pl [only] else only
  | body => .block pl body

/-- A label. One that no jump names goes away. -/
def labelStmt (o : Options) (pl : Place) (name : String) (body : Stmt) : Report Stmt := do
  if body.labelRefs name = 0 then
    Report.note o (.labelRemoved name pl.outer)
    return body
  else return .label pl name body

mutual

/-- The simplified expression. -/
def Expr.minify (o : Options) : Expr → Report Expr
  | .binary pl op left right => do
    let left ← left.minify o
    let right ← right.minify o
    return binaryExpr o pl op left right
  | .call pl isNew callee args => do
    let callee ← callee.minify o
    let args ← minifyExprs o args
    return .call pl isNew callee args
  | .index pl object key => do
    let object ← object.minify o
    let key ← key.minify o
    return indexExpr o pl object key
  | .cond pl test yes no => do
    let test ← test.minify o
    let yes ← yes.minify o
    let no ← no.minify o
    return if o.conditionals then condExpr o pl.outer test yes no
      else .cond (.both pl.outer) test yes no
  | .func pl name fn => do
    let fn ← fn.minify o
    return .func pl name fn
  | .member pl object name => do
    let object ← object.minify o
    return .member pl object name
  | .unary pl op arg => do
    let arg ← arg.minify o
    return (Expr.unary pl op arg).folded o
  | .update pl op arg => do
    let arg ← arg.minify o
    return .update pl op arg
  | .array pl elements => do
    let elements ← minifyElements o elements
    return .array pl elements
  | .object pl members => do
    let members ← minifyMembers o members
    return .object pl members
  | .ident pl name => return .ident pl name
  | .this pl => return .this pl
  | .bool pl value => return .bool pl value
  | .null pl => return .null pl
  | .num pl value => return .num pl value
  | .regex pl text => return .regex pl text
  | .str pl value => return .str pl value
  | .undef pl => return .undef pl

/-- The simplified expressions of a list. -/
def minifyExprs (o : Options) : List Expr → Report (List Expr)
  | [] => return []
  | e :: rest => do
    let e ← e.minify o
    let rest ← minifyExprs o rest
    return e :: rest

/-- The simplified expression, if there is one. -/
def minifyOption (o : Options) : Option Expr → Report (Option Expr)
  | none => return none
  | some e => do
    let e ← e.minify o
    return some e

/-- The simplified elements of an array literal. -/
def minifyElements (o : Options) : List (Option Expr) → Report (List (Option Expr))
  | [] => return []
  | e :: rest => do
    let e ← minifyOption o e
    let rest ← minifyElements o rest
    return e :: rest

/-- The function with its body simplified. -/
def Func.minify (o : Options) : Func → Report Func
  | .mk span params body => do
    let body ← minifyStmts o body
    let body ← tighten o body
    return .mk span params body

/-- The simplified members of an object literal. -/
def minifyMembers (o : Options) : List Member → Report (List Member)
  | [] => return []
  | .value span key e :: rest => do
    let e ← e.minify o
    let rest ← minifyMembers o rest
    return .value span key e :: rest
  | .getter span key fn :: rest => do
    let fn ← fn.minify o
    let rest ← minifyMembers o rest
    return .getter span key fn :: rest
  | .setter span key fn :: rest => do
    let fn ← fn.minify o
    let rest ← minifyMembers o rest
    return .setter span key fn :: rest

/-- Declared names with their initial values simplified. -/
def minifyDeclarators (o : Options) : List Declarator → Report (List Declarator)
  | [] => return []
  | .mk name init :: rest => do
    let init ← minifyOption o init
    let rest ← minifyDeclarators o rest
    return .mk name init :: rest

/-- The declaration with its initial values simplified. -/
def VarDecl.minify (o : Options) : VarDecl → Report VarDecl
  | .mk span mode declarators => do
    let declarators ← minifyDeclarators o declarators
    return .mk span mode declarators

/-- The simplified head of a loop. -/
def LoopHead.minify (o : Options) : LoopHead → Report LoopHead
  | .decl d => do
    let d ← d.minify o
    return .decl d
  | .expr e => do
    let e ← e.minify o
    return .expr e

/-- The simplified head of a loop, if there is one. -/
def minifyLoopInit (o : Options) : Option LoopHead → Report (Option LoopHead)
  | none => return none
  | some head => do
    let head ← head.minify o
    return some head

/-- The simplified branches of a `switch`. -/
def minifyBranches (o : Options) : List Branch → Report (List Branch)
  | [] => return []
  | .mk span test body :: rest => do
    let test ← minifyOption o test
    let body ← minifyStmts o body
    let body ← tighten o body
    let rest ← minifyBranches o rest
    return .mk span test body :: rest

/-- The block of a `try` statement with its body simplified. -/
def Block.minify (o : Options) : Block → Report Block
  | .mk span body => do
    let body ← minifyStmts o body
    let body ← tighten o body
    return .mk span body

/-- The simplified `catch` part of a `try` statement, if there is one. -/
def minifyHandler (o : Options) : Option Handler → Report (Option Handler)
  | none => return none
  | some (.mk span param body) => do
    let body ← minifyStmts o body
    let body ← tighten o body
    return some (.mk span param body)

/-- The simplified `finally` part of a `try` statement, if there is one. -/
def minifyFinal (o : Options) : Option Block → Report (Option Block)
  | none => return none
  | some block => do
    let block ← block.minify o
    return some block

/-- The simplified statement. -/
def Stmt.minify (o : Options) : Stmt → Report Stmt
  | .block pl body => do
    let body ← minifyStmts o body
    let body ← tighten o body
    return blockStmt pl body
  | .breakTo pl label => return .breakTo pl label
  | .continueTo pl label => return .continueTo pl label
  | .debugger pl => return if o.dropDebugger then .empty (.both pl.outer) else .debugger pl
  | .doWhile pl body test => do
    let body ← body.minify o
    let test ← test.minify o
    return .doWhile pl body test
  | .empty pl => return .empty pl
  | .expr pl e => do
    let e ← e.minify o
    return .expr pl e
  | .forIn pl target object body => do
    let target ← target.minify o
    let object ← object.minify o
    let body ← body.minify o
    return .forIn pl target object body
  | .forLoop pl init test step body => do
    let init ← minifyLoopInit o init
    let test ← minifyOption o test
    let step ← minifyOption o step
    let body ← body.minify o
    return .forLoop pl init test step body
  | .func pl name fn => do
    let fn ← fn.minify o
    return .func pl name fn
  | .ite pl test yes no => do
    let test ← test.minify o
    let yes ← yes.minify o
    let no ← minifyElse o no
    if o.conditionals then simplifyIf o pl.outer test yes no
    else return ifStmt pl.outer test yes no
  | .label pl name body => do
    let body ← body.minify o
    labelStmt o pl name body
  | .ret pl value => do
    let value ← minifyOption o value
    return .ret pl value
  | .switch pl subject branches => do
    let subject ← subject.minify o
    let branches ← minifyBranches o branches
    return .switch pl subject branches
  | .throw pl value => do
    let value ← value.minify o
    return .throw pl value
  | .tryCatch pl body handler final => do
    let body ← body.minify o
    let handler ← minifyHandler o handler
    let final ← minifyFinal o final
    return .tryCatch pl body handler final
  | .var outer decl => do
    let decl ← decl.minify o
    return .var outer decl
  | .whileLoop pl test body => do
    let test ← test.minify o
    let body ← body.minify o
    return .whileLoop pl test body
  | .withObject pl object body => do
    let object ← object.minify o
    let body ← body.minify o
    return .withObject pl object body

/-- The simplified `else` branch, if there is one. -/
def minifyElse (o : Options) : Option Stmt → Report (Option Stmt)
  | none => return none
  | some s => do
    let s ← s.minify o
    return some s

/-- The simplified statements of a list, each for itself. -/
def minifyStmts (o : Options) : List Stmt → Report (List Stmt)
  | [] => return []
  | s :: rest => do
    let s ← s.minify o
    let rest ← minifyStmts o rest
    return s :: rest

end

/-- A simplified list of statements. -/
def minifyBody (o : Options) (body : List Stmt) : Report (List Stmt) := do
  let body ← minifyStmts o body
  tighten o body

/-- A simplified program. -/
def Program.minify (o : Options) (p : Program) : Report Program := do
  let body ← minifyBody o p.body
  return ⟨p.span, body⟩

end Minifier
