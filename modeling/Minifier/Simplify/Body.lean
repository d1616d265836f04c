import Minifier.Report
import Minifier.Simplify.Hoisted

/-!
# Statement lists

Three changes to a list of statements: blocks that need not be blocks are unwrapped, statements
that cannot be reached are dropped, and expression statements are joined with commas. A declaration
in unreachable code stays in force, so what is left of it is kept.
-/

namespace Minifier

/-- Whether a block must stay a block, since unwrapping it would change the scope of a name. -/
def needsBlock (body : List Stmt) : Bool :=
  body.any Stmt.isScoped

/-- A statement as part of a list: a block that need not be one gives its statements, and an empty
statement gives none. -/
def Stmt.unwrapped : Stmt → List Stmt
  | .block pl body => if needsBlock body then [.block pl body] else body
  | .empty _ => []
  | s => [s]

/-- The list with the blocks unwrapped that need not be blocks. -/
def unwrapBlocks (stmts : List Stmt) : List Stmt :=
  stmts.flatMap Stmt.unwrapped

/-- Whether control never goes on to the next statement. -/
def Stmt.isJump : Stmt → Bool
  | .breakTo _ _ | .continueTo _ _ | .ret _ _ | .throw _ _ => true
  | _ => false

/-- The statements up to the first jump, and those behind it. -/
def splitAtJump : List Stmt → List Stmt × List Stmt
  | [] => ([], [])
  | s :: rest =>
    if s.isJump then ([s], rest)
    else
      let (reached, unreached) := splitAtJump rest
      (s :: reached, unreached)

/-- The declarations that an unreachable statement leaves behind. One that stands in the list itself
is kept whatever its mode. -/
def Stmt.leftOver : Stmt → List Hoisted
  | .var _ decl => [.var decl]
  | s => s.hoisted

/-- Keeps a declaration from unreachable code. -/
def Hoisted.keep (o : Options) (h : Hoisted) : Report Stmt := do
  Report.note o (.unreachableDeclaration h.hasInit h.span)
  return h.toStmt

/-- What is kept of an unreachable statement. A function declaration stays as it is. -/
def Stmt.keepUnreachable (o : Options) : Stmt → Report (List Stmt)
  | .func pl name fn => return [.func pl name fn]
  | s => s.leftOver.mapM (Hoisted.keep o)

/-- What is kept of a list of unreachable statements. -/
def keepAllUnreachable (o : Options) : List Stmt → Report (List Stmt)
  | [] => return []
  | s :: rest => do
    let kept ← s.keepUnreachable o
    let more ← keepAllUnreachable o rest
    return kept ++ more

/-- The list without the statements behind a jump, but for declarations. -/
def dropUnreachable (o : Options) (stmts : List Stmt) : Report (List Stmt) := do
  let (reached, unreached) := splitAtJump stmts
  let kept ← keepAllUnreachable o unreached
  return reached ++ kept

/-- Two expressions with a comma between them. -/
def Expr.comma (span : Span) (first second : Expr) : Expr :=
  .binary (.both span) .comma first second

/-- Joins runs of expression statements. `pending` is the run at hand: its place, and its
expression. -/
def joinRuns : Option (Place × Expr) → List Stmt → List Stmt
  | none, [] => []
  | some (pl, e), [] => [.expr pl e]
  | none, .expr pl e :: rest => joinRuns (some (pl, e)) rest
  | some (pl, first), .expr next second :: rest =>
    let span := pl.outer.cover next.outer
    joinRuns (some (.both span, .comma span first second)) rest
  | none, s :: rest => s :: joinRuns none rest
  | some (pl, e), s :: rest => .expr pl e :: s :: joinRuns none rest

/-- Joins expression statements with commas. If that leaves one expression and a final `return` or
`throw` with a value, the expression goes into the value. -/
def fuse (stmts : List Stmt) : List Stmt :=
  match joinRuns none stmts with
  | [.expr pl first, .ret last (some value)] =>
    [.ret ⟨pl.outer.cover last.outer, last.inner⟩
      (some (.comma (pl.outer.cover value.span) first value))]
  | [.expr pl first, .throw last value] =>
    [.throw ⟨pl.outer.cover last.outer, last.inner⟩
      (.comma (pl.outer.cover value.span) first value)]
  | joined => joined

/-- All changes to a list of statements that are simplified themselves, as far as they are
enabled. -/
def tighten (o : Options) (stmts : List Stmt) : Report (List Stmt) := do
  let unwrapped := unwrapBlocks stmts
  let reached ← if o.deadCode then dropUnreachable o unwrapped else pure unwrapped
  return if o.sequences then fuse reached else reached

end Minifier
