import Minifier.Syntax

/-!
# Hoisted declarations

Declarations that stay in force even if the statement that holds them never runs: `var` and function
declarations outside of nested functions. Names declared in other ways belong to the block that
declares them.
-/

namespace Minifier

/-- A declaration that is in force in all of the function it stands in. -/
inductive Hoisted
  | var (decl : VarDecl)
  | func (span : Span) (name : String) (fn : Func)

/-- The declared name without its initial value. A constant must have one and gets `void 0`. -/
def Declarator.strip (span : Span) (mode : DeclMode) : Declarator → Declarator
  | .mk name _ => .mk name (if mode = .const then some (.undef (.both span)) else none)

/-- The declaration without initial values. -/
def VarDecl.strip : VarDecl → VarDecl
  | .mk span mode declarators => .mk span mode (declarators.map (Declarator.strip span mode))

namespace Hoisted

/-- Where the declaration stands. -/
def span : Hoisted → Span
  | .var decl => decl.span
  | .func span _ _ => span

/-- Whether the declaration gives initial values. -/
def hasInit : Hoisted → Bool
  | .var decl => decl.declarators.any Declarator.hasInit
  | .func _ _ _ => false

/-- Whether a function is declared. -/
def isFunc : Hoisted → Bool
  | .var _ => false
  | .func _ _ _ => true

/-- The declaration as a statement of its own, without initial values. -/
def toStmt : Hoisted → Stmt
  | .var decl => .var decl.span decl.strip
  | .func span name fn => .func (.both span) name fn

end Hoisted

/-- A declaration of variables, if it is hoisted. -/
def VarDecl.hoisted (decl : VarDecl) : List Hoisted :=
  if decl.mode = .var then [.var decl] else []

/-- The hoisted declarations in the head of a loop. -/
def LoopHead.hoisted : LoopHead → List Hoisted
  | .decl d => d.hoisted
  | .expr _ => []

mutual

/-- The hoisted declarations in a statement, in the order of the source. -/
def Stmt.hoisted : Stmt → List Hoisted
  | .block _ body => stmtsHoisted body
  | .doWhile _ body _ => body.hoisted
  | .forIn _ target _ body => target.hoisted ++ body.hoisted
  | .forLoop _ init _ _ body => init.toList.flatMap LoopHead.hoisted ++ body.hoisted
  | .func pl name fn => [.func pl.inner name fn]
  | .ite _ _ yes none => yes.hoisted
  | .ite _ _ yes (some no) => yes.hoisted ++ no.hoisted
  | .label _ _ body => body.hoisted
  | .switch _ _ branches => branchesHoisted branches
  | .tryCatch _ (.mk _ body) handler final =>
    stmtsHoisted body ++ handlerHoisted handler ++ finalHoisted final
  | .var _ decl => decl.hoisted
  | .whileLoop _ _ body => body.hoisted
  | .withObject _ _ body => body.hoisted
  | .breakTo _ _ | .continueTo _ _ | .debugger _ | .empty _ | .expr _ _ | .ret _ _
  | .throw _ _ => []

/-- The hoisted declarations in a list of statements. -/
def stmtsHoisted : List Stmt → List Hoisted
  | [] => []
  | s :: rest => s.hoisted ++ stmtsHoisted rest

/-- The hoisted declarations in the branches of a `switch`. -/
def branchesHoisted : List Branch → List Hoisted
  | [] => []
  | .mk _ _ body :: rest => stmtsHoisted body ++ branchesHoisted rest

/-- The hoisted declarations in the `catch` part of a `try` statement. -/
def handlerHoisted : Option Handler → List Hoisted
  | none => []
  | some (.mk _ _ body) => stmtsHoisted body

/-- The hoisted declarations in the `finally` part of a `try` statement. -/
def finalHoisted : Option Block → List Hoisted
  | none => []
  | some (.mk _ body) => stmtsHoisted body

end

end Minifier
