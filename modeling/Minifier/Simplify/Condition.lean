import Minifier.Constant.Fold
import Minifier.Printer
import Minifier.Report
import Minifier.Simplify.Body
import Minifier.Simplify.Negation

/-!
# Conditions

Conditional expressions and `if` statements whose parts are simplified already. An `if` between two
expressions becomes a conditional expression, and one with a constant condition becomes the branch
that runs.
-/

namespace Minifier

/-- The expression with the shorter text, the second one on a tie. -/
def Expr.shorter (a b : Expr) : Expr :=
  if a.render.utf8ByteSize < b.render.utf8ByteSize then a else b

/-- The statement with the shorter text, the second one on a tie. -/
def Stmt.shorter (a b : Stmt) : Stmt :=
  if a.render.utf8ByteSize < b.render.utf8ByteSize then a else b

/-- The constant an expression gives, if constants are to be folded. -/
def Expr.known? (o : Options) (e : Expr) : Option Constant :=
  if o.evaluate then e.constant? else none

/-- The expression, or the literal of the constant it gives. -/
def Expr.folded (o : Options) (e : Expr) : Expr :=
  match e.known? o with
  | some c => c.toExpr e.span
  | none => e

/-- A conditional expression, turned around if that is shorter. -/
def condExpr (o : Options) (span : Span) (test yes no : Expr) : Expr :=
  .shorter (.cond (.both span) (test.negate o) no yes) (.cond (.both span) test yes no)

/-- An `if` statement. The first branch is put in braces if it would take the `else`. -/
def ifStmt (span : Span) (test : Expr) (yes : Stmt) (no : Option Stmt) : Stmt :=
  let yes := if no.isSome && yes.endsWithOpenIf then .block (.both yes.span) [yes] else yes
  .ite (.both span) test yes no

/-- Whether a statement does nothing. -/
def Stmt.isIdle : Stmt → Bool
  | .empty _ => true
  | .block _ body => body.isEmpty
  | _ => false

/-- The expression of an expression statement. -/
def Stmt.expr? : Stmt → Option Expr
  | .expr _ e => some e
  | _ => none

/-- The statement, but an expression statement at the span of its expression. -/
def Stmt.respan (s : Stmt) : Stmt :=
  match s.expr? with
  | some e => .ofExpr e
  | none => s

/-- An `if` statement whose condition is always true or always false. Variables of the branch that
never runs stay declared, and if it declares a function the statement is left alone. -/
def constantIf (o : Options) (span : Span) (test : Expr) (truth : Bool) (yes : Stmt)
    (no : Option Stmt) : Report Stmt := do
  Report.note o (.constantCondition truth test.span)
  let dead := if truth then no else some yes
  let live := if truth then some yes else no
  let hoisted := dead.toList.flatMap Stmt.hoisted
  if hoisted.any Hoisted.isFunc then return ifStmt span test yes no
  else match live, hoisted with
    | some live, [] => return live
    | none, [] => return .empty (.both span)
    | live, hoisted =>
      match unwrapBlocks (hoisted.map Hoisted.toStmt ++ live.toList) with
      | [only] => return only
      | body => return .block (.both span) body

/-- An `if` statement, simplified. -/
def simplifyIf (o : Options) (span : Span) (test : Expr) (yes : Stmt) (no : Option Stmt) :
    Report Stmt :=
  let no := no.filter fun s => !s.isIdle
  match test.known? o with
  | some c => constantIf o span (c.toExpr test.span) c.toBool yes no
  | none =>
    match yes.expr?, no with
    | some a, some other =>
      match other.expr? with
      | some b => return .ofExpr (condExpr o span test a b)
      | none => return ifStmt span test yes.respan no
    | some a, none => return .ofExpr (.binary (.both span) .logicalAnd test a)
    | none, some other =>
      if yes.isIdle then
        match other.expr? with
        | some b => return .ofExpr (.binary (.both span) .logicalOr test b)
        | none => return ifStmt span (test.negate o) other none
      else return ifStmt span test yes (some other.respan)
    | none, none => return ifStmt span test yes none

end Minifier
