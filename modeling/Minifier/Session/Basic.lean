import Minifier.Report
import Minifier.Syntax

/-!
# Sessions

A session holds the options, the nodes that a caller has entered, and the findings so far. A step
in a session adds its findings behind those of earlier ones, and leaves everything else as it is.
-/

namespace Minifier

/-- The kind of a node that has parts. -/
inductive NodeKind
  | program
  | func
  | branch
  | handler
  | block
  | doWhile
  | exprStmt
  | forIn
  | forLoop
  | ite
  | label
  | ret
  | switch
  | throw
  | tryCatch
  | varDecl
  | whileLoop
  | withObject
  | binary
  | call
  | index
  | cond
  | array
  | object
  | member
  | unary
  | update
deriving DecidableEq, Repr

namespace NodeKind

/-- All kinds. -/
def all : List NodeKind :=
  [program, func, branch, handler, block, doWhile, exprStmt, forIn, forLoop, ite, label, ret,
    switch, throw, tryCatch, varDecl, whileLoop, withObject, binary, call, index, cond, array,
    object, member, unary, update]

/-- The name of a kind. -/
def name : NodeKind → String
  | program => "TopLevel"
  | func => "Func"
  | branch => "SwitchBranch"
  | handler => "Catch"
  | block => "Block"
  | doWhile => "DoWhile"
  | exprStmt => "ExprStmt"
  | forIn => "ForIn"
  | forLoop => "ForTriple"
  | ite => "If"
  | label => "Label"
  | ret => "Return"
  | switch => "Switch"
  | throw => "Throw"
  | tryCatch => "Try"
  | varDecl => "VarDecl"
  | whileLoop => "While"
  | withObject => "With"
  | binary => "Binary"
  | call => "Call"
  | index => "ComputedMember"
  | cond => "Cond"
  | array => "LitArr"
  | object => "LitObj"
  | member => "Member"
  | unary => "Unary"
  | update => "UnaryPostfix"

/-- The kind with the given name. -/
def ofName? (name : String) : Option NodeKind :=
  all.find? fun kind => kind.name == name

end NodeKind

/-- The kind of an expression, if it has parts. -/
def Expr.kind? : Expr → Option NodeKind
  | .binary _ _ _ _ => some .binary
  | .call _ _ _ _ => some .call
  | .index _ _ _ => some .index
  | .cond _ _ _ _ => some .cond
  | .func _ _ _ => some .func
  | .member _ _ _ => some .member
  | .unary _ _ _ => some .unary
  | .update _ _ _ => some .update
  | .array _ _ => some .array
  | .object _ _ => some .object
  | .ident _ _ | .this _ | .bool _ _ | .null _ | .num _ _ | .regex _ _ | .str _ _
  | .undef _ => none

/-- The kind of a statement, if it has parts. -/
def Stmt.kind? : Stmt → Option NodeKind
  | .block _ _ => some .block
  | .doWhile _ _ _ => some .doWhile
  | .expr _ _ => some .exprStmt
  | .forIn _ _ _ _ => some .forIn
  | .forLoop _ _ _ _ _ => some .forLoop
  | .func _ _ _ => some .func
  | .ite _ _ _ _ => some .ite
  | .label _ _ _ => some .label
  | .ret _ _ => some .ret
  | .switch _ _ _ => some .switch
  | .throw _ _ => some .throw
  | .tryCatch _ _ _ _ => some .tryCatch
  | .var _ _ => some .varDecl
  | .whileLoop _ _ _ => some .whileLoop
  | .withObject _ _ _ => some .withObject
  | .breakTo _ _ | .continueTo _ _ | .debugger _ | .empty _ => none

/-- A node that has been entered. -/
structure Ancestor where
  kind : NodeKind
  span : Span
deriving DecidableEq, Repr

/-- The state of a session. The node entered last comes first among the ancestors. -/
structure Session where
  options : Options
  ancestors : List Ancestor := []
  findings : List Finding := []

namespace Session

/-- Enters a node. -/
def enter (s : Session) (a : Ancestor) : Session :=
  { s with ancestors := a :: s.ancestors }

/-- Leaves the node entered last. -/
def leave (s : Session) : Session :=
  { s with ancestors := s.ancestors.tail }

/-- The number of nodes entered. -/
def depth (s : Session) : Nat :=
  s.ancestors.length

/-- The node entered `n` nodes before the last one. -/
def ancestor? (s : Session) (n : Nat) : Option Ancestor :=
  s.ancestors[n]?

/-- Does one step. -/
def run {α : Type} (s : Session) (f : Options → Report α) : α × Session :=
  let report := f s.options
  (report.value, { s with findings := s.findings ++ report.findings })

/-- Makes a finding, unless findings are not wanted. -/
def note (s : Session) (f : Finding) : Session :=
  (s.run fun o => Report.note o f).2

end Session

end Minifier
