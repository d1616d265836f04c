import Minifier.Double.Basic
import Minifier.Operator
import Minifier.Span

/-!
# Syntax trees

Expressions, statements and the parts they are made of. A node is known by two spans: the one of
the expression or statement as such, and the one of the particular form it takes. They usually
agree, but need not, and a simplification says which of the two it passes on.
-/

namespace Minifier

/-- The two spans of a node. -/
structure Place where
  outer : Span
  inner : Span
deriving DecidableEq, Repr

/-- A place whose two spans agree. -/
def Place.both (span : Span) : Place := ⟨span, span⟩

instance : Inhabited Place := ⟨.both default⟩

/-- How a declaration binds its names. -/
inductive DeclMode
  | const
  | block
  | var
deriving DecidableEq, Repr

/-- The word that introduces a declaration. -/
def DeclMode.keyword : DeclMode → String
  | .const => "const"
  | .block => "let"
  | .var => "var"

/-- A parameter of a function. -/
structure Param where
  span : Span
  name : String
deriving DecidableEq, Repr

mutual

/-- An expression. -/
inductive Expr
  | binary (pl : Place) (op : Operator) (left right : Expr)
  | call (pl : Place) (isNew : Bool) (callee : Expr) (args : List Expr)
  | index (pl : Place) (object key : Expr)
  | cond (pl : Place) (test yes no : Expr)
  | func (pl : Place) (name : Option String) (fn : Func)
  | ident (pl : Place) (name : String)
  | member (pl : Place) (object : Expr) (name : String)
  | this (pl : Place)
  | unary (pl : Place) (op : Operator) (arg : Expr)
  | update (pl : Place) (op : Operator) (arg : Expr)
  | array (pl : Place) (elements : List (Option Expr))
  | bool (pl : Place) (value : Bool)
  | null (pl : Place)
  | num (pl : Place) (value : Double)
  | object (pl : Place) (members : List Member)
  | regex (pl : Place) (text : String)
  | str (pl : Place) (value : String)
  | undef (pl : Place)

/-- Parameters and body of a function. -/
inductive Func
  | mk (span : Span) (params : List Param) (body : List Stmt)

/-- A member of an object literal: a property with a value, or an accessor. -/
inductive Member
  | value (span : Span) (key : String) (expr : Expr)
  | getter (span : Span) (key : String) (fn : Func)
  | setter (span : Span) (key : String) (fn : Func)

/-- A name that is declared, perhaps with an initial value. -/
inductive Declarator
  | mk (name : String) (init : Option Expr)

/-- A declaration of variables. -/
inductive VarDecl
  | mk (span : Span) (mode : DeclMode) (declarators : List Declarator)

/-- What a loop starts from: declared variables, or an expression. -/
inductive LoopHead
  | decl (decl : VarDecl)
  | expr (expr : Expr)

/-- A branch of a `switch`; the one without a test is the default. -/
inductive Branch
  | mk (span : Span) (test : Option Expr) (body : List Stmt)

/-- A block of a `try` statement. -/
inductive Block
  | mk (span : Span) (body : List Stmt)

/-- The `catch` part of a `try` statement. -/
inductive Handler
  | mk (span : Span) (param : Option String) (body : List Stmt)

/-- A statement. -/
inductive Stmt
  | block (pl : Place) (body : List Stmt)
  | breakTo (pl : Place) (label : Option String)
  | continueTo (pl : Place) (label : Option String)
  | debugger (pl : Place)
  | doWhile (pl : Place) (body : Stmt) (test : Expr)
  | empty (pl : Place)
  | expr (pl : Place) (expr : Expr)
  | forIn (pl : Place) (target : LoopHead) (object : Expr) (body : Stmt)
  | forLoop (pl : Place) (init : Option LoopHead) (test step : Option Expr) (body : Stmt)
  | func (pl : Place) (name : String) (fn : Func)
  | ite (pl : Place) (test : Expr) (yes : Stmt) (no : Option Stmt)
  | label (pl : Place) (name : String) (body : Stmt)
  | ret (pl : Place) (value : Option Expr)
  | switch (pl : Place) (subject : Expr) (branches : List Branch)
  | throw (pl : Place) (value : Expr)
  | tryCatch (pl : Place) (body : Block) (handler : Option Handler) (final : Option Block)
  | var (outer : Span) (decl : VarDecl)
  | whileLoop (pl : Place) (test : Expr) (body : Stmt)
  | withObject (pl : Place) (object : Expr) (body : Stmt)

end

/-- A whole program. -/
structure Program where
  span : Span
  body : List Stmt

namespace Expr

/-- The two spans of an expression. -/
def place : Expr → Place
  | binary pl _ _ _ | call pl _ _ _ | index pl _ _ | cond pl _ _ _ | func pl _ _ | ident pl _
  | member pl _ _ | this pl | unary pl _ _ | update pl _ _ | array pl _ | bool pl _ | null pl
  | num pl _ | object pl _ | regex pl _ | str pl _ | undef pl => pl

/-- The span of the expression as such. -/
def span (e : Expr) : Span := e.place.outer

end Expr

namespace VarDecl

/-- The span of a declaration. -/
def span : VarDecl → Span
  | mk span _ _ => span

/-- How a declaration binds its names. -/
def mode : VarDecl → DeclMode
  | mk _ mode _ => mode

/-- The names a declaration declares, with their initial values. -/
def declarators : VarDecl → List Declarator
  | mk _ _ declarators => declarators

end VarDecl

namespace Declarator

/-- Whether an initial value is given. -/
def hasInit : Declarator → Bool
  | mk _ init => init.isSome

end Declarator

namespace Stmt

/-- The span of the statement as such. -/
def span : Stmt → Span
  | block pl _ | breakTo pl _ | continueTo pl _ | debugger pl | doWhile pl _ _ | empty pl
  | expr pl _ | forIn pl _ _ _ | forLoop pl _ _ _ _ | func pl _ _ | ite pl _ _ _ | label pl _ _
  | ret pl _ | switch pl _ _ | throw pl _ | tryCatch pl _ _ _ | whileLoop pl _ _
  | withObject pl _ _ => pl.outer
  | var outer _ => outer

/-- The statement that evaluates an expression, at the span of the expression. -/
def ofExpr (e : Expr) : Stmt :=
  .expr (.both e.span) e

/-- Whether the statement declares a name whose scope is the list it stands in. -/
def isScoped : Stmt → Bool
  | func _ _ _ => true
  | var _ decl => decl.mode != .var
  | _ => false

end Stmt

/-- The program with the given statements, at the span that covers them. -/
def Program.ofBody (body : List Stmt) : Program :=
  ⟨.coverAll (body.map Stmt.span), body⟩

end Minifier
