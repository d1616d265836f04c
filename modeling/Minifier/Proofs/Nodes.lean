import Minifier.Syntax

/-!
# All nodes of a tree

A condition on the expressions, the statements and the lists of statements of a tree, asked of all of
them at once.
-/

namespace Minifier

/-- What is asked of the expressions, the statements and the lists of statements of a tree. -/
structure Check where
  expr : Expr → Prop
  stmt : Stmt → Prop
  body : List Stmt → Prop

section Meets

variable (c : Check)

mutual

/-- All nodes of an expression are as asked for, in functions too. -/
def Expr.Meets : Expr → Prop
  | .binary pl op left right => c.expr (.binary pl op left right) ∧ left.Meets ∧ right.Meets
  | .call pl isNew callee args => c.expr (.call pl isNew callee args) ∧ callee.Meets ∧ exprsMeet args
  | .index pl object key => c.expr (.index pl object key) ∧ object.Meets ∧ key.Meets
  | .cond pl test yes no => c.expr (.cond pl test yes no) ∧ test.Meets ∧ yes.Meets ∧ no.Meets
  | .func pl name fn => c.expr (.func pl name fn) ∧ fn.Meets
  | .member pl object name => c.expr (.member pl object name) ∧ object.Meets
  | .unary pl op arg => c.expr (.unary pl op arg) ∧ arg.Meets
  | .update pl op arg => c.expr (.update pl op arg) ∧ arg.Meets
  | .array pl elements => c.expr (.array pl elements) ∧ elementsMeet elements
  | .object pl members => c.expr (.object pl members) ∧ membersMeet members
  | .ident pl name => c.expr (.ident pl name)
  | .this pl => c.expr (.this pl)
  | .bool pl value => c.expr (.bool pl value)
  | .null pl => c.expr (.null pl)
  | .num pl value => c.expr (.num pl value)
  | .regex pl text => c.expr (.regex pl text)
  | .str pl value => c.expr (.str pl value)
  | .undef pl => c.expr (.undef pl)

/-- All nodes of the expressions of a list are as asked for. -/
def exprsMeet : List Expr → Prop
  | [] => True
  | e :: rest => e.Meets ∧ exprsMeet rest

/-- All nodes of an expression that may be absent are as asked for. -/
def optionMeets : Option Expr → Prop
  | none => True
  | some e => e.Meets

/-- All nodes of the elements of an array literal are as asked for. -/
def elementsMeet : List (Option Expr) → Prop
  | [] => True
  | e :: rest => optionMeets e ∧ elementsMeet rest

/-- All nodes of a function are as asked for. -/
def Func.Meets : Func → Prop
  | .mk _ _ body => c.body body ∧ stmtsMeet body

/-- All nodes of the members of an object literal are as asked for. -/
def membersMeet : List Member → Prop
  | [] => True
  | .value _ _ e :: rest => e.Meets ∧ membersMeet rest
  | .getter _ _ fn :: rest => fn.Meets ∧ membersMeet rest
  | .setter _ _ fn :: rest => fn.Meets ∧ membersMeet rest

/-- All nodes of declared names are as asked for. -/
def declaratorsMeet : List Declarator → Prop
  | [] => True
  | .mk _ init :: rest => optionMeets init ∧ declaratorsMeet rest

/-- All nodes of a declaration are as asked for. -/
def VarDecl.Meets : VarDecl → Prop
  | .mk _ _ declarators => declaratorsMeet declarators

/-- All nodes of the head of a loop are as asked for. -/
def LoopHead.Meets : LoopHead → Prop
  | .decl d => d.Meets
  | .expr e => e.Meets

/-- All nodes of the head of a loop that may be absent are as asked for. -/
def loopInitMeets : Option LoopHead → Prop
  | none => True
  | some head => head.Meets

/-- All nodes of the branches of a `switch` are as asked for. -/
def branchesMeet : List Branch → Prop
  | [] => True
  | .mk _ test body :: rest => optionMeets test ∧ (c.body body ∧ stmtsMeet body) ∧ branchesMeet rest

/-- All nodes of a block of a `try` statement are as asked for. -/
def Block.Meets : Block → Prop
  | .mk _ body => c.body body ∧ stmtsMeet body

/-- All nodes of the `catch` part of a `try` statement are as asked for. -/
def handlerMeets : Option Handler → Prop
  | none => True
  | some (.mk _ _ body) => c.body body ∧ stmtsMeet body

/-- All nodes of the `finally` part of a `try` statement are as asked for. -/
def finalMeets : Option Block → Prop
  | none => True
  | some block => block.Meets

/-- All nodes of a statement are as asked for. -/
def Stmt.Meets : Stmt → Prop
  | .block pl body => c.stmt (.block pl body) ∧ c.body body ∧ stmtsMeet body
  | .breakTo pl label => c.stmt (.breakTo pl label)
  | .continueTo pl label => c.stmt (.continueTo pl label)
  | .debugger pl => c.stmt (.debugger pl)
  | .doWhile pl body test => c.stmt (.doWhile pl body test) ∧ body.Meets ∧ test.Meets
  | .empty pl => c.stmt (.empty pl)
  | .expr pl e => c.stmt (.expr pl e) ∧ e.Meets
  | .forIn pl target object body => c.stmt (.forIn pl target object body) ∧
    target.Meets ∧ object.Meets ∧ body.Meets
  | .forLoop pl init test step body => c.stmt (.forLoop pl init test step body) ∧
    loopInitMeets init ∧ optionMeets test ∧ optionMeets step ∧ body.Meets
  | .func pl name fn => c.stmt (.func pl name fn) ∧ fn.Meets
  | .ite pl test yes no => c.stmt (.ite pl test yes no) ∧ test.Meets ∧ yes.Meets ∧ elseMeets no
  | .label pl name body => c.stmt (.label pl name body) ∧ body.Meets
  | .ret pl value => c.stmt (.ret pl value) ∧ optionMeets value
  | .switch pl subject branches => c.stmt (.switch pl subject branches) ∧
    subject.Meets ∧ branchesMeet branches
  | .throw pl value => c.stmt (.throw pl value) ∧ value.Meets
  | .tryCatch pl body handler final => c.stmt (.tryCatch pl body handler final) ∧
    body.Meets ∧ handlerMeets handler ∧ finalMeets final
  | .var outer decl => c.stmt (.var outer decl) ∧ decl.Meets
  | .whileLoop pl test body => c.stmt (.whileLoop pl test body) ∧ test.Meets ∧ body.Meets
  | .withObject pl object body => c.stmt (.withObject pl object body) ∧ object.Meets ∧ body.Meets

/-- All nodes of an `else` branch are as asked for. -/
def elseMeets : Option Stmt → Prop
  | none => True
  | some s => s.Meets

/-- All nodes of the statements of a list are as asked for, whatever is asked of the list. -/
def stmtsMeet : List Stmt → Prop
  | [] => True
  | s :: rest => s.Meets ∧ stmtsMeet rest

end

/-- A list of statements is as asked for, and so are all nodes in it. -/
def bodyMeets (body : List Stmt) : Prop :=
  c.body body ∧ stmtsMeet c body

/-- All nodes of a program are as asked for. -/
def Program.Meets (p : Program) : Prop :=
  bodyMeets c p.body

/-- A check of a list of statements is a check of each of them. -/
theorem stmtsMeet_iff (stmts : List Stmt) : stmtsMeet c stmts ↔ ∀ s ∈ stmts, s.Meets c := by
  induction stmts with
  | nil => simp [stmtsMeet]
  | cons s rest ih => simp [stmtsMeet, ih]

end Meets

/-! ## Weaker checks -/

/-- What the first check asks for is enough for the second. -/
structure Check.Implies (c d : Check) : Prop where
  expr : ∀ e, c.expr e → d.expr e
  stmt : ∀ s, c.stmt s → d.stmt s
  body : ∀ stmts, c.body stmts → d.body stmts

section Mono

variable {c d : Check}

mutual

/-- An expression that is as asked for also meets a weaker check. -/
theorem Expr.meets_mono (weaker : c.Implies d) : (e : Expr) → e.Meets c → e.Meets d
  | .binary _ _ left right, ⟨here, inLeft, inRight⟩ =>
    ⟨weaker.expr _ here, left.meets_mono weaker inLeft, right.meets_mono weaker inRight⟩
  | .call _ _ callee args, ⟨here, inCallee, inArgs⟩ =>
    ⟨weaker.expr _ here, callee.meets_mono weaker inCallee, exprsMeet_mono weaker args inArgs⟩
  | .index _ object key, ⟨here, inObject, inKey⟩ =>
    ⟨weaker.expr _ here, object.meets_mono weaker inObject, key.meets_mono weaker inKey⟩
  | .cond _ test yes no, ⟨here, inTest, inYes, inNo⟩ =>
    ⟨weaker.expr _ here, test.meets_mono weaker inTest, yes.meets_mono weaker inYes,
      no.meets_mono weaker inNo⟩
  | .func _ _ fn, ⟨here, inside⟩ => ⟨weaker.expr _ here, fn.meets_mono weaker inside⟩
  | .member _ object _, ⟨here, inside⟩ => ⟨weaker.expr _ here, object.meets_mono weaker inside⟩
  | .unary _ _ arg, ⟨here, inside⟩ => ⟨weaker.expr _ here, arg.meets_mono weaker inside⟩
  | .update _ _ arg, ⟨here, inside⟩ => ⟨weaker.expr _ here, arg.meets_mono weaker inside⟩
  | .array _ elements, ⟨here, inside⟩ =>
    ⟨weaker.expr _ here, elementsMeet_mono weaker elements inside⟩
  | .object _ members, ⟨here, inside⟩ =>
    ⟨weaker.expr _ here, membersMeet_mono weaker members inside⟩
  | .ident .., here | .this .., here | .bool .., here | .null .., here | .num .., here
  | .regex .., here | .str .., here | .undef .., here => weaker.expr _ here

/-- Expressions that pass a check pass a weaker one. -/
theorem exprsMeet_mono (weaker : c.Implies d) : (es : List Expr) → exprsMeet c es → exprsMeet d es
  | [], _ => trivial
  | e :: rest, ⟨head, tail⟩ => ⟨e.meets_mono weaker head, exprsMeet_mono weaker rest tail⟩

theorem optionMeets_mono (weaker : c.Implies d) :
    (e : Option Expr) → optionMeets c e → optionMeets d e
  | none, _ => trivial
  | some e, inside => e.meets_mono weaker inside

theorem elementsMeet_mono (weaker : c.Implies d) :
    (es : List (Option Expr)) → elementsMeet c es → elementsMeet d es
  | [], _ => trivial
  | e :: rest, ⟨head, tail⟩ => ⟨optionMeets_mono weaker e head, elementsMeet_mono weaker rest tail⟩

theorem Func.meets_mono (weaker : c.Implies d) : (fn : Func) → fn.Meets c → fn.Meets d
  | .mk _ _ body, ⟨here, inside⟩ => ⟨weaker.body _ here, stmtsMeet_mono weaker body inside⟩

theorem membersMeet_mono (weaker : c.Implies d) :
    (ms : List Member) → membersMeet c ms → membersMeet d ms
  | [], _ => trivial
  | .value _ _ e :: rest, ⟨head, tail⟩ =>
    ⟨e.meets_mono weaker head, membersMeet_mono weaker rest tail⟩
  | .getter _ _ fn :: rest, ⟨head, tail⟩ | .setter _ _ fn :: rest, ⟨head, tail⟩ =>
    ⟨fn.meets_mono weaker head, membersMeet_mono weaker rest tail⟩

theorem declaratorsMeet_mono (weaker : c.Implies d) :
    (ds : List Declarator) → declaratorsMeet c ds → declaratorsMeet d ds
  | [], _ => trivial
  | .mk _ init :: rest, ⟨head, tail⟩ =>
    ⟨optionMeets_mono weaker init head, declaratorsMeet_mono weaker rest tail⟩

theorem VarDecl.meets_mono (weaker : c.Implies d) : (decl : VarDecl) → decl.Meets c → decl.Meets d
  | .mk _ _ declarators, inside => declaratorsMeet_mono weaker declarators inside

theorem LoopHead.meets_mono (weaker : c.Implies d) : (head : LoopHead) → head.Meets c → head.Meets d
  | .decl decl, inside => decl.meets_mono weaker inside
  | .expr e, inside => e.meets_mono weaker inside

theorem loopInitMeets_mono (weaker : c.Implies d) :
    (init : Option LoopHead) → loopInitMeets c init → loopInitMeets d init
  | none, _ => trivial
  | some head, inside => head.meets_mono weaker inside

theorem branchesMeet_mono (weaker : c.Implies d) :
    (branches : List Branch) → branchesMeet c branches → branchesMeet d branches
  | [], _ => trivial
  | .mk _ test body :: rest, ⟨inTest, ⟨here, inside⟩, tail⟩ =>
    ⟨optionMeets_mono weaker test inTest, ⟨weaker.body _ here, stmtsMeet_mono weaker body inside⟩,
      branchesMeet_mono weaker rest tail⟩

theorem Block.meets_mono (weaker : c.Implies d) : (block : Block) → block.Meets c → block.Meets d
  | .mk _ body, ⟨here, inside⟩ => ⟨weaker.body _ here, stmtsMeet_mono weaker body inside⟩

theorem handlerMeets_mono (weaker : c.Implies d) :
    (handler : Option Handler) → handlerMeets c handler → handlerMeets d handler
  | none, _ => trivial
  | some (.mk _ _ body), ⟨here, inside⟩ => ⟨weaker.body _ here, stmtsMeet_mono weaker body inside⟩

theorem finalMeets_mono (weaker : c.Implies d) :
    (final : Option Block) → finalMeets c final → finalMeets d final
  | none, _ => trivial
  | some block, inside => block.meets_mono weaker inside

/-- A statement that is as asked for also meets a weaker check. -/
theorem Stmt.meets_mono (weaker : c.Implies d) : (s : Stmt) → s.Meets c → s.Meets d
  | .block _ body, ⟨here, list, inside⟩ =>
    ⟨weaker.stmt _ here, weaker.body _ list, stmtsMeet_mono weaker body inside⟩
  | .doWhile _ body test, ⟨here, inBody, inTest⟩ =>
    ⟨weaker.stmt _ here, body.meets_mono weaker inBody, test.meets_mono weaker inTest⟩
  | .expr _ e, ⟨here, inside⟩ => ⟨weaker.stmt _ here, e.meets_mono weaker inside⟩
  | .forIn _ target object body, ⟨here, inTarget, inObject, inBody⟩ =>
    ⟨weaker.stmt _ here, target.meets_mono weaker inTarget, object.meets_mono weaker inObject,
      body.meets_mono weaker inBody⟩
  | .forLoop _ init test step body, ⟨here, inInit, inTest, inStep, inBody⟩ =>
    ⟨weaker.stmt _ here, loopInitMeets_mono weaker init inInit, optionMeets_mono weaker test inTest,
      optionMeets_mono weaker step inStep, body.meets_mono weaker inBody⟩
  | .func _ _ fn, ⟨here, inside⟩ => ⟨weaker.stmt _ here, fn.meets_mono weaker inside⟩
  | .ite _ test yes no, ⟨here, inTest, inYes, inNo⟩ =>
    ⟨weaker.stmt _ here, test.meets_mono weaker inTest, yes.meets_mono weaker inYes,
      elseMeets_mono weaker no inNo⟩
  | .label _ _ body, ⟨here, inside⟩ => ⟨weaker.stmt _ here, body.meets_mono weaker inside⟩
  | .ret _ value, ⟨here, inside⟩ => ⟨weaker.stmt _ here, optionMeets_mono weaker value inside⟩
  | .switch _ subject branches, ⟨here, inSubject, inBranches⟩ =>
    ⟨weaker.stmt _ here, subject.meets_mono weaker inSubject,
      branchesMeet_mono weaker branches inBranches⟩
  | .throw _ value, ⟨here, inside⟩ => ⟨weaker.stmt _ here, value.meets_mono weaker inside⟩
  | .tryCatch _ body handler final, ⟨here, inBody, inHandler, inFinal⟩ =>
    ⟨weaker.stmt _ here, body.meets_mono weaker inBody, handlerMeets_mono weaker handler inHandler,
      finalMeets_mono weaker final inFinal⟩
  | .var _ decl, ⟨here, inside⟩ => ⟨weaker.stmt _ here, decl.meets_mono weaker inside⟩
  | .whileLoop _ test body, ⟨here, inTest, inBody⟩ =>
    ⟨weaker.stmt _ here, test.meets_mono weaker inTest, body.meets_mono weaker inBody⟩
  | .withObject _ object body, ⟨here, inObject, inBody⟩ =>
    ⟨weaker.stmt _ here, object.meets_mono weaker inObject, body.meets_mono weaker inBody⟩
  | .breakTo .., here | .continueTo .., here | .debugger .., here | .empty .., here =>
    weaker.stmt _ here

theorem elseMeets_mono (weaker : c.Implies d) : (no : Option Stmt) → elseMeets c no → elseMeets d no
  | none, _ => trivial
  | some s, inside => s.meets_mono weaker inside

/-- Statements that pass a check pass a weaker one. -/
theorem stmtsMeet_mono (weaker : c.Implies d) :
    (stmts : List Stmt) → stmtsMeet c stmts → stmtsMeet d stmts
  | [], _ => trivial
  | s :: rest, ⟨head, tail⟩ => ⟨s.meets_mono weaker head, stmtsMeet_mono weaker rest tail⟩

end

/-- A program that is as asked for also meets a weaker check. -/
theorem Program.meets_mono {p : Program} (weaker : c.Implies d) (meets : p.Meets c) : p.Meets d :=
  ⟨weaker.body _ meets.1, stmtsMeet_mono weaker p.body meets.2⟩

end Mono

end Minifier
