import Mathlib.Data.Multiset.OrderedMonoid
import Minifier.Proofs.Accounts
import Minifier.Proofs.Scopes

/-!
# Declarations of a function

The declarations of variables and of functions that stand in a list of statements outside of nested
functions, at any depth. An account of them takes down something at each declaration, which may depend
on where it stands, on its mode and on its names.

When a list is simplified, declarations move, lose their initial values and leave their blocks. What
an account finds afterwards is what it found before, but for `let` and `const` in statements that never
run, which are dropped with their blocks. This is said once for all relations between what is found
after and before that allow for such losses.
-/

namespace Minifier

/-- What is taken down at a declaration of variables, and at one of a function. -/
structure DeclAccount (α : Type) where
  atVar : Span → DeclMode → List String → Multiset α
  atFunc : Span → String → Multiset α

variable {α : Type}

/-- What is taken down at a declaration of variables. -/
def VarDecl.declared (c : DeclAccount α) (d : VarDecl) : Multiset α :=
  c.atVar d.span d.mode d.names

/-- What is taken down in the head of a loop. -/
def LoopHead.declared (c : DeclAccount α) : LoopHead → Multiset α
  | .decl d => d.declared c
  | .expr _ => 0

/-- What is taken down where a counting loop starts from. -/
def loopInitDeclared (c : DeclAccount α) : Option LoopHead → Multiset α
  | none => 0
  | some head => head.declared c

mutual

/-- What is taken down in a statement. -/
def Stmt.declared (c : DeclAccount α) : Stmt → Multiset α
  | .block _ body => stmtsDeclared c body
  | .doWhile _ body _ => body.declared c
  | .forIn _ target _ body => target.declared c + body.declared c
  | .forLoop _ init _ _ body => loopInitDeclared c init + body.declared c
  | .func pl name _ => c.atFunc pl.inner name
  | .ite _ _ yes no => yes.declared c + elseDeclared c no
  | .label _ _ body => body.declared c
  | .switch _ _ branches => branchesDeclared c branches
  | .tryCatch _ body handler final =>
    body.declared c + (handlerDeclared c handler + finalDeclared c final)
  | .var _ decl => decl.declared c
  | .whileLoop _ _ body => body.declared c
  | .withObject _ _ body => body.declared c
  | .breakTo _ _ | .continueTo _ _ | .debugger _ | .empty _ | .expr _ _ | .ret _ _
  | .throw _ _ => 0

/-- What is taken down in an `else` branch. -/
def elseDeclared (c : DeclAccount α) : Option Stmt → Multiset α
  | none => 0
  | some s => s.declared c

/-- What is taken down in a list of statements. -/
def stmtsDeclared (c : DeclAccount α) : List Stmt → Multiset α
  | [] => 0
  | s :: rest => s.declared c + stmtsDeclared c rest

/-- What is taken down in the branches of a `switch`. -/
def branchesDeclared (c : DeclAccount α) : List Branch → Multiset α
  | [] => 0
  | .mk _ _ body :: rest => stmtsDeclared c body + branchesDeclared c rest

/-- What is taken down in a block of a `try` statement. -/
def Block.declared (c : DeclAccount α) : Block → Multiset α
  | .mk _ body => stmtsDeclared c body

/-- What is taken down in the `catch` part of a `try` statement. -/
def handlerDeclared (c : DeclAccount α) : Option Handler → Multiset α
  | none => 0
  | some (.mk _ _ body) => stmtsDeclared c body

/-- What is taken down in the `finally` part of a `try` statement. -/
def finalDeclared (c : DeclAccount α) : Option Block → Multiset α
  | none => 0
  | some block => block.declared c

end

attribute [simp] Stmt.declared elseDeclared stmtsDeclared branchesDeclared Block.declared
  handlerDeclared finalDeclared

/-- A relation of what is found after simplifying to what was found before. It allows for the loss of
declarations that are no `var`. -/
structure DeclAccount.Allows (c : DeclAccount α) (within : Multiset α → Multiset α → Prop) : Prop
    extends Compares within where
  lexical : ∀ span mode names, mode ≠ .var → within 0 (c.atVar span mode names)

variable (c : DeclAccount α)

/-! ## Changes that keep all declarations -/

/-- Declarations are an account of statements to which expressions add nothing. -/
def DeclAccount.account : Account (Multiset α) where
  ofExpr _ := 0
  ofStmt := Stmt.declared c
  ofElse := elseDeclared c
  ofStmts := stmtsDeclared c
  binary _ _ _ _ _ := (add_zero 0).symm
  cond _ _ _ _ := by rw [add_zero, add_zero]
  negate _ _ := rfl
  constant _ _ := rfl
  expr _ _ := rfl
  ret _ _ := rfl
  throw _ _ := rfl
  empty _ := rfl
  block _ _ := rfl
  ite _ _ _ _ := by rw [zero_add, Stmt.declared]
  without := rfl
  otherwise _ := rfl
  nil := rfl
  cons _ _ := rfl

/-- What is taken down in two lists, one after the other. -/
theorem stmtsDeclared_append (a b : List Stmt) :
    stmtsDeclared c (a ++ b) = stmtsDeclared c a + stmtsDeclared c b :=
  c.account.ofStmts_append a b

/-- A label declares nothing, so it does not matter whether it stays. -/
theorem declared_labelStmt {o : Options} (pl : Place) (name : String) (body : Stmt) :
    (labelStmt o pl name body).value.declared c = body.declared c := by
  rw [value_labelStmt]
  split <;> rfl

/-- A declaration without its initial values declares the same. -/
theorem VarDecl.declared_strip (decl : VarDecl) : decl.strip.declared c = decl.declared c := by
  rw [declared, decl.mode_strip, decl.names_strip]
  cases decl
  rfl

/-- A simplified declaration declares the same. -/
theorem VarDecl.declared_minify {o : Options} (decl : VarDecl) :
    (decl.minify o).value.declared c = decl.declared c := by
  rw [declared, decl.mode_minify, decl.names_minify]
  cases decl
  rfl

theorem LoopHead.declared_minify {o : Options} (head : LoopHead) :
    (head.minify o).value.declared c = head.declared c := by
  cases head with
  | decl d => exact d.declared_minify c
  | expr e => rfl

theorem loopInitDeclared_minify {o : Options} (init : Option LoopHead) :
    loopInitDeclared c (minifyLoopInit o init).value = loopInitDeclared c init := by
  cases init with
  | none => rfl
  | some head => exact head.declared_minify c

/-! ## Statements that never run -/

/-- What is taken down at declarations that are made statements of their own. -/
def hoistedDeclared (hoisted : List Hoisted) : Multiset α :=
  stmtsDeclared c (hoisted.map Hoisted.toStmt)

/-- What is taken down at hoisted declarations is added up. -/
theorem hoistedDeclared_append (a b : List Hoisted) :
    hoistedDeclared c (a ++ b) = hoistedDeclared c a + hoistedDeclared c b := by
  rw [hoistedDeclared, List.map_append, stmtsDeclared_append]
  rfl

/-- A declaration that is hoisted is taken down as it was. -/
theorem hoistedDeclared_var (decl : VarDecl) : hoistedDeclared c [.var decl] = decl.declared c :=
  (add_zero _).trans (decl.declared_strip c)

variable {c} {within : Multiset α → Multiset α → Prop} (allows : c.Allows within)
include allows

/-- A `var` is hoisted, and any other declaration is lost. -/
theorem VarDecl.declared_hoisted (decl : VarDecl) :
    within (hoistedDeclared c decl.hoisted) (decl.declared c) := by
  unfold hoisted
  split
  · exact allows.of_eq (hoistedDeclared_var c decl)
  · next other => exact allows.lexical _ _ _ other

/-- What is hoisted from the head of a loop is within what it declares. -/
theorem LoopHead.declared_hoisted (head : LoopHead) :
    within (hoistedDeclared c head.hoisted) (head.declared c) := by
  cases head with
  | decl d => exact d.declared_hoisted allows
  | expr e => exact allows.refl _

theorem loopInitDeclared_hoisted (init : Option LoopHead) :
    within (hoistedDeclared c (init.toList.flatMap LoopHead.hoisted)) (loopInitDeclared c init) := by
  cases init with
  | none => exact allows.refl _
  | some head => simpa [loopInitDeclared] using head.declared_hoisted allows

section Hoisted

-- The linter does not see the calls from one theorem of a mutual block to another.
set_option linter.unusedSectionVars false

mutual

/-- The hoisted declarations of a statement are its declarations, but for `let` and `const`. -/
theorem Stmt.declared_hoisted : (s : Stmt) → within (hoistedDeclared c s.hoisted) (s.declared c)
  | .block _ body => stmtsDeclared_hoisted body
  | .doWhile _ body _ | .label _ _ body | .whileLoop _ _ body | .withObject _ _ body =>
    body.declared_hoisted
  | .forIn _ target _ body => by
    rw [Stmt.hoisted, hoistedDeclared_append, Stmt.declared]
    exact allows.add (target.declared_hoisted allows) body.declared_hoisted
  | .forLoop _ init _ _ body => by
    rw [Stmt.hoisted, hoistedDeclared_append, Stmt.declared]
    exact allows.add (loopInitDeclared_hoisted allows init) body.declared_hoisted
  | .func _ name fn => allows.of_eq (add_zero _)
  | .ite _ _ yes none => by
    rw [Stmt.hoisted, Stmt.declared, elseDeclared, add_zero]
    exact yes.declared_hoisted
  | .ite _ _ yes (some no) => by
    rw [Stmt.hoisted, hoistedDeclared_append, Stmt.declared]
    exact allows.add yes.declared_hoisted no.declared_hoisted
  | .switch _ _ branches => branchesDeclared_hoisted branches
  | .tryCatch _ (.mk _ body) handler final => by
    rw [Stmt.hoisted, hoistedDeclared_append, hoistedDeclared_append, add_assoc, Stmt.declared]
    exact allows.add (stmtsDeclared_hoisted body)
      (allows.add (handlerDeclared_hoisted handler) (finalDeclared_hoisted final))
  | .var _ decl => decl.declared_hoisted allows
  | .breakTo _ _ | .continueTo _ _ | .debugger _ | .empty _ | .expr _ _ | .ret _ _
  | .throw _ _ => allows.refl _

/-- The hoisted declarations of a list are its declarations, but for `let` and `const`. -/
theorem stmtsDeclared_hoisted : (body : List Stmt) →
    within (hoistedDeclared c (stmtsHoisted body)) (stmtsDeclared c body)
  | [] => allows.refl _
  | s :: rest => by
    rw [stmtsHoisted, hoistedDeclared_append, stmtsDeclared]
    exact allows.add s.declared_hoisted (stmtsDeclared_hoisted rest)

theorem branchesDeclared_hoisted : (branches : List Branch) →
    within (hoistedDeclared c (branchesHoisted branches)) (branchesDeclared c branches)
  | [] => allows.refl _
  | .mk _ _ body :: rest => by
    rw [branchesHoisted, hoistedDeclared_append, branchesDeclared]
    exact allows.add (stmtsDeclared_hoisted body) (branchesDeclared_hoisted rest)

theorem handlerDeclared_hoisted : (handler : Option Handler) →
    within (hoistedDeclared c (handlerHoisted handler)) (handlerDeclared c handler)
  | none => allows.refl _
  | some (.mk _ _ body) => stmtsDeclared_hoisted body

theorem finalDeclared_hoisted : (final : Option Block) →
    within (hoistedDeclared c (finalHoisted final)) (finalDeclared c final)
  | none => allows.refl _
  | some (.mk _ body) => stmtsDeclared_hoisted body

end

end Hoisted

/-- The declarations that an unreachable statement leaves behind are its own, but for `let` and
`const` that stand deeper. -/
theorem declared_leftOver (s : Stmt) : within (hoistedDeclared c s.leftOver) (s.declared c) := by
  cases s with
  | var outer decl => exact allows.of_eq (hoistedDeclared_var c decl)
  | _ => exact Stmt.declared_hoisted allows _

variable {o : Options}

/-- No rule loses more declarations than the relation allows for. -/
theorem DeclAccount.Allows.loses : c.account.Loses o within where
  toCompares := allows.toCompares
  known _ := allows.refl 0
  hoisted _ s := s.declared_hoisted allows
  stripped _ _ decl := allows.of_eq (decl.declared_strip c)

/-- Changes to a list lose no declarations but `let` and `const` in unreachable statements. -/
theorem stmtsDeclared_tighten (stmts : List Stmt) :
    within (stmtsDeclared c (tighten o stmts).value) (stmtsDeclared c stmts) :=
  allows.loses.tighten stmts

/-! ## Simplified statements -/

section Trees

set_option linter.unusedSectionVars false

mutual

/-- A simplified statement declares what the statement declares, but for `let` and `const` in
statements that never run. -/
theorem Stmt.declared_minify : (s : Stmt) → within ((s.minify o).value.declared c) (s.declared c)
  | .block pl body => by
    refine allows.trans (allows.of_eq (c.account.ofStmt_blockStmt pl _)) ?_
    exact allows.trans (stmtsDeclared_tighten allows _) (stmtsDeclared_minify body)
  | .debugger pl => by
    simp only [Stmt.minify, Report.value_pure]
    split <;> exact allows.refl _
  | .doWhile _ body _ | .whileLoop _ _ body | .withObject _ _ body => body.declared_minify
  | .forIn _ target _ body =>
    allows.add (allows.of_eq (target.declared_minify c)) body.declared_minify
  | .forLoop _ init _ _ body =>
    allows.add (allows.of_eq (loopInitDeclared_minify c init)) body.declared_minify
  | .ite pl test yes no => by
    have parts : within (0 + (yes.minify o).value.declared c + elseDeclared c (minifyElse o no).value)
        (yes.declared c + elseDeclared c no) := by
      rw [zero_add]
      exact allows.add yes.declared_minify (elseDeclared_minify no)
    simp only [Stmt.minify, Report.value_bind]
    split
    · exact allows.trans allows.loses.simplifyIf parts
    · have kept := c.account.ofStmt_ifStmt pl.outer (test.minify o).value (yes.minify o).value
        (minifyElse o no).value
      exact allows.trans (allows.of_eq kept) parts
  | .label pl name body => by
    simp only [Stmt.minify, Report.value_bind, declared_labelStmt]
    exact body.declared_minify
  | .switch _ _ branches => branchesDeclared_minify branches
  | .tryCatch _ (.mk _ body) handler final =>
    allows.add (allows.trans (stmtsDeclared_tighten allows _) (stmtsDeclared_minify body))
      (allows.add (handlerDeclared_minify handler) (finalDeclared_minify final))
  | .var _ decl => allows.of_eq (decl.declared_minify c)
  | .breakTo _ _ | .continueTo _ _ | .empty _ | .expr _ _ | .func _ _ _ | .ret _ _
  | .throw _ _ => allows.refl _

theorem elseDeclared_minify : (no : Option Stmt) →
    within (elseDeclared c (minifyElse o no).value) (elseDeclared c no)
  | none => allows.refl _
  | some s => s.declared_minify

/-- Simplified statements declare what the statements declare, with the same losses. -/
theorem stmtsDeclared_minify : (body : List Stmt) →
    within (stmtsDeclared c (minifyStmts o body).value) (stmtsDeclared c body)
  | [] => allows.refl _
  | s :: rest => allows.add s.declared_minify (stmtsDeclared_minify rest)

theorem branchesDeclared_minify : (branches : List Branch) →
    within (branchesDeclared c (minifyBranches o branches).value) (branchesDeclared c branches)
  | [] => allows.refl _
  | .mk _ _ body :: rest =>
    allows.add (allows.trans (stmtsDeclared_tighten allows _) (stmtsDeclared_minify body))
      (branchesDeclared_minify rest)

theorem handlerDeclared_minify : (handler : Option Handler) →
    within (handlerDeclared c (minifyHandler o handler).value) (handlerDeclared c handler)
  | none => allows.refl _
  | some (.mk _ _ body) =>
    allows.trans (stmtsDeclared_tighten allows _) (stmtsDeclared_minify body)

theorem finalDeclared_minify : (final : Option Block) →
    within (finalDeclared c (minifyFinal o final).value) (finalDeclared c final)
  | none => allows.refl _
  | some (.mk _ body) =>
    allows.trans (stmtsDeclared_tighten allows _) (stmtsDeclared_minify body)

end

end Trees

end Minifier
