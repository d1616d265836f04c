import Mathlib.Data.Multiset.OrderedMonoid
import Minifier.Proofs.Accounts

/-!
# Jumps that lead out of a statement

A jump to a label leads out of the statements around it, up to the label. A `break` may name any label,
a `continue` only one that stands directly before a loop. The *exits* of a statement are the jumps to
labels in it that do not find their label there. Simplifying a statement adds none.
-/

namespace Minifier

/-- A jump to a label. -/
inductive Jump
  | breakTo (label : String)
  | continueTo (label : String)
deriving DecidableEq, Repr

/-- The label that a jump names. -/
def Jump.label : Jump → String
  | .breakTo l => l
  | .continueTo l => l

/-- Whether a jump ends at a label, which may stand before a loop. -/
def Jump.endsAt (name : String) (isLoop : Bool) : Jump → Bool
  | .breakTo l => l = name
  | .continueTo l => isLoop && l = name

/-- A label before a loop takes every jump that the same label takes elsewhere. -/
theorem Jump.endsAt_of_loop {name : String} {before after : Bool}
    (loop : before = true → after = true) {j : Jump} (ends : j.endsAt name before = true) :
    j.endsAt name after = true := by
  cases j with
  | breakTo l => exact ends
  | continueTo l => simp_all [endsAt]

/-- Whether a statement is a loop, perhaps with labels before it. -/
def Stmt.isLoop : Stmt → Bool
  | .doWhile _ _ _ | .forIn _ _ _ _ | .forLoop _ _ _ _ _ | .whileLoop _ _ _ => true
  | .label _ _ body => body.isLoop
  | _ => false

mutual

/-- The jumps to labels that lead out of a statement. -/
def Stmt.exits : Stmt → List Jump
  | .block _ body => stmtsExits body
  | .breakTo _ (some l) => [.breakTo l]
  | .continueTo _ (some l) => [.continueTo l]
  | .doWhile _ body _ | .forIn _ _ _ body | .forLoop _ _ _ _ body | .whileLoop _ _ body
  | .withObject _ _ body => body.exits
  | .ite _ _ yes no => yes.exits ++ elseExits no
  | .label _ name body => body.exits.filter fun j => !j.endsAt name body.isLoop
  | .switch _ _ branches => branchesExits branches
  | .tryCatch _ body handler final => body.exits ++ (handlerExits handler ++ finalExits final)
  | .breakTo _ none | .continueTo _ none | .debugger _ | .empty _ | .expr _ _ | .func _ _ _
  | .ret _ _ | .throw _ _ | .var _ _ => []

/-- The jumps to labels that lead out of an `else` branch. -/
def elseExits : Option Stmt → List Jump
  | none => []
  | some s => s.exits

/-- The jumps to labels that lead out of a list of statements. -/
def stmtsExits : List Stmt → List Jump
  | [] => []
  | s :: rest => s.exits ++ stmtsExits rest

/-- The jumps to labels that lead out of the branches of a `switch`. -/
def branchesExits : List Branch → List Jump
  | [] => []
  | .mk _ _ body :: rest => stmtsExits body ++ branchesExits rest

/-- The jumps to labels that lead out of a block of a `try` statement. -/
def Block.exits : Block → List Jump
  | .mk _ body => stmtsExits body

/-- The jumps to labels that lead out of the `catch` part of a `try` statement. -/
def handlerExits : Option Handler → List Jump
  | none => []
  | some (.mk _ _ body) => stmtsExits body

/-- The jumps to labels that lead out of the `finally` part of a `try` statement. -/
def finalExits : Option Block → List Jump
  | none => []
  | some block => block.exits

end

attribute [simp] Stmt.exits elseExits stmtsExits branchesExits Block.exits handlerExits finalExits

attribute [simp] Stmt.marks stmtsMarks branchesMarks handlerMarks blockMarks

/-- A label that a `continue` names stands before a loop. -/
def Stmt.ContinuesLoop : Stmt → Prop
  | .label _ name body => .continueTo name ∈ body.exits → body.isLoop = true
  | _ => True

mutual

/-- An exit is a jump that counts as a reference to its label. -/
theorem Stmt.mark_of_exit {j : Jump} : (s : Stmt) → j ∈ s.exits → .jump (some j.label) ∈ s.marks
  | .block _ body, mem => stmtsMarks_of_exit body mem
  | .breakTo _ (some l), mem | .continueTo _ (some l), mem => by
    obtain rfl := List.mem_singleton.mp mem
    exact List.mem_singleton.mpr rfl
  | .doWhile _ body _, mem => List.mem_append_right _ (body.mark_of_exit mem)
  | .forIn _ _ _ body, mem => List.mem_append_right _ (body.mark_of_exit mem)
  | .forLoop _ none _ _ body, mem => List.mem_append_right _ (body.mark_of_exit mem)
  | .forLoop _ (some _) _ _ body, mem => List.mem_append_right _ (body.mark_of_exit mem)
  | .whileLoop _ _ body, mem => List.mem_append_right _ (body.mark_of_exit mem)
  | .withObject _ _ body, mem => List.mem_append_right _ (body.mark_of_exit mem)
  | .ite _ _ yes none, mem =>
    List.mem_append_right _ (yes.mark_of_exit (by simpa [Stmt.exits, elseExits] using mem))
  | .ite _ _ yes (some no), mem =>
    (List.mem_append.mp mem).elim
      (fun inYes => List.mem_append_left _ (List.mem_append_right _ (yes.mark_of_exit inYes)))
      (fun inNo => List.mem_append_right _ (no.mark_of_exit inNo))
  | .label _ _ body, mem => body.mark_of_exit (List.mem_filter.mp mem).1
  | .switch _ _ branches, mem => List.mem_append_right _ (branchesMarks_of_exit branches mem)
  | .tryCatch _ (.mk _ body) handler final, mem => by
    simp only [Stmt.marks, List.mem_append]
    simp only [Stmt.exits, Block.exits, List.mem_append] at mem
    obtain inBody | inHandler | inFinal := mem
    · exact .inl (.inl (stmtsMarks_of_exit body inBody))
    · exact .inl (.inr (handlerMarks_of_exit handler inHandler))
    · exact .inr (finalMarks_of_exit final inFinal)

/-- A jump that leads out of a list refers to its label there. -/
theorem stmtsMarks_of_exit {j : Jump} :
    (body : List Stmt) → j ∈ stmtsExits body → .jump (some j.label) ∈ stmtsMarks body
  | s :: rest, mem =>
    List.mem_append.mpr ((List.mem_append.mp mem).imp s.mark_of_exit (stmtsMarks_of_exit rest))

theorem branchesMarks_of_exit {j : Jump} : (branches : List Branch) →
    j ∈ branchesExits branches → .jump (some j.label) ∈ branchesMarks branches
  | .mk _ _ body :: rest, mem =>
    List.mem_append.mpr ((List.mem_append.mp mem).imp
      (fun inBody => List.mem_append_right _ (stmtsMarks_of_exit body inBody))
      (branchesMarks_of_exit rest))

theorem handlerMarks_of_exit {j : Jump} : (handler : Option Handler) →
    j ∈ handlerExits handler → .jump (some j.label) ∈ handlerMarks handler
  | some (.mk _ _ body), mem => stmtsMarks_of_exit body mem

theorem finalMarks_of_exit {j : Jump} : (final : Option Block) →
    j ∈ finalExits final → .jump (some j.label) ∈ blockMarks final
  | some (.mk _ body), mem => stmtsMarks_of_exit body mem

end

/-- A label that no jump names is no exit. -/
theorem Stmt.label_ne_of_exit {s : Stmt} {name : String} (unused : s.labelRefs name = 0) {j : Jump}
    (mem : j ∈ s.exits) : j.label ≠ name := by
  rintro rfl
  exact List.count_eq_zero.mp unused (s.mark_of_exit mem)

/-! ## Exits of simplified statements -/

/-- Exits are an account of statements to which expressions add nothing. -/
def exitAccount : Account (Multiset Jump) where
  ofExpr _ := 0
  ofStmt s := s.exits
  ofElse no := elseExits no
  ofStmts body := stmtsExits body
  binary _ _ _ _ _ := (add_zero 0).symm
  cond _ _ _ _ := by rw [add_zero, add_zero]
  negate _ _ := rfl
  constant _ _ := rfl
  expr _ _ := rfl
  ret _ _ := rfl
  throw _ _ := rfl
  empty _ := rfl
  block _ _ := rfl
  ite _ _ _ _ := by rw [zero_add, Stmt.exits, Multiset.coe_add]
  without := rfl
  otherwise _ := rfl
  nil := rfl
  cons _ _ := (Multiset.coe_add _ _).symm

/-- Hoisted declarations hold no jumps. -/
theorem stmtsExits_hoisted (hoisted : List Hoisted) :
    stmtsExits (hoisted.map Hoisted.toStmt) = [] := by
  induction hoisted with
  | nil => rfl
  | cons h rest ih => cases h <;> exact ih

variable {o : Options} {j : Jump}

/-- Every jump that is left of a statement was there, however often. -/
theorem exitAccount_loses : exitAccount.Loses o (· ⊆ ·) where
  refl := Multiset.Subset.refl
  trans := Multiset.Subset.trans
  add first second := by
    intro j mem
    exact Multiset.mem_add.mpr ((Multiset.mem_add.mp mem).imp (first ·) (second ·))
  known _ := Multiset.zero_subset _
  hoisted _ s := by
    change (stmtsExits _ : Multiset Jump) ⊆ _
    rw [stmtsExits_hoisted]
    exact Multiset.zero_subset _
  stripped _ _ _ := Multiset.zero_subset _

/-- No change to a list makes a jump that was not there. -/
theorem exit_of_tighten {stmts : List Stmt} (mem : j ∈ stmtsExits (tighten o stmts).value) :
    j ∈ stmtsExits stmts :=
  exitAccount_loses.tighten stmts mem

/-- A loop stays a loop. -/
theorem Stmt.isLoop_minify : (s : Stmt) → s.isLoop = true → (s.minify o).value.isLoop = true
  | .doWhile _ _ _, _ | .forIn _ _ _ _, _ | .forLoop _ _ _ _ _, _ | .whileLoop _ _ _, _ => rfl
  | .label pl name body, loop => by
    have here := body.isLoop_minify loop
    simp only [Stmt.minify, Report.value_bind, value_labelStmt]
    split
    · exact here
    · exact here

mutual

/-- Simplifying a statement adds no exits. -/
theorem Stmt.exit_of_minify : (s : Stmt) → j ∈ (s.minify o).value.exits → j ∈ s.exits
  | .block pl body, mem => by
    have inBody := (exitAccount_loses (o := o)).of_eq (exitAccount.ofStmt_blockStmt pl _) mem
    exact stmtsExit_of_minify body (exit_of_tighten inBody)
  | .debugger pl, mem => by
    simp only [Stmt.minify, Report.value_pure] at mem
    split at mem <;> cases mem
  | .doWhile _ body _, mem | .forIn _ _ _ body, mem | .forLoop _ _ _ _ body, mem
  | .whileLoop _ _ body, mem | .withObject _ _ body, mem => body.exit_of_minify mem
  | .ite pl test yes no, mem => by
    have inBranches : j ∈ (yes.minify o).value.exits ++ elseExits (minifyElse o no).value := by
      simp only [Stmt.minify, Report.value_bind] at mem
      split at mem
      · exact exitAccount_loses.simplifyIf mem
      · exact (exitAccount_loses (o := o)).of_eq (exitAccount.ofStmt_ifStmt _ _ _ _) mem
    exact List.mem_append.mpr ((List.mem_append.mp inBranches).imp yes.exit_of_minify
      (elseExit_of_minify no))
  | .label pl name body, mem => by
    refine List.mem_filter.mpr ?_
    simp only [Stmt.minify, Report.value_bind, value_labelStmt] at mem
    split at mem
    · next unused =>
      have other := Stmt.label_ne_of_exit unused mem
      refine ⟨body.exit_of_minify mem, ?_⟩
      cases j <;> simp_all [Jump.endsAt, Jump.label]
    · obtain ⟨inBody, passes⟩ := List.mem_filter.mp mem
      refine ⟨body.exit_of_minify inBody, ?_⟩
      have ends : j.endsAt name body.isLoop = true → j.endsAt name (body.minify o).value.isLoop = true :=
        Jump.endsAt_of_loop body.isLoop_minify
      simp only [Bool.not_eq_eq_eq_not, Bool.not_true, ← Bool.not_eq_true] at passes ⊢
      exact mt ends passes
  | .switch _ _ branches, mem => branchesExit_of_minify branches mem
  | .tryCatch _ (.mk _ body) handler final, mem => by
    refine List.mem_append.mpr ((List.mem_append.mp mem).imp ?_ fun rest =>
      List.mem_append.mpr ((List.mem_append.mp rest).imp (handlerExit_of_minify handler)
        (finalExit_of_minify final)))
    exact fun inBody => stmtsExit_of_minify body (exit_of_tighten inBody)
  | .breakTo _ _, mem | .continueTo _ _, mem | .empty _, mem | .expr _ _, mem | .func _ _ _, mem
  | .ret _ _, mem | .throw _ _, mem | .var _ _, mem => mem

theorem elseExit_of_minify : (no : Option Stmt) →
    j ∈ elseExits (minifyElse o no).value → j ∈ elseExits no
  | some s, mem => s.exit_of_minify mem

/-- Every jump out of the simplified statements leads out of the statements. -/
theorem stmtsExit_of_minify : (body : List Stmt) →
    j ∈ stmtsExits (minifyStmts o body).value → j ∈ stmtsExits body
  | s :: rest, mem =>
    List.mem_append.mpr ((List.mem_append.mp mem).imp s.exit_of_minify (stmtsExit_of_minify rest))

theorem branchesExit_of_minify : (branches : List Branch) →
    j ∈ branchesExits (minifyBranches o branches).value → j ∈ branchesExits branches
  | .mk _ _ body :: rest, mem =>
    List.mem_append.mpr ((List.mem_append.mp mem).imp
      (fun inBody => stmtsExit_of_minify body (exit_of_tighten inBody))
      (branchesExit_of_minify rest))

theorem handlerExit_of_minify : (handler : Option Handler) →
    j ∈ handlerExits (minifyHandler o handler).value → j ∈ handlerExits handler
  | some (.mk _ _ body), mem => stmtsExit_of_minify body (exit_of_tighten mem)

theorem finalExit_of_minify : (final : Option Block) →
    j ∈ finalExits (minifyFinal o final).value → j ∈ finalExits final
  | some (.mk _ body), mem => stmtsExit_of_minify body (exit_of_tighten mem)

end

end Minifier
