import Minifier.Proofs.Semantics.Negation
import Minifier.Proofs.Semantics.Statement

/-!
# Changed lists do the same

Unwrapping blocks, joining expressions and dropping what cannot be reached keep what a list of
statements does. Nothing is done behind a jump, so it does not matter what is left there. A block may be
unwrapped, or braces put around a statement, where the scope that goes or comes holds no name and so
does nothing.
-/

namespace Minifier

open Minifier.Action

variable {S V R : Type}

namespace StmtSemantics

variable {sem : StmtSemantics S V R} {o : Options}

/-- A scope without names does not matter, if nothing is done on the way into it and out of it. -/
theorem BareScopesIdle.inScope_nil (bare : sem.BareScopesIdle) {α : Type} (x : Action S V α) :
    sem.inScope [] x = x := by
  rw [inScope, bare.enter_nil, bare.leave_nil, perform_pure, pure_bind, always_pure]

/-- Two lists run one after the other. -/
theorem runAll_append (a b : List Stmt) :
    sem.runAll (a ++ b) = (sem.runAll a >>= fun _ => sem.runAll b) := by
  induction a with
  | nil => simp [runAll]
  | cons s rest ih => simp only [List.cons_append, runAll, ih, bind_assoc]

theorem runAll_singleton (s : Stmt) : sem.runAll [s] = sem.run s [] := by
  simp [runAll]

/-- A comma evaluates both operands and gives the value of the second. -/
theorem value_comma (span : Span) (first second : Expr) :
    sem.value (.comma span first second) = (sem.value first >>= fun _ => sem.value second) := by
  rw [Expr.comma, Semantics.value_binary, Semantics.binaryOf_comma, Semantics.read_operand,
    Semantics.read_operand]

/-- Doing the same is kept by everything that is done to a list. -/
theorem runAll_congruence (bare : sem.BareScopesIdle) :
    ListCongruence fun a b => sem.runAll a = sem.runAll b where
  refl _ := rfl
  symm same := same.symm
  trans first second := first.trans second
  append head tail := by rw [runAll_append, runAll_append, head, tail]
  empty pl := by simp [runAll, run]
  block pl body noBlock := by
    rw [runAll_singleton, run, stmtsLexicals_of_not_needsBlock noBlock, bare.inScope_nil]
  comma _ span first second _ _ := by simp [runAll, run, value_comma]
  ret _ span first value _ _ := by simp [runAll, run, result, value_comma]
  throw _ span first value _ _ := by simp [runAll, run, value_comma]

/-- Nothing is done behind a jump. -/
theorem run_jump_bind {s : Stmt} (jump : s.isJump = true) (labels : List String)
    (f : Unit → Action S V Unit) : (sem.run s labels >>= f) = sem.run s labels := by
  cases s with
  | breakTo | continueTo => simp only [run, throw_bind]
  | ret | throw => simp only [run, bind_assoc, throw_bind]
  | _ => cases jump

/-- Whatever stands behind a jump is not run. -/
theorem runAll_splitAtJump (stmts rest : List Stmt)
    (noneLeft : (splitAtJump stmts).2 = [] → rest = []) :
    sem.runAll ((splitAtJump stmts).1 ++ rest) = sem.runAll stmts := by
  fun_induction splitAtJump stmts with
  | case1 => rw [noneLeft rfl]; rfl
  | case2 s more jump =>
    simp only [List.cons_append, runAll, run_jump_bind jump]
  | case3 s more noJump reached unreached split ih =>
    rw [split] at ih
    simp only [List.cons_append, runAll, ih noneLeft]

/-- A list runs as before without its unreachable statements. -/
theorem runAll_dropUnreachable (stmts : List Stmt) :
    sem.runAll (dropUnreachable o stmts).value = sem.runAll stmts := by
  rw [value_dropUnreachable]
  refine runAll_splitAtJump stmts _ fun none => ?_
  rw [none]
  rfl

/-- Changes to a list keep what it does. -/
theorem runAll_tighten (bare : sem.BareScopesIdle) (stmts : List Stmt) :
    sem.runAll (tighten o stmts).value = sem.runAll stmts :=
  (runAll_congruence bare).loss.tighten (runAll_congruence bare)
    (fun _ => runAll_dropUnreachable) stmts

/-- A block around one statement can go if nothing is declared in it. -/
theorem run_blockStmt (bare : sem.BareScopesIdle) (pl : Place) (body : List Stmt) :
    sem.run (blockStmt pl body) [] = sem.run (.block pl body) [] := by
  unfold blockStmt
  split
  · next only =>
    split
    · rfl
    · next noBlock =>
      rw [run, stmtsLexicals_of_not_needsBlock (by simpa using noBlock), bare.inScope_nil,
        runAll_singleton]
  · rfl

end StmtSemantics

end Minifier
