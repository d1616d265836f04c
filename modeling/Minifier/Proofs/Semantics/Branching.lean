import Minifier.Proofs.Scopes
import Minifier.Proofs.Semantics.Body
import Minifier.Proofs.Semantics.Rewriting

/-!
# Changed `if` statements do the same

An `if` statement keeps what it does, whatever becomes of it: an expression, an `if` with the opposite
condition, or what is left of it if its condition is constant. Declarations of the branch that does not
run do nothing where they end up, since they have no initial values there.
-/

namespace Minifier

open Minifier.Action

variable {S V R : Type}

namespace StmtSemantics

variable {sem : StmtSemantics S V R} {o : Options}

/-- An expression statement evaluates its expression and forgets the value. -/
theorem run_ofExpr (e : Expr) (labels : List String) :
    sem.run (.ofExpr e) labels = (fun _ => ()) <$> perform (sem.value e) := by
  simp [Stmt.ofExpr, run]

/-- Spans do not matter to what a statement does. -/
theorem run_respan (s : Stmt) : sem.run s.respan [] = sem.run s [] := by
  cases s <;> rfl

theorem runElse_respan (no : Option Stmt) : sem.runElse (no.map Stmt.respan) = sem.runElse no := by
  cases no with
  | none => rfl
  | some s => exact run_respan s

/-- An idle statement does nothing. -/
theorem run_of_isIdle (bare : sem.BareScopesIdle) {s : Stmt} (idle : s.isIdle = true) :
    sem.run s [] = pure () := by
  obtain ⟨pl, rfl⟩ | ⟨pl, rfl⟩ := Stmt.eq_of_isIdle idle
  · rfl
  · exact bare.inScope_nil _

/-- An idle `else` can be dropped. -/
theorem runElse_filter (bare : sem.BareScopesIdle) (no : Option Stmt) :
    sem.runElse (no.filter fun s => !s.isIdle) = sem.runElse no := by
  cases no with
  | none => rfl
  | some s => by_cases idle : s.isIdle <;> simp [Option.filter, idle, runElse, run_of_isIdle bare]

/-- Braces around the first branch change nothing, as they hold no declaration. -/
theorem run_ifStmt (bare : sem.BareScopesIdle) {span : Span} {test : Expr} {yes : Stmt}
    {no : Option Stmt} (pl : Place) (inYes : yes.isScoped = false) :
    sem.run (ifStmt span test yes no) [] = sem.run (.ite pl test yes no) [] := by
  have braces : sem.run (.block (.both yes.span) [yes]) [] = sem.run yes [] := by
    rw [run, stmtsLexicals_of_not_needsBlock (by simpa [needsBlock] using inYes),
      bare.inScope_nil, runAll_singleton]
  unfold ifStmt
  split
  · rw [run, braces, run]
  · rw [run, run]

/-- A `var` without initial values does nothing when it is run. -/
theorem declareNames_strip (laws : sem.Lawful) (span : Span) (declarators : List Declarator) :
    sem.declareNames .list .var (declarators.map (Declarator.strip span .var)) = pure () := by
  induction declarators with
  | nil => rfl
  | cons d rest ih =>
    obtain ⟨name, init⟩ := d
    simpa [Declarator.strip, declareNames, laws.declare_var] using ih

/-- A hoisted `var` does nothing when it is run. -/
theorem run_toStmt (laws : sem.Lawful) {h : Hoisted} (hoisted : ∀ d, h = .var d → d.mode = .var)
    (noFunc : h.isFunc = false) : sem.run h.toStmt [] = pure () := by
  cases h with
  | var decl =>
    obtain ⟨span, mode, declarators⟩ := decl
    obtain rfl : mode = .var := hoisted _ rfl
    rw [Hoisted.toStmt, run, VarDecl.strip, declareVars, declareNames_strip laws, perform_pure]
  | func span name fn => cases noFunc

/-- Statements that do nothing do nothing together. -/
theorem runAll_of_idle {body : List Stmt} (each : ∀ s ∈ body, sem.run s [] = pure ()) :
    sem.runAll body = pure () := by
  induction body with
  | nil => rfl
  | cons s rest ih =>
    rw [runAll, each s List.mem_cons_self, pure_bind]
    exact ih fun t mem => each t (List.mem_cons_of_mem s mem)

section Conditions

variable {span : Span} {test : Expr} {truth : Bool} {yes : Stmt} {no : Option Stmt}

/-- What an `if` statement with a constant condition comes down to runs like the branch that is chosen.
-/
theorem runAll_ifRemains (laws : sem.Lawful)
    (noFunc : (deadHoisted truth yes no).any Hoisted.isFunc = false) :
    sem.runAll (ifRemains truth yes no) = if truth then sem.run yes [] else sem.runElse no := by
  have inDead : sem.runAll ((deadHoisted truth yes no).map Hoisted.toStmt) = pure () := by
    refine runAll_of_idle fun t mem => ?_
    obtain ⟨h, found, rfl⟩ := List.mem_map.mp mem
    refine run_toStmt laws (fun d shape => mode_of_mem_deadHoisted (shape ▸ found)) ?_
    simpa using List.any_eq_false.mp noFunc h found
  rw [ifRemains, runAll_append, inDead, pure_bind]
  cases truth with
  | true => exact runAll_singleton yes
  | false => cases no with
    | none => rfl
    | some s => exact runAll_singleton s

/-- An `if` statement with a constant condition runs as before once it is simplified. -/
theorem run_constantIf (laws : sem.Lawful) (bare : sem.BareScopesIdle) (pl : Place) (inYes : yes.isScoped = false)
    (inNo : ∀ s ∈ no, s.isScoped = false) (constant : sem.holds test = pure truth) :
    sem.run (constantIf o span test truth yes no).value [] = sem.run (.ite pl test yes no) [] := by
  have chosen : sem.run (.ite pl test yes no) [] =
      if truth then sem.run yes [] else sem.runElse no := by
    rw [run, constant, perform_pure, pure_bind]
  by_cases noFunc : (deadHoisted truth yes no).any Hoisted.isFunc = false
  · have unscoped := needsBlock_unwrapBlocks (needsBlock_ifRemains noFunc inYes inNo)
    have same : sem.runAll [(constantIf o span test truth yes no).value] = _ :=
      (runAll_congruence bare).constantIf noFunc ((runAll_congruence bare).block _ unscoped)
    rw [chosen, ← runAll_ifRemains laws noFunc, ← same, runAll_singleton]
  · rw [value_constantIf_of_func (by simpa using noFunc), run_ifStmt bare pl inYes]

/-- An `if` statement between two expressions runs like a conditional expression. -/
theorem run_choice (laws : sem.Lawful) (off : o.comparisons = false) (pl p q : Place) (a b : Expr) :
    sem.run (.ofExpr (condExpr o span test a b)) [] =
      sem.run (.ite pl test (.expr p a) (some (.expr q b))) [] := by
  have same : sem.value (condExpr o span test a b) =
      (sem.holds test >>= fun truth => if truth then sem.value a else sem.value b) := by
    rw [Semantics.value, Semantics.operand_condExpr laws.toLogical off span pl,
      Semantics.read_operand, Semantics.value_cond]
  simp only [run_ofExpr, same, run, runElse, perform_bind, map_bind]
  congr 1
  funext truth
  cases truth <;> simp

/-- An `if` statement around one expression runs like a conjunction. -/
theorem run_conjunction (pl p : Place) (a : Expr) :
    sem.run (.ofExpr (.binary (.both span) .logicalAnd test a)) [] =
      sem.run (.ite pl test (.expr p a) none) [] := by
  simp only [run_ofExpr, Semantics.value_binary, Semantics.binaryOf_logicalAnd,
    Semantics.read_operand, run, runElse, Semantics.holds, perform_bind, perform_map, map_bind,
    bind_map_left]
  congr 1
  funext v
  cases sem.truthy v <;> simp

/-- With the expression in the `else` only, it runs like a disjunction. -/
theorem run_disjunction (bare : sem.BareScopesIdle) (pl q : Place) (b : Expr) (idle : yes.isIdle = true) :
    sem.run (.ofExpr (.binary (.both span) .logicalOr test b)) [] =
      sem.run (.ite pl test yes (some (.expr q b))) [] := by
  simp only [run_ofExpr, Semantics.value_binary, Semantics.binaryOf_logicalOr,
    Semantics.read_operand, run, runElse, Semantics.holds, perform_bind, perform_map, map_bind,
    bind_map_left, run_of_isIdle bare idle]
  congr 1
  funext v
  cases sem.truthy v <;> simp

/-- An `if` statement with an idle first branch runs like one with the condition negated. -/
theorem run_turned (laws : sem.Lawful) (bare : sem.BareScopesIdle) (off : o.comparisons = false) (pl : Place)
    (idle : yes.isIdle = true) (other : Stmt) :
    sem.run (.ite pl (test.negate o) other none) [] = sem.run (.ite pl test yes (some other)) [] := by
  simp only [run, runElse, laws.toLogical.holds_negate off, perform_map, bind_map_left,
    run_of_isIdle bare idle]
  congr 1
  funext truth
  cases truth <;> rfl

/-- Whatever becomes of an `if` statement does the same. -/
theorem run_ifOutcome (laws : sem.Lawful) (bare : sem.BareScopesIdle) (off : o.comparisons = false) {r : Stmt}
    (outcome : IfOutcome o span test yes no r) (pl : Place) (inYes : yes.isScoped = false)
    (inNo : ∀ s ∈ no, s.isScoped = false) : sem.run r [] = sem.run (.ite pl test yes no) [] := by
  cases outcome with
  | @constant _ _ c known =>
    have found := Semantics.operand_of_constant laws.toLawful (Expr.constant?_of_known? known)
    have same : sem.operand (c.toExpr test.span) = sem.operand test := by
      rw [Semantics.operand_toExpr, found]
    have constant : sem.holds (c.toExpr test.span) = pure c.toBool := by
      rw [Semantics.holds, Semantics.value, Semantics.operand_toExpr, Semantics.read_pure_value,
        map_pure, laws.truthy_constant]
    rw [run_constantIf laws bare pl inYes inNo constant]
    simp only [run, Semantics.holds, Semantics.value, same]
  | choice p q a b => exact run_choice laws off pl p q a b
  | conjunction p a => exact run_conjunction pl p a
  | disjunction _ idle q b => exact run_disjunction bare pl q b idle
  | turned _ idle other => rw [run_ifStmt bare pl (inNo other rfl), run_turned laws bare off pl idle other]
  | plain =>
    have unscoped : yes.respan.isScoped = false := by cases yes <;> first | rfl | exact inYes
    rw [run_ifStmt bare pl unscoped]
    simp only [run, run_respan, runElse_respan]

/-- A simplified `if` statement does the same. -/
theorem run_simplifyIf (laws : sem.Lawful) (bare : sem.BareScopesIdle) (off : o.comparisons = false) (pl : Place)
    (inYes : yes.isScoped = false) (inNo : ∀ s ∈ no, s.isScoped = false) :
    sem.run (simplifyIf o span test yes no).value [] = sem.run (.ite pl test yes no) [] := by
  have inKept : ∀ s ∈ no.filter fun s => !s.isIdle, s.isScoped = false :=
    fun s mem => inNo s (Option.filter_eq_some_iff.mp mem).1
  rw [run_ifOutcome laws bare off (ifOutcome_simplifyIf span test yes no) pl inYes inKept]
  simp only [run, runElse_filter bare]

end Conditions

end StmtSemantics

end Minifier
