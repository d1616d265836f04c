import Mathlib.Algebra.Group.Basic
import Minifier.Proofs.Conditions

/-!
# Accounts of statements

An account gathers something from statements and adds it up: the declarations in them, the heads of
their expressions, the jumps that lead out of them. Most rules move parts of a statement to another
place, put in operators and braces, and leave every account as it was. The others fold a condition or
drop a statement that never runs. So what any account finds in a simplified list, and in a simplified
`if` statement, is known as soon as it is known what such a condition and such a statement lose.
-/

namespace Minifier

/-- Something that is gathered from expressions, from statements, from `else` branches and from lists
of statements, and is added up. Operators without an effect of their own, braces and constants count
for nothing. -/
structure Account (M : Type) [AddCommMonoid M] where
  ofExpr : Expr → M
  ofStmt : Stmt → M
  ofElse : Option Stmt → M
  ofStmts : List Stmt → M
  binary : ∀ pl op left right, op.isAssignment = false →
    ofExpr (.binary pl op left right) = ofExpr left + ofExpr right
  cond : ∀ pl test yes no, ofExpr (.cond pl test yes no) = ofExpr test + ofExpr yes + ofExpr no
  negate : ∀ o (e : Expr), ofExpr (e.negate o) = ofExpr e
  constant : ∀ span (k : Constant), ofExpr (k.toExpr span) = 0
  expr : ∀ pl e, ofStmt (.expr pl e) = ofExpr e
  ret : ∀ pl value, ofStmt (.ret pl (some value)) = ofExpr value
  throw : ∀ pl value, ofStmt (.throw pl value) = ofExpr value
  empty : ∀ pl, ofStmt (.empty pl) = 0
  block : ∀ pl body, ofStmt (.block pl body) = ofStmts body
  ite : ∀ pl test yes no, ofStmt (.ite pl test yes no) = ofExpr test + ofStmt yes + ofElse no
  without : ofElse none = 0
  otherwise : ∀ s, ofElse (some s) = ofStmt s
  nil : ofStmts [] = 0
  cons : ∀ s rest, ofStmts (s :: rest) = ofStmt s + ofStmts rest

/-- A relation of what is found after a change to what was found before. It holds of a whole if it
holds of the parts. -/
structure Compares {M : Type} [AddCommMonoid M] (within : M → M → Prop) : Prop where
  refl : ∀ a, within a a
  trans : ∀ {a b c}, within a b → within b c → within a c
  add : ∀ {a b c d}, within a b → within c d → within (a + c) (b + d)

/-- The same amount is within itself. -/
theorem Compares.of_eq {M : Type} [AddCommMonoid M] {within : M → M → Prop}
    (compares : Compares within) {a b : M} (same : a = b) : within a b :=
  same ▸ compares.refl a

namespace Account

variable {M : Type} [AddCommMonoid M] (a : Account M) {o : Options}

/-! ## Changes that keep every account -/

/-- A choice between two values counts for its three parts, negated or not. -/
theorem ofExpr_condExpr (span : Span) (test yes no : Expr) :
    a.ofExpr (condExpr o span test yes no) = a.ofExpr test + a.ofExpr yes + a.ofExpr no := by
  unfold condExpr Expr.shorter
  split
  · rw [a.cond, a.negate, add_right_comm]
  · exact a.cond _ _ _ _

theorem ofStmts_singleton (s : Stmt) : a.ofStmts [s] = a.ofStmt s := by
  rw [a.cons, a.nil, add_zero]

theorem ofStmts_toList (s : Option Stmt) : a.ofStmts s.toList = a.ofElse s := by
  cases s with
  | none => exact a.nil.trans a.without.symm
  | some s => exact (a.ofStmts_singleton s).trans (a.otherwise s).symm

/-- Two lists are taken down one after the other. -/
theorem ofStmts_append (x y : List Stmt) : a.ofStmts (x ++ y) = a.ofStmts x + a.ofStmts y := by
  induction x with
  | nil => rw [List.nil_append, a.nil, zero_add]
  | cons s rest ih => rw [List.cons_append, a.cons, a.cons, ih, add_assoc]

/-- Unwrapping blocks and joining expressions keep an account. -/
theorem congruence : ListCongruence fun x y => a.ofStmts x = a.ofStmts y where
  refl _ := rfl
  symm same := same.symm
  trans first second := first.trans second
  append head tail := by rw [a.ofStmts_append, a.ofStmts_append, head, tail]
  empty pl := by rw [a.ofStmts_singleton, a.empty, a.nil]
  block pl body _ := by rw [a.ofStmts_singleton, a.block]
  comma _ _ _ _ _ _ := by
    simp only [a.cons, a.nil, add_zero, a.expr]
    exact a.binary _ _ _ _ rfl
  ret _ _ _ _ _ _ := by
    simp only [a.cons, a.nil, add_zero, a.expr, a.ret]
    exact a.binary _ _ _ _ rfl
  throw _ _ _ _ _ _ := by
    simp only [a.cons, a.nil, add_zero, a.expr, a.throw]
    exact a.binary _ _ _ _ rfl

/-- Whether a block is kept around a statement does not matter. -/
theorem ofStmt_blockStmt (pl : Place) (body : List Stmt) :
    a.ofStmt (blockStmt pl body) = a.ofStmts body := by
  unfold blockStmt
  split
  · split
    · exact a.block _ _
    · exact (a.ofStmts_singleton _).symm
  · exact a.block _ _

/-- Spans are not taken down. -/
theorem ofStmt_respan (s : Stmt) : a.ofStmt s.respan = a.ofStmt s := by
  cases shape : s.expr? with
  | none => rw [Stmt.respan_of_not_expr shape]
  | some e =>
    obtain ⟨pl, rfl⟩ := Stmt.eq_expr_of_expr? shape
    exact (a.expr _ e).trans (a.expr pl e).symm

/-- Nothing is taken down of an idle statement. -/
theorem ofStmt_of_isIdle {s : Stmt} (idle : s.isIdle = true) : a.ofStmt s = 0 := by
  obtain ⟨pl, rfl⟩ | ⟨pl, rfl⟩ := Stmt.eq_of_isIdle idle
  · exact a.empty pl
  · exact (a.block pl []).trans a.nil

/-- An idle `else` branch counts for nothing. -/
theorem ofElse_filter (no : Option Stmt) : a.ofElse (no.filter fun s => !s.isIdle) = a.ofElse no := by
  cases no with
  | none => rfl
  | some s =>
    by_cases idle : s.isIdle
    · simp [Option.filter, idle, a.without, a.otherwise, a.ofStmt_of_isIdle]
    · simp [Option.filter, idle]

/-- The braces that keep an `else` away from an inner `if` count for nothing. -/
theorem ofStmt_ifStmt (span : Span) (test : Expr) (yes : Stmt) (no : Option Stmt) :
    a.ofStmt (ifStmt span test yes no) = a.ofExpr test + a.ofStmt yes + a.ofElse no := by
  unfold ifStmt
  rw [a.ite]
  split
  · rw [a.block, a.ofStmts_singleton]
  · rfl

/-! ## Changes that lose something -/

/-- A relation that allows for what the rules may lose of an account: a condition with a known value, a
statement that never runs except for its declarations, and the initial values of those. -/
structure Loses (a : Account M) (o : Options) (within : M → M → Prop) : Prop
    extends Compares within where
  known : ∀ {e k}, e.known? o = some k → within 0 (a.ofExpr e)
  hoisted : o.evaluate = true ∨ o.deadCode = true →
    ∀ s : Stmt, within (a.ofStmts (s.hoisted.map Hoisted.toStmt)) (a.ofStmt s)
  stripped : o.deadCode = true → ∀ outer decl,
    within (a.ofStmt (Hoisted.var decl).toStmt) (a.ofStmt (.var outer decl))

variable {a} {within : M → M → Prop} (loses : a.Loses o within)
include loses

/-- What is left of an unreachable statement is within the statement. -/
theorem Loses.kept (on : o.deadCode = true) (s : Stmt) : within (a.ofStmts s.kept) (a.ofStmt s) := by
  cases s with
  | func pl name fn => exact loses.of_eq (a.ofStmts_singleton _)
  | var outer decl =>
    exact loses.trans (loses.of_eq (a.ofStmts_singleton _)) (loses.stripped on outer decl)
  | _ => exact loses.hoisted (.inr on) _

theorem Loses.list : ListLoss (fun x y => a.ofStmts x = a.ofStmts y)
    fun x y => within (a.ofStmts x) (a.ofStmts y) where
  refl _ := loses.refl _
  append head tail := by
    rw [a.ofStmts_append, a.ofStmts_append]
    exact loses.add head tail
  after same rest := same ▸ rest
  before first same := same ▸ first

/-- All changes to a list lose no more than the statements in it that never run. -/
theorem Loses.tighten (stmts : List Stmt) :
    within (a.ofStmts (Minifier.tighten o stmts).value) (a.ofStmts stmts) := by
  refine loses.list.tighten a.congruence (fun on => ?_) stmts
  refine loses.list.dropUnreachable fun s => ?_
  rw [a.ofStmts_singleton]
  exact loses.kept on s

section Conditions

variable {span : Span} {test : Expr} {truth : Bool} {yes : Stmt} {no : Option Stmt}

/-- The declarations of the one branch and the statement of the other are within both branches. -/
theorem Loses.ifRemains (on : o.evaluate = true) :
    within (a.ofStmts (Minifier.ifRemains truth yes no)) (a.ofStmt yes + a.ofElse no) := by
  have dead (branch : Option Stmt) :
      within (a.ofStmts ((branch.toList.flatMap Stmt.hoisted).map Hoisted.toStmt))
        (a.ofElse branch) := by
    cases branch with
    | none => exact loses.of_eq (a.nil.trans a.without.symm)
    | some s => simpa [a.otherwise] using loses.hoisted (.inl on) s
  rw [Minifier.ifRemains, a.ofStmts_append, a.ofStmts_toList]
  cases truth with
  | true =>
    rw [add_comm (a.ofStmt yes), ← a.otherwise]
    exact loses.add (dead no) (loses.refl _)
  | false =>
    rw [← a.otherwise]
    exact loses.add (dead (some yes)) (loses.refl _)

/-- An `if` statement whose condition is replaced by its value is within its branches. -/
theorem Loses.constantIf (on : o.evaluate = true) (k : Constant) (inner : Span) :
    within (a.ofStmt (Minifier.constantIf o span (k.toExpr inner) truth yes no).value)
      (a.ofStmt yes + a.ofElse no) := by
  by_cases noFunc : (deadHoisted truth yes no).any Hoisted.isFunc = false
  · have same :
        a.ofStmts [(Minifier.constantIf o span (k.toExpr inner) truth yes no).value] = _ :=
      a.congruence.constantIf noFunc (by rw [a.ofStmts_singleton, a.block])
    rw [a.ofStmts_singleton] at same
    exact same ▸ loses.ifRemains on
  · rw [value_constantIf_of_func (by simpa using noFunc), a.ofStmt_ifStmt, a.constant, zero_add]
    exact loses.refl _

/-- Whatever becomes of an `if` statement is within its parts. -/
theorem Loses.ifOutcome {r : Stmt} (outcome : IfOutcome o span test yes no r) :
    within (a.ofStmt r) (a.ofExpr test + a.ofStmt yes + a.ofElse no) := by
  cases outcome with
  | @constant _ _ k known =>
    have branches : within (a.ofStmt (Minifier.constantIf o span (k.toExpr test.span) k.toBool yes no).value)
        (a.ofStmt yes + a.ofElse no) := loses.constantIf (Expr.evaluate_of_known? known) k test.span
    have whole := loses.add (loses.known known) branches
    rwa [zero_add, ← add_assoc] at whole
  | choice =>
    rw [a.otherwise, a.expr, a.expr]
    exact loses.of_eq ((a.expr _ _).trans (a.ofExpr_condExpr _ _ _ _))
  | conjunction =>
    rw [a.without, add_zero, a.expr]
    exact loses.of_eq ((a.expr _ _).trans (a.binary _ _ _ _ rfl))
  | disjunction _ idle =>
    rw [a.ofStmt_of_isIdle idle, add_zero, a.otherwise, a.expr]
    exact loses.of_eq ((a.expr _ _).trans (a.binary _ _ _ _ rfl))
  | turned _ idle =>
    rw [a.ofStmt_ifStmt, a.negate, a.ofStmt_of_isIdle idle, a.without, a.otherwise, add_zero,
      add_zero]
    exact loses.refl _
  | plain =>
    rw [a.ofStmt_ifStmt, a.ofStmt_respan]
    cases no with
    | none => exact loses.refl _
    | some s =>
      rw [Option.map_some, a.otherwise, a.otherwise, a.ofStmt_respan]
      exact loses.refl _

/-- What becomes of an `if` statement is within its condition and its branches. -/
theorem Loses.simplifyIf :
    within (a.ofStmt (Minifier.simplifyIf o span test yes no).value)
      (a.ofExpr test + a.ofStmt yes + a.ofElse no) :=
  a.ofElse_filter no ▸ loses.ifOutcome (ifOutcome_simplifyIf span test yes no)

end Conditions

end Account

end Minifier
