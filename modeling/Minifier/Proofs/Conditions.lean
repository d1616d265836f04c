import Minifier.Proofs.Lists

/-!
# Changes to `if` statements

What can become of an `if` statement. One with a constant condition comes down to the branch that runs,
behind the declarations of the branch that does not. Any other one becomes an expression or stays an
`if`, in one of a few ways.
-/

namespace Minifier

variable {o : Options}

/-- The branch that runs if the condition has the given truth value. -/
def liveBranch (truth : Bool) (yes : Stmt) (no : Option Stmt) : Option Stmt :=
  if truth then some yes else no

/-- The declarations of the branch that does not run. -/
def deadHoisted (truth : Bool) (yes : Stmt) (no : Option Stmt) : List Hoisted :=
  (if truth then no else some yes).toList.flatMap Stmt.hoisted

/-- What an `if` statement with a constant condition comes down to. -/
def ifRemains (truth : Bool) (yes : Stmt) (no : Option Stmt) : List Stmt :=
  (deadHoisted truth yes no).map Hoisted.toStmt ++ (liveBranch truth yes no).toList

section ConstantIf

variable {span : Span} {test : Expr} {truth : Bool} {yes : Stmt} {no : Option Stmt}

/-- An `if` statement stays if a function is declared in the branch that does not run. -/
theorem value_constantIf_of_func (func : (deadHoisted truth yes no).any Hoisted.isFunc = true) :
    (constantIf o span test truth yes no).value = ifStmt span test yes no := by
  unfold constantIf
  simp only [Report.value_bind]
  rw [← deadHoisted, if_pos func]
  rfl

/-- An `if` statement with a constant condition becomes the branch that runs, nothing, or what it comes
down to, in a block if that is not one statement. -/
theorem value_constantIf_cases (noFunc : (deadHoisted truth yes no).any Hoisted.isFunc = false) :
    (constantIf o span test truth yes no).value ∈ liveBranch truth yes no ∨
      (constantIf o span test truth yes no).value = .empty (.both span) ∨
      unwrapBlocks (ifRemains truth yes no) = [(constantIf o span test truth yes no).value] ∨
      (constantIf o span test truth yes no).value =
        .block (.both span) (unwrapBlocks (ifRemains truth yes no)) := by
  unfold constantIf
  simp only [Report.value_bind]
  rw [← deadHoisted, ← liveBranch, noFunc, if_neg Bool.false_ne_true]
  unfold ifRemains
  generalize deadHoisted truth yes no = hoisted
  generalize liveBranch truth yes no = live
  split
  · exact .inl rfl
  · exact .inr (.inl rfl)
  · split
    · next only shape => exact .inr (.inr (.inl shape))
    · exact .inr (.inr (.inr rfl))

/-- The condition is all there is to say about an `if` statement with a constant condition. -/
theorem findings_constantIf :
    (constantIf o span test truth yes no).findings =
      (Report.note o (.constantCondition truth test.span)).findings := by
  unfold constantIf
  simp only [Report.findings_bind]
  rw [← deadHoisted, ← liveBranch]
  generalize deadHoisted truth yes no = hoisted
  generalize liveBranch truth yes no = live
  -- The rest is put together without findings.
  refine (congrArg _ ?_).trans (List.append_nil _)
  split
  · rfl
  · split
    · rfl
    · rfl
    · split <;> rfl

/-- An `if` statement with a constant condition has the account of what it comes down to, if no
function is declared in the branch that does not run. -/
theorem ListCongruence.constantIf {same : List Stmt → List Stmt → Prop} (laws : ListCongruence same)
    (noFunc : (deadHoisted truth yes no).any Hoisted.isFunc = false)
    (block : same (Minifier.unwrapBlocks (ifRemains truth yes no))
      [.block (.both span) (Minifier.unwrapBlocks (ifRemains truth yes no))]) :
    same [(constantIf o span test truth yes no).value] (ifRemains truth yes no) := by
  unfold Minifier.constantIf
  simp only [Report.value_bind]
  rw [← deadHoisted, ← liveBranch, noFunc, if_neg Bool.false_ne_true]
  unfold ifRemains at *
  generalize deadHoisted truth yes no = hoisted at *
  generalize liveBranch truth yes no = live at *
  have unwrapped := laws.unwrapBlocks (hoisted.map Hoisted.toStmt ++ live.toList)
  split
  · exact laws.refl _
  · exact laws.symm (laws.empty _)
  · split
    · next only shape => exact shape ▸ unwrapped
    · exact laws.trans (laws.symm block) unwrapped

end ConstantIf

/-- What becomes of an `if` statement with the given condition and branches, none of them an idle
`else`. -/
inductive IfOutcome (o : Options) (span : Span) (test : Expr) : Stmt → Option Stmt → Stmt → Prop
  | constant (yes : Stmt) (no : Option Stmt) {c : Constant} (known : test.known? o = some c) :
    IfOutcome o span test yes no
      (constantIf o span (c.toExpr test.span) c.toBool yes no).value
  | choice (p q : Place) (a b : Expr) :
    IfOutcome o span test (.expr p a) (some (.expr q b)) (.ofExpr (condExpr o span test a b))
  | conjunction (p : Place) (a : Expr) :
    IfOutcome o span test (.expr p a) none
      (.ofExpr (.binary (.both span) .logicalAnd test a))
  | disjunction (yes : Stmt) (idle : yes.isIdle = true) (q : Place) (b : Expr) :
    IfOutcome o span test yes (some (.expr q b))
      (.ofExpr (.binary (.both span) .logicalOr test b))
  | turned (yes : Stmt) (idle : yes.isIdle = true) (other : Stmt) :
    IfOutcome o span test yes (some other) (ifStmt span (test.negate o) other none)
  | plain (yes : Stmt) (no : Option Stmt) :
    IfOutcome o span test yes no (ifStmt span test yes.respan (no.map Stmt.respan))

/-- A constant is known only if constants are to be folded. -/
theorem Expr.evaluate_of_known? {e : Expr} {k : Constant} (known : e.known? o = some k) :
    o.evaluate = true := by
  unfold known? at known
  split at known
  · assumption
  · cases known

/-- Only a statement of nothing is idle: an empty one or an empty block. -/
theorem Stmt.eq_of_isIdle {s : Stmt} (idle : s.isIdle = true) :
    (∃ pl, s = .empty pl) ∨ ∃ pl, s = .block pl [] := by
  cases s with
  | empty pl => exact .inl ⟨pl, rfl⟩
  | block pl body =>
    obtain rfl := List.isEmpty_iff.mp idle
    exact .inr ⟨pl, rfl⟩
  | _ => cases idle

theorem Stmt.eq_expr_of_expr? {s : Stmt} {e : Expr} (found : s.expr? = some e) :
    ∃ pl, s = .expr pl e := by
  cases s with
  | expr pl e' => cases found; exact ⟨pl, rfl⟩
  | _ => cases found

theorem Stmt.respan_of_not_expr {s : Stmt} (other : s.expr? = none) : s.respan = s := by
  unfold respan
  rw [other]

/-- The only finding about an `if` statement is that its condition is constant. -/
theorem findings_simplifyIf (span : Span) (test : Expr) (yes : Stmt) (no : Option Stmt) :
    (simplifyIf o span test yes no).findings = (test.known? o).toList.flatMap fun c =>
      (Report.note o (.constantCondition c.toBool (c.toExpr test.span).span)).findings := by
  unfold simplifyIf
  generalize no.filter (fun s => !s.isIdle) = no
  cases test.known? o with
  | some c => exact findings_constantIf.trans (List.append_nil _).symm
  | none =>
    dsimp only
    split
    · split <;> rfl
    · rfl
    · split
      · split <;> rfl
      · rfl
    · rfl

/-- Simplifying an `if` statement has one of these outcomes, once an idle `else` is dropped. -/
theorem ifOutcome_simplifyIf (span : Span) (test : Expr) (yes : Stmt) (no : Option Stmt) :
    IfOutcome o span test yes (no.filter fun s => !s.isIdle)
      (simplifyIf o span test yes no).value := by
  unfold simplifyIf
  generalize no.filter (fun s => !s.isIdle) = no
  dsimp only
  split
  · next c known => exact .constant yes no known
  · split
    · next a other shape =>
      obtain ⟨p, rfl⟩ := Stmt.eq_expr_of_expr? shape
      split
      · next b shape =>
        obtain ⟨q, rfl⟩ := Stmt.eq_expr_of_expr? shape
        exact .choice p q a b
      · next shape =>
        have plain := @IfOutcome.plain o span test (.expr p a) (some other)
        rwa [Option.map_some, Stmt.respan_of_not_expr shape] at plain
    · next a shape =>
      obtain ⟨p, rfl⟩ := Stmt.eq_expr_of_expr? shape
      exact .conjunction p a
    · next other shape =>
      split
      · next idle =>
        split
        · next b shape =>
          obtain ⟨q, rfl⟩ := Stmt.eq_expr_of_expr? shape
          exact .disjunction yes idle q b
        · exact .turned yes idle other
      · have plain := @IfOutcome.plain o span test yes (some other)
        rwa [Stmt.respan_of_not_expr shape] at plain
    · next shape =>
      have plain := @IfOutcome.plain o span test yes none
      rwa [Stmt.respan_of_not_expr shape] at plain

end Minifier
