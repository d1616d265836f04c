import Minifier.Proofs.Conditions
import Minifier.Proofs.Nodes

/-!
# Tidy trees

A tree is tidy if no rule applies to any of its nodes, two rules apart: a conditional expression may
still get shorter when it is turned around, and a negated constant may still be folded. A statement
that is the only one of a block that need not be one is *loose*. Such blocks are no longer needed once
the printer adds its own braces, but they are not always gone: an `if` inside an `if` keeps them.
-/

namespace Minifier

/-! ## Nodes that no rule changes -/

/-- The statement without the block around it, if that holds nothing else and need not be a block. -/
def Stmt.unbraced : Stmt → Stmt
  | .block pl body => blockStmt pl body
  | s => s

/-- The simplification of an `if` statement with simplified parts. -/
def simplerIf (o : Options) (span : Span) (test : Expr) (yes : Stmt) (no : Option Stmt) : Stmt :=
  if o.conditionals then (simplifyIf o span test yes no).value else ifStmt span test yes no

variable (o : Options)

/-- No rule applies to the expression itself, apart from the two that are left out. -/
def Expr.IsTidy : Expr → Prop
  | .binary pl op left right => op.isAssignment = false →
    (o.comparisons = true → op.loosened? left right = none) ∧
    (Expr.binary pl op left right).known? o = none
  | .index pl target key => indexExpr o pl target key = .index pl target key
  | .cond pl _ _ _ => pl = .both pl.outer
  | .unary pl op arg => (op = .logicalNot → o.conditionals = false) →
    (Expr.unary pl op arg).known? o = none
  | _ => True

/-- No rule applies to the statement itself. The first branch of an `if` may have braces that the
`else` makes necessary. -/
def Stmt.IsTidy : Stmt → Prop
  | .debugger _ => o.dropDebugger = false
  | .doWhile _ body _ | .forIn _ _ _ body | .forLoop _ _ _ _ body | .whileLoop _ _ body
  | .withObject _ _ body => body.unbraced = body
  | .ite pl test yes no => (∀ s ∈ no, s.unbraced = s) ∧
    simplerIf o pl.outer test yes.unbraced no = .ite pl test yes no
  | .label _ name body => body.unbraced = body ∧ body.labelRefs name ≠ 0
  | _ => True

/-- None of the changes to lists applies to a list of statements. -/
structure BodyIsTidy (body : List Stmt) : Prop where
  unwrapped : ∀ s ∈ body, s.unwrapped = [s]
  reached : o.deadCode = true → ∀ s ∈ (splitAtJump body).2, s.kept = [s]
  joined : o.sequences = true → fuse body = body

/-- The nodes that no rule changes. -/
def Check.tidy : Check := ⟨Expr.IsTidy o, Stmt.IsTidy o, BodyIsTidy o⟩

variable {o}

/-! ## Expressions -/

/-- Nothing is known of an expression if constants are not to be folded, or it has no constant value. -/
theorem Expr.known?_eq_none_iff {e : Expr} :
    e.known? o = none ↔ (o.evaluate = true → e.constant? = none) := by
  unfold known?
  split <;> simp_all

/-- A constant is written tidily. -/
theorem Constant.tidy_toExpr (span : Span) (c : Constant) : (c.toExpr span).Meets (.tidy o) := by
  cases c <;> trivial

/-- A comparison that was loosened cannot be loosened again. -/
theorem Operator.loosened?_loosened {op looser : Operator} {left right : Expr}
    (loosened : op.loosened? left right = some looser) : looser.loosened? left right = none := by
  unfold loosened? at loosened ⊢
  split at loosened
  · split at loosened <;> cases loosened <;> simp
  · cases loosened

/-- An operation on tidy operands is tidy once it is folded, if its comparison need not be loosened. -/
theorem tidy_folded_binary {pl : Place} {op : Operator} {left right : Expr}
    (strict : o.comparisons = true → op.loosened? left right = none)
    (inLeft : left.Meets (.tidy o)) (inRight : right.Meets (.tidy o)) :
    ((Expr.binary pl op left right).folded o).Meets (.tidy o) := by
  unfold Expr.folded
  split
  · exact Constant.tidy_toExpr _ _
  · next unknown => exact ⟨fun _ => ⟨strict, unknown⟩, inLeft, inRight⟩

/-- An operation on tidy operands is put together tidily. -/
theorem tidy_binaryExpr {pl : Place} {op : Operator} {left right : Expr}
    (inLeft : left.Meets (.tidy o)) (inRight : right.Meets (.tidy o)) :
    (binaryExpr o pl op left right).Meets (.tidy o) := by
  unfold binaryExpr
  split
  · next assigns => exact ⟨fun other => by simp [assigns] at other, inLeft, inRight⟩
  · refine tidy_folded_binary (fun compares => ?_) inLeft inRight
    rw [if_pos compares]
    cases loosened : op.loosened? left right with
    | none => exact loosened
    | some looser => exact Operator.loosened?_loosened loosened

/-- An access by key is put together tidily. -/
theorem tidy_indexExpr {pl : Place} {object key : Expr}
    (inObject : object.Meets (.tidy o)) (inKey : key.Meets (.tidy o)) :
    (indexExpr o pl object key).Meets (.tidy o) := by
  unfold indexExpr
  split
  · next pl' name =>
    split
    · exact ⟨trivial, inObject⟩
    · next dashed => exact ⟨by simp [Check.tidy, Expr.IsTidy, indexExpr, dashed], inObject, inKey⟩
  · next noStr =>
    refine ⟨?_, inObject, inKey⟩
    cases key with
    | str pl' name => exact absurd rfl (noStr pl' name)
    | _ => rfl

/-- A unary expression with a tidy operand is tidy once it is folded. -/
theorem tidy_folded_unary {pl : Place} {op : Operator} {arg : Expr} (inArg : arg.Meets (.tidy o)) :
    ((Expr.unary pl op arg).folded o).Meets (.tidy o) := by
  unfold Expr.folded
  split
  · exact Constant.tidy_toExpr _ _
  · next unknown => exact ⟨fun _ => unknown, inArg⟩

/-- A comma expression is never a constant. -/
theorem constant?_comma (pl : Place) (left right : Expr) :
    (Expr.binary pl .comma left right).constant? = none := by
  simp only [Expr.constant?]
  split <;> rfl

/-- Tidy expressions are joined tidily. -/
theorem tidy_comma {span : Span} {first second : Expr} (inFirst : first.Meets (.tidy o))
    (inSecond : second.Meets (.tidy o)) : (Expr.comma span first second).Meets (.tidy o) := by
  refine ⟨fun _ => ⟨fun _ => ?_, Expr.known?_eq_none_iff.mpr fun _ => ?_⟩, inFirst, inSecond⟩
  · simp [Operator.loosened?]
  · exact constant?_comma _ _ _

/-- An operator folds the constants that its opposite folds. -/
theorem Operator.isSome_fold?_opposite {relations : Bool} {op opposite : Operator}
    (turned : op.opposite? relations = some opposite) (a b : Constant) :
    (opposite.fold? a b).isSome = (op.fold? a b).isSome := by
  unfold opposite? at turned
  split at turned
  all_goals first | cases turned | (split at turned <;> cases turned)
  all_goals simp [fold?, Constant.relation]

/-- Turning an operator around does not make a constant of an expression. -/
theorem isSome_constant?_opposite {relations : Bool} {pl here : Place} {op opposite : Operator}
    {left right : Expr} (turned : op.opposite? relations = some opposite) :
    (Expr.binary here opposite left right).constant?.isSome =
      (Expr.binary pl op left right).constant?.isSome := by
  simp only [Expr.constant?]
  split
  · exact Operator.isSome_fold?_opposite turned _ _
  · rfl

/-- Both operands of a logical operator must be constants for the whole to be one. -/
theorem isSome_constant?_logical {pl : Place} {op : Operator} {left right : Expr}
    (logical : op = .logicalAnd ∨ op = .logicalOr) :
    (Expr.binary pl op left right).constant?.isSome =
      (left.constant?.isSome && right.constant?.isSome) := by
  obtain rfl | rfl := logical <;> simp only [Expr.constant?] <;>
    cases left.constant? <;> cases right.constant? <;> rfl

/-- A negation is a constant where its operand is one. -/
theorem isSome_constant?_not (span : Span) (e : Expr) :
    (Expr.not span e).constant?.isSome = e.constant?.isSome := by
  simp only [Expr.not, Expr.constant?]
  cases e.constant? <;> rfl

/-- The negation of a condition is a constant exactly if the condition is one. -/
theorem Expr.isSome_constant?_negate :
    (e : Expr) → (e.negate o).constant?.isSome = e.constant?.isSome
  | .unary pl op arg => by
    unfold negate
    split
    · next isNot => exact isNot ▸ (isSome_constant?_not pl.outer arg).symm
    · exact isSome_constant?_not _ _
  | .cond pl test yes no => by
    simp only [negate, constant?]
    split
    · split
      · exact isSome_constant?_negate yes
      · exact isSome_constant?_negate no
    · rfl
  | .binary pl op left right => by
    unfold negate
    dsimp only
    split
    · rw [constant?_comma, constant?_comma]
    · rw [isSome_constant?_logical (.inr rfl), isSome_constant?_logical (.inl rfl),
        isSome_constant?_negate left, isSome_constant?_negate right]
    · rw [isSome_constant?_logical (.inl rfl), isSome_constant?_logical (.inr rfl),
        isSome_constant?_negate left, isSome_constant?_negate right]
    · split
      · next turned => exact isSome_constant?_opposite turned
      · exact isSome_constant?_not _ _
  | .call .. | .index .. | .func .. | .ident .. | .member .. | .this .. | .update .. | .array ..
  | .bool .. | .null .. | .num .. | .object .. | .regex .. | .str .. | .undef .. => rfl

/-- Of two expressions that are constants in the same cases, both are known or neither is. -/
theorem Expr.known?_eq_none_of_isSome {e f : Expr} (same : f.constant?.isSome = e.constant?.isSome)
    (unknown : e.known? o = none) : f.known? o = none := by
  rw [known?_eq_none_iff] at *
  intro folds
  rw [unknown folds] at same
  exact Option.isSome_eq_false_iff.mp same |> Option.isNone_iff_eq_none.mp

/-- The negation of a condition that is not known is not known either. -/
theorem Expr.known?_negate {e : Expr} (unknown : e.known? o = none) : (e.negate o).known? o = none :=
  known?_eq_none_of_isSome e.isSome_constant?_negate unknown

/-- No assignment has an opposite. -/
theorem Operator.isAssignment_of_opposite? {relations : Bool} {op opposite : Operator}
    (turned : op.opposite? relations = some opposite) : op.isAssignment = false := by
  cases op <;> first | rfl | cases turned

/-- The opposite of a comparison that cannot be loosened cannot be loosened. -/
theorem Operator.loosened?_opposite {relations : Bool} {op opposite : Operator} {left right : Expr}
    (turned : op.opposite? relations = some opposite) (strict : op.loosened? left right = none) :
    opposite.loosened? left right = none := by
  unfold opposite? at turned
  unfold loosened? at strict ⊢
  split at turned
  all_goals first | cases turned | (split at turned <;> cases turned)
  all_goals split <;> simp_all

/-- A negation is tidy if its operand is, since negations are left to another check. -/
theorem tidy_not (on : o.conditionals = true) {span : Span} {e : Expr} (tidy : e.Meets (.tidy o)) :
    (Expr.not span e).Meets (.tidy o) :=
  ⟨fun off => Bool.noConfusion (on.symm.trans (off rfl)), tidy⟩

/-- The negation of a tidy condition is tidy. -/
theorem Expr.tidy_negate (on : o.conditionals = true) :
    (e : Expr) → e.Meets (.tidy o) → (e.negate o).Meets (.tidy o)
  | .unary pl op arg, tidy => by
    unfold negate
    split
    · exact tidy.2
    · exact tidy_not on tidy
  | .cond pl test yes no, ⟨_, inTest, inYes, inNo⟩ =>
    ⟨rfl, inTest, yes.tidy_negate on inYes, no.tidy_negate on inNo⟩
  | .binary pl op left right, ⟨here, inLeft, inRight⟩ => by
    unfold negate
    dsimp only
    split
    · exact tidy_comma inLeft (right.tidy_negate on inRight)
    · have unknown := known?_negate (here rfl).2
      exact ⟨fun _ => ⟨fun _ => by simp [Operator.loosened?], unknown⟩,
        left.tidy_negate on inLeft, right.tidy_negate on inRight⟩
    · have unknown := known?_negate (here rfl).2
      exact ⟨fun _ => ⟨fun _ => by simp [Operator.loosened?], unknown⟩,
        left.tidy_negate on inLeft, right.tidy_negate on inRight⟩
    · split
      · next turned =>
        obtain ⟨strict, unknown⟩ := here (Operator.isAssignment_of_opposite? turned)
        exact ⟨fun _ => ⟨fun compares => Operator.loosened?_opposite turned (strict compares),
          known?_eq_none_of_isSome (isSome_constant?_opposite turned) unknown⟩, inLeft, inRight⟩
      · exact tidy_not on ⟨here, inLeft, inRight⟩
  | .call .., tidy | .index .., tidy | .func .., tidy | .ident .., tidy | .member .., tidy
  | .this .., tidy | .update .., tidy | .array .., tidy | .bool .., tidy | .null .., tidy
  | .num .., tidy | .object .., tidy | .regex .., tidy | .str .., tidy | .undef .., tidy =>
    tidy_not on tidy

/-- A choice between tidy expressions is put together tidily. -/
theorem tidy_condExpr (on : o.conditionals = true) {span : Span} {test yes no : Expr} (inTest : test.Meets (.tidy o))
    (inYes : yes.Meets (.tidy o)) (inNo : no.Meets (.tidy o)) :
    (condExpr o span test yes no).Meets (.tidy o) := by
  unfold condExpr Expr.shorter
  split
  · exact ⟨rfl, test.tidy_negate on inTest, inNo, inYes⟩
  · exact ⟨rfl, inTest, inYes, inNo⟩

end Minifier
