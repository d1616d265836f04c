import Mathlib.Data.Option.NAry
import Minifier.Proofs.SecondPass.Output
import Minifier.Proofs.Semantics.Kinds
import Minifier.Proofs.Semantics.Rewriting

/-!
# Simplification keeps constants

An expression that folds to a constant folds to the same one after simplification, and none of the
others becomes a constant. Folding itself and loosened comparisons are harmless. What takes care is the
negation of a condition: a relation that is turned around may fold to something else if NaN is involved.
But a relation that folds is gone from a simplified condition, unless constants are not folded.
-/

namespace Minifier

variable {o : Options}

/-! ## Kinds of constants -/

namespace Semantics

theorem value_of_constant {S V R : Type} {sem : Semantics S V R} (laws : sem.Lawful) {e : Expr}
    {c : Constant} (known : e.constant? = some c) : sem.value e = pure (sem.constant c) := by
  rw [value, operand_of_constant laws known, read_pure_value]

end Semantics

open Semantics in
/-- The constant of an expression that gives a boolean is one. -/
theorem Expr.bool_of_constant? {e : Expr} {c : Constant} (boolean : e.isBoolean = true)
    (known : e.constant? = some c) : ∃ b, c = .bool b := by
  have gives := valued_typed.gives_of_isBoolean boolean
  rw [value_of_constant valued_lawful known] at gives
  exact gives [] c [] rfl

open Semantics in
/-- The constant of an expression that gives a string is one. -/
theorem Expr.str_of_constant? {e : Expr} {c : Constant} (string : e.isString = true)
    (known : e.constant? = some c) : ∃ s, c = .str s := by
  have gives := valued_typed.gives_of_isString string
  rw [value_of_constant valued_lawful known] at gives
  exact gives [] c [] rfl

/-- Two constants of one kind are compared alike with conversions and without. -/
theorem Constant.looseEq?_of_kinds {left right : Expr} {a b : Constant}
    (kinds : (left.isString = true ∧ right.isString = true) ∨
      (left.isBoolean = true ∧ right.isBoolean = true))
    (onLeft : left.constant? = some a) (onRight : right.constant? = some b) :
    a.looseEq? b = some (a.strictEq b) := by
  rcases kinds with ⟨isLeft, isRight⟩ | ⟨isLeft, isRight⟩
  · obtain ⟨s, rfl⟩ := Expr.str_of_constant? isLeft onLeft
    obtain ⟨t, rfl⟩ := Expr.str_of_constant? isRight onRight
    rfl
  · obtain ⟨s, rfl⟩ := Expr.bool_of_constant? isLeft onLeft
    obtain ⟨t, rfl⟩ := Expr.bool_of_constant? isRight onRight
    exact looseEq?_bool s t

theorem constant?_loosened {op loose : Operator} {left right : Expr}
    (loosened : op.loosened? left right = some loose) (pl : Place) :
    (Expr.binary pl loose left right).constant? = (Expr.binary pl op left right).constant? := by
  obtain ⟨kinds, ops⟩ := Semantics.loosened?_cases loosened
  simp only [Expr.constant?]
  split
  · next a b onLeft onRight =>
    have same := Constant.looseEq?_of_kinds kinds onLeft onRight
    rcases ops with ⟨rfl, rfl⟩ | ⟨rfl, rfl⟩ <;> simp [Operator.fold?, same]
  · rfl

/-! ## Negation -/

/-- The truth value of an expression that folds to a constant. -/
def Expr.truth? (e : Expr) : Option Bool :=
  e.constant?.map Constant.toBool

theorem truth?_not (pl : Place) (e : Expr) :
    (Expr.unary pl .logicalNot e).truth? = e.truth?.map Bool.not := by
  simp only [Expr.truth?, Expr.constant?]
  cases e.constant? <;> rfl

/-- A logical operator looks at nothing but the truth of its operands, as far as truth is concerned. -/
theorem truth?_logical {op : Operator} {f : Bool → Bool → Bool}
    (folds : ∀ a b, (op.fold? a b).map Constant.toBool = some (f a.toBool b.toBool)) (pl : Place)
    (left right : Expr) :
    (Expr.binary pl op left right).truth? = Option.map₂ f left.truth? right.truth? := by
  simp only [Expr.truth?, Expr.constant?]
  cases left.constant? with
  | none => rfl
  | some a =>
    cases right.constant? with
    | none => rfl
    | some b => exact folds a b

theorem truth_fold?_logicalAnd (a b : Constant) :
    (Operator.logicalAnd.fold? a b).map Constant.toBool = some (a.toBool && b.toBool) := by
  cases truth : a.toBool <;> simp [Operator.fold?, truth]

theorem truth_fold?_logicalOr (a b : Constant) :
    (Operator.logicalOr.fold? a b).map Constant.toBool = some (a.toBool || b.toBool) := by
  cases truth : a.toBool <;> simp [Operator.fold?, truth]

theorem map₂_not {f g : Bool → Bool → Bool} (turned : ∀ a b, g (!a) (!b) = !f a b)
    (x y : Option Bool) :
    Option.map₂ g (x.map Bool.not) (y.map Bool.not) = (Option.map₂ f x y).map Bool.not := by
  cases x <;> cases y <;> simp [turned]

/-- An inequality folds to the opposite of what the equality folds to. -/
theorem truth_fold?_opposite {op opposite : Operator} (found : op.opposite? false = some opposite)
    (a b : Constant) :
    (opposite.fold? a b).map Constant.toBool =
      ((op.fold? a b).map Constant.toBool).map Bool.not := by
  cases op with
  | equal | notEqual | strictEqual | strictNotEqual =>
    cases found
    simp [Operator.fold?, Function.comp_def, Constant.toBool]
  | _ => cases found

/-- An operator that is turned around has no constant, or does not spoil it. -/
theorem truth?_opposite (allowed : o.evaluate = true ∨ o.comparisons = false) {pl here : Place}
    {op opposite : Operator} {left right : Expr}
    (found : op.opposite? o.comparisons = some opposite)
    (unknown : (Expr.binary pl op left right).known? o = none) :
    (Expr.binary here opposite left right).truth? =
      (Expr.binary pl op left right).truth?.map Bool.not := by
  rcases allowed with folds | off
  · -- What folds would have been folded, so there is no constant on either side.
    have turned : (Expr.binary here opposite left right).known? o = none :=
      Expr.known?_eq_none_of_isSome (isSome_constant?_opposite found) unknown
    rw [Expr.truth?, Expr.truth?, Expr.known?_eq_none_iff.mp turned folds,
      Expr.known?_eq_none_iff.mp unknown folds]
    rfl
  · -- Only equalities are turned around, which are opposites even for NaN.
    rw [off] at found
    simp only [Expr.truth?, Expr.constant?]
    split
    · exact truth_fold?_opposite found _ _
    · rfl

/-- The negation of a simplified condition folds exactly if the condition does, and to the opposite. -/
theorem Expr.truth?_negate (allowed : o.evaluate = true ∨ o.comparisons = false) :
    (e : Expr) → e.Meets (.tidy o) → (e.negate o).truth? = e.truth?.map Bool.not
  | .unary pl op arg, _ => by
    unfold negate
    split
    · next isNot =>
      subst isNot
      rw [truth?_not]
      cases arg.truth? <;> simp
    · exact truth?_not _ _
  | .cond pl test yes no, ⟨_, _, inYes, inNo⟩ => by
    have onYes := yes.truth?_negate allowed inYes
    have onNo := no.truth?_negate allowed inNo
    simp only [truth?] at onYes onNo
    simp only [negate, truth?, constant?]
    split
    · split
      · exact onYes
      · exact onNo
    · rfl
  | .binary pl op left right, ⟨here, inLeft, inRight⟩ => by
    unfold negate
    dsimp only
    split
    · simp only [truth?, constant?_comma]
      rfl
    · rw [truth?_logical truth_fold?_logicalOr, truth?_logical truth_fold?_logicalAnd,
        left.truth?_negate allowed inLeft, right.truth?_negate allowed inRight]
      exact map₂_not (by decide) _ _
    · rw [truth?_logical truth_fold?_logicalAnd, truth?_logical truth_fold?_logicalOr,
        left.truth?_negate allowed inLeft, right.truth?_negate allowed inRight]
      exact map₂_not (by decide) _ _
    · split
      · next found =>
        exact truth?_opposite allowed found (here (Operator.isAssignment_of_opposite? found)).2
      · exact truth?_not _ _
  | .call .., _ | .index .., _ | .func .., _ | .ident .., _ | .member .., _ | .this .., _
  | .update .., _ | .array .., _ | .bool .., _ | .null .., _ | .num .., _ | .object .., _
  | .regex .., _ | .str .., _ | .undef .., _ => truth?_not _ _

/-! ## Simplified expressions -/

theorem Expr.constant?_folded (e : Expr) : (e.folded o).constant? = e.constant? := by
  unfold folded
  split
  · next c known => rw [Constant.constant?_toExpr, constant?_of_known? known]
  · rfl

theorem constant?_binaryExpr (pl : Place) (op : Operator) (left right : Expr) :
    (binaryExpr o pl op left right).constant? = (Expr.binary pl op left right).constant? := by
  unfold binaryExpr
  split
  · rfl
  · rw [Expr.constant?_folded]
    split
    · cases loosened : op.loosened? left right with
      | none => rfl
      | some loose => exact constant?_loosened loosened pl
    · rfl

/-- Of the test of a conditional expression only the truth matters. -/
theorem constant?_cond (pl : Place) (test yes no : Expr) :
    (Expr.cond pl test yes no).constant? =
      test.truth?.bind fun truth => if truth then yes.constant? else no.constant? := by
  simp only [Expr.truth?, Expr.constant?]
  cases test.constant? <;> rfl

/-- A conditional expression with a simplified test may be turned around. -/
theorem constant?_condExpr (allowed : o.evaluate = true ∨ o.comparisons = false) {test : Expr}
    (tidy : test.Meets (.tidy o)) (span : Span) (pl : Place) (yes no : Expr) :
    (condExpr o span test yes no).constant? = (Expr.cond pl test yes no).constant? := by
  unfold condExpr Expr.shorter
  split
  · rw [constant?_cond, constant?_cond, test.truth?_negate allowed tidy]
    rcases test.truth? with _ | _ | _ <;> rfl
  · rfl

theorem constant?_indexExpr (pl : Place) (object key : Expr) :
    (indexExpr o pl object key).constant? = none := by
  unfold indexExpr
  split
  · split <;> rfl
  · rfl

/-- Simplifying an expression neither changes nor creates a constant, unless relations are turned around
and constants are not folded. -/
theorem Expr.minify_keeps_constant (allowed : o.evaluate = true ∨ o.comparisons = false) :
    (e : Expr) → (e.minify o).value.constant? = e.constant?
  | .binary pl op left right => by
    simp only [minify, Report.value_bind, Report.value_pure]
    rw [constant?_binaryExpr, constant?, constant?, left.minify_keeps_constant allowed,
      right.minify_keeps_constant allowed]
  | .cond pl test yes no => by
    have whole : (Expr.cond pl (test.minify o).value (yes.minify o).value
        (no.minify o).value).constant? = (Expr.cond pl test yes no).constant? := by
      rw [constant?, constant?, test.minify_keeps_constant allowed, yes.minify_keeps_constant allowed,
        no.minify_keeps_constant allowed]
    simp only [minify, Report.value_bind, Report.value_pure]
    split
    · rw [constant?_condExpr allowed test.tidy_minify _ pl, whole]
    · exact whole
  | .unary pl op arg => by
    simp only [minify, Report.value_bind, Report.value_pure]
    rw [constant?_folded, constant?, constant?, arg.minify_keeps_constant allowed]
  | .index .. => constant?_indexExpr ..
  | .call .. | .func .. | .ident .. | .member .. | .this .. | .update .. | .array .. | .bool ..
  | .null .. | .num .. | .object .. | .regex .. | .str .. | .undef .. => rfl

/-- The case of `NaN < 0 ? a : typeof 0 === "s"`. The relation is false and so is its opposite, and the
comparison is loosened. -/
theorem Expr.minify_keeps_constant_nan :
    let here : Place := default
    let e := Expr.cond here (.binary here .less (.num here .nan) (.num here (.zero false)))
      (.ident here "a")
      (.binary here .strictEqual (.unary here .typeOf (.num here (.zero false))) (.str here "s"))
    let o := Options.all true
    (o.evaluate = true ∨ o.comparisons = false) ∧ e.constant? = some (.bool false) ∧
      (e.minify o).value.constant? = some (.bool false) := by
  intro here e o
  have known : e.constant? = some (.bool false) := rfl
  exact ⟨.inl rfl, known, (Expr.minify_keeps_constant (.inl rfl) e).trans known⟩

end Minifier
