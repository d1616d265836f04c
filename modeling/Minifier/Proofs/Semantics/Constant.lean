import Minifier.Proofs.Semantics.Expression

/-!
# Constants keep their value

What the evaluation of expressions must have in common with constant folding, and the first
consequence: an expression that folds to a constant evaluates to it, without any effect.
-/

namespace Minifier

/-- Whether an operator between two expressions takes the values of both, whatever they are. -/
def Operator.isStrict (op : Operator) : Bool :=
  !op.isAssignment && op != .comma && op != .logicalAnd && op != .logicalOr

namespace Semantics

variable {S V R : Type} {sem : Semantics S V R}

/-- Truth values are those of the constants, and an inequality holds exactly where the equality
does not. -/
structure Logical (sem : Semantics S V R) : Prop where
  truthy_constant : ∀ c, sem.truthy (sem.constant c) = c.toBool
  notEqual : ∀ a b, sem.truthy <$> sem.binary .notEqual a b =
    (fun v => !sem.truthy v) <$> sem.binary .equal a b
  strictNotEqual : ∀ a b, sem.truthy <$> sem.binary .strictNotEqual a b =
    (fun v => !sem.truthy v) <$> sem.binary .strictEqual a b

/-- In addition, operators on constants give what folding gives, if it gives anything. -/
structure Lawful (sem : Semantics S V R) : Prop extends Logical sem where
  unary_constant : ∀ op c d, op.foldUnary? c = some d →
    sem.unary op (.value (sem.constant c)) = pure (sem.constant d)
  binary_constant : ∀ op a b d, op.fold? a b = some d →
    sem.binary op (sem.constant a) (sem.constant b) = pure (sem.constant d)

@[simp] theorem read_pure_value (v : V) : sem.read (pure (.value v)) = pure v := by
  simp [read, get]

/-- An operand that is a value is read without further effects. -/
@[simp] theorem read_map_value (x : Effect S V V) : sem.read (Operand.value <$> x) = x := by
  simp [read, get]

theorem binaryOf_comma (left right : Effect S V (Operand V R)) :
    sem.binaryOf .comma left right = (sem.read left >>= fun _ => sem.read right) := rfl

theorem binaryOf_logicalAnd (left right : Effect S V (Operand V R)) :
    sem.binaryOf .logicalAnd left right =
      (sem.read left >>= fun v => if sem.truthy v then sem.read right else pure v) := rfl

theorem binaryOf_logicalOr (left right : Effect S V (Operand V R)) :
    sem.binaryOf .logicalOr left right =
      (sem.read left >>= fun v => if sem.truthy v then pure v else sem.read right) := rfl

/-- An operator that is no comma, `&&` or `||` evaluates both operands and then computes. -/
theorem binaryOf_strict {op : Operator} (strict : op.isStrict = true)
    (left right : Effect S V (Operand V R)) :
    sem.binaryOf op left right =
      (sem.read left >>= fun a => sem.read right >>= fun b => sem.binary op a b) := by
  cases op <;> first | rfl | cases strict

/-- A unary operator computes from a constant what folding gives. -/
theorem unaryOf_constant (laws : sem.Lawful) {op : Operator} {a c : Constant}
    (folds : op.foldUnary? a = some c) :
    sem.unaryOf op (pure (.value (sem.constant a))) = pure (sem.constant c) := by
  unfold unaryOf
  split
  · next isNot =>
    subst isNot
    obtain rfl : .bool (!a.toBool) = c := Option.some.inj folds
    simp [laws.truthy_constant]
  · simpa using laws.unary_constant op a c folds

/-- An operator computes from two constants what folding gives. -/
theorem binaryOf_constant (laws : sem.Lawful) {op : Operator} {a b c : Constant}
    (folds : op.fold? a b = some c) :
    sem.binaryOf op (pure (.value (sem.constant a))) (pure (.value (sem.constant b))) =
      pure (sem.constant c) := by
  by_cases strict : op.isStrict = true
  · simpa [binaryOf_strict strict] using laws.binary_constant op a b c folds
  · cases op with
    | logicalAnd =>
      obtain rfl : (if a.toBool then b else a) = c := Option.some.inj folds
      by_cases truth : a.toBool <;> simp [binaryOf_logicalAnd, laws.truthy_constant, truth]
    | logicalOr =>
      obtain rfl : (if a.toBool then a else b) = c := Option.some.inj folds
      by_cases truth : a.toBool <;> simp [binaryOf_logicalOr, laws.truthy_constant, truth]
    | _ => first | exact absurd rfl strict | cases folds

/-- An expression that folds to a constant gives it and does nothing else. Of a conditional
expression only the branch that is taken need be a constant. -/
theorem operand_of_constant (laws : sem.Lawful) {e : Expr} {c : Constant}
    (known : e.constant? = some c) : sem.operand e = pure (.value (sem.constant c)) := by
  fun_induction Expr.constant? e generalizing c with
  | case1 | case2 | case3 | case4 | case5 => cases known; rfl
  | case6 pl op arg a found ih =>
    rw [operand, ih found, unaryOf_constant laws known, map_pure]
  | case8 pl op left right a b foundRight foundLeft ihLeft ihRight =>
    rw [operand, ihLeft foundLeft, ihRight foundRight, binaryOf_constant laws known, map_pure]
  | case10 pl test yes no a found truth ihTest ihYes =>
    simp [operand, condOf, ihTest found, ihYes known, laws.truthy_constant, truth]
  | case11 pl test yes no a found truth ihTest ihNo =>
    simp [operand, condOf, ihTest found, ihNo known, laws.truthy_constant, truth]
  | case7 | case9 | case12 | case13 => cases known

/-- The literal of a constant gives it and does nothing else. -/
theorem operand_toExpr (span : Span) (c : Constant) :
    sem.operand (c.toExpr span) = pure (.value (sem.constant c)) := by
  cases c <;> rfl

/-! ## A semantics with a trace

The laws can be met. Here the only values are constants, the state lists what was looked up or
called, and an operator that does not fold throws the name of an error. -/

/-- Adds a line to the trace and gives a value that is not defined. -/
def traced (line : String) : Effect (List String) Constant Constant := do
  let value := Constant.undef
  modify (line :: ·)
  return value

/-- The given constant, or an error. -/
def orThrow : Option Constant → Effect (List String) Constant Constant
  | some c => pure c
  | none => throw (.str "TypeError")

/-- Constants as values, with a trace of look-ups and calls. -/
def tracing : Semantics (List String) Constant String where
  constant := id
  truthy := Constant.toBool
  name := pure
  access _ key := pure key.toText
  load place := traced place
  this := traced "this"
  unary op
    | .value c => orThrow (op.foldUnary? c)
    | .place r => traced r
  update op _ := traced op.text
  binary op a b := orThrow (op.fold? a b)
  fetch _ _ := pure .undef
  store op _ _ v := do
    let _ ← traced op.text
    return v
  callee _ _ := pure .undef
  call _ _ _ args := traced s!"call {args.length}"
  closure _ _ := traced "function"
  array elements := traced s!"array {elements.length}"
  object members := traced s!"object {members.length}"
  regex text := traced text

/-- Constants with a trace obey the laws. -/
theorem tracing_lawful : Lawful tracing where
  truthy_constant _ := rfl
  notEqual a b := by
    change Constant.toBool <$> orThrow ((a.looseEq? b).map _) =
      (fun v => !Constant.toBool v) <$> orThrow ((a.looseEq? b).map _)
    cases a.looseEq? b <;> simp [orThrow, Constant.toBool]
  strictNotEqual a b := by
    change Constant.toBool <$> orThrow (some _) = (fun v => !Constant.toBool v) <$> orThrow (some _)
    simp [orThrow, Constant.toBool]
  unary_constant op c d folds := by
    change orThrow (op.foldUnary? c) = pure d
    rw [folds, orThrow]
  binary_constant op a b d folds := by
    change orThrow (op.fold? a b) = pure d
    rw [folds, orThrow]

end Semantics

end Minifier
