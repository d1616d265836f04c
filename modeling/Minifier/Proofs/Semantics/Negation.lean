import Minifier.Proofs.Semantics.Constant
import Minifier.Simplify.Negation

/-!
# Negation keeps effects

A negated condition does what the condition does, throws what it throws, and holds exactly where the
condition does not. What matters of a condition is only whether it holds, so the lemmas are about
`holds`, which forgets the value and keeps its truth.

Little is asked of the operators for that. An inequality must hold where the equality does not, and if
relations are turned around, they must be opposites as well. In the language itself NaN spoils the
latter.
-/

namespace Minifier

namespace Semantics

variable {S V R : Type} {sem : Semantics S V R}

/-- The truth values are told apart, and an inequality holds exactly where the equality does not. -/
structure Complementary (sem : Semantics S V R) : Prop where
  truthy_bool : ∀ b, sem.truthy (sem.constant (.bool b)) = b
  notEqual : ∀ a b, sem.truthy <$> sem.binary .notEqual a b =
    (fun v => !sem.truthy v) <$> sem.binary .equal a b
  strictNotEqual : ∀ a b, sem.truthy <$> sem.binary .strictNotEqual a b =
    (fun v => !sem.truthy v) <$> sem.binary .strictEqual a b

/-- A relation holds exactly where the opposite relation does not. -/
structure OppositeRelations (sem : Semantics S V R) : Prop where
  greaterEq : ∀ a b, sem.truthy <$> sem.binary .greaterEq a b =
    (fun v => !sem.truthy v) <$> sem.binary .less a b
  greater : ∀ a b, sem.truthy <$> sem.binary .greater a b =
    (fun v => !sem.truthy v) <$> sem.binary .lessEq a b

/-- The laws of the logical operators include those that negation needs. -/
theorem Logical.complementary (laws : sem.Logical) : sem.Complementary where
  truthy_bool b := laws.truthy_constant (.bool b)
  notEqual := laws.notEqual
  strictNotEqual := laws.strictNotEqual

@[simp] theorem read_operand (e : Expr) : sem.read (sem.operand e) = sem.value e := rfl

/-- The value of an operation is that of its operator on the operands. -/
@[simp] theorem value_binary (pl : Place) (op : Operator) (left right : Expr) :
    sem.value (.binary pl op left right) =
      sem.binaryOf op (sem.operand left) (sem.operand right) := by
  rw [value, operand, read_map_value]

/-- The value of a unary expression is that of its operator on the operand. -/
@[simp] theorem value_unary (pl : Place) (op : Operator) (arg : Expr) :
    sem.value (.unary pl op arg) = sem.unaryOf op (sem.operand arg) := by
  rw [value, operand, read_map_value]

/-- The value of a choice is that of the branch its condition chooses. -/
@[simp] theorem value_cond (pl : Place) (test yes no : Expr) :
    sem.value (.cond pl test yes no) =
      (sem.holds test >>= fun b => if b then sem.value yes else sem.value no) := by
  rw [value, operand, read_map_value]
  simp [condOf, holds]

/-- A negation holds where its operand does not. -/
theorem holds_not (laws : sem.Complementary) (pl : Place) (e : Expr) :
    sem.holds (.unary pl .logicalNot e) = Bool.not <$> sem.holds e := by
  simp [holds, unaryOf, laws.truthy_bool]

/-- A comma holds where its second operand does, after the first one. -/
theorem holds_comma (pl : Place) (left right : Expr) :
    sem.holds (.binary pl .comma left right) = (sem.value left >>= fun _ => sem.holds right) := by
  simp [holds, binaryOf_comma]

/-- A choice holds where the branch that its condition chooses does. -/
theorem holds_cond (pl : Place) (test yes no : Expr) :
    sem.holds (.cond pl test yes no) =
      (sem.holds test >>= fun b => if b then sem.holds yes else sem.holds no) := by
  simp only [holds, value_cond, map_bind]
  congr 1
  funext b
  cases b <;> rfl

/-- A conjunction holds where both operands do, and the second is evaluated only if the first holds. -/
theorem holds_logicalAnd (pl : Place) (left right : Expr) :
    sem.holds (.binary pl .logicalAnd left right) =
      (sem.holds left >>= fun b => if b then sem.holds right else pure false) := by
  simp only [holds, value_binary, binaryOf_logicalAnd, read_operand, map_bind, bind_map_left]
  congr 1
  funext v
  by_cases truth : sem.truthy v <;> simp [truth]

/-- A disjunction holds where one operand does, and the second is evaluated only if the first does not
hold. -/
theorem holds_logicalOr (pl : Place) (left right : Expr) :
    sem.holds (.binary pl .logicalOr left right) =
      (sem.holds left >>= fun b => if b then pure true else sem.holds right) := by
  simp only [holds, value_binary, binaryOf_logicalOr, read_operand, map_bind, bind_map_left]
  congr 1
  funext v
  by_cases truth : sem.truthy v <;> simp [truth]

/-- Other operators evaluate both operands first. -/
theorem holds_strict {op : Operator} (strict : op.isStrict = true) (pl : Place)
    (left right : Expr) :
    sem.holds (.binary pl op left right) =
      (sem.value left >>= fun a => sem.value right >>= fun b =>
        sem.truthy <$> sem.binary op a b) := by
  simp [holds, binaryOf_strict strict]

/-- The opposite of an operator holds exactly where the operator does not. -/
theorem binary_opposite (laws : sem.Complementary) {relations : Bool}
    (relative : relations = true → sem.OppositeRelations) {op opposite : Operator}
    (found : op.opposite? relations = some opposite) (a b : V) :
    sem.truthy <$> sem.binary opposite a b = Bool.not <$> sem.truthy <$> sem.binary op a b := by
  cases op with
  | equal => cases found; simp [laws.notEqual]
  | notEqual => cases found; simp [laws.notEqual]
  | strictEqual => cases found; simp [laws.strictNotEqual]
  | strictNotEqual => cases found; simp [laws.strictNotEqual]
  | less | lessEq | greater | greaterEq =>
    cases relations with
    | false => cases found
    | true => cases found; simp [(relative rfl).greaterEq, (relative rfl).greater]
  | _ => cases found

/-- An operator that has an opposite evaluates both operands, and so does the opposite. -/
theorem isStrict_of_opposite {relations : Bool} {op opposite : Operator}
    (found : op.opposite? relations = some opposite) :
    op.isStrict = true ∧ opposite.isStrict = true := by
  cases relations <;> cases op <;> cases found <;> decide

/-- The negation of a condition has the effects of the condition and holds where that does not. -/
theorem holds_negate (laws : sem.Complementary) {o : Options}
    (relative : o.comparisons = true → sem.OppositeRelations) (e : Expr) :
    sem.holds (e.negate o) = Bool.not <$> sem.holds e := by
  fun_induction Expr.negate o e with
  | case1 pl arg => simp [holds_not laws]
  | case2 pl op arg other => exact holds_not laws _ _
  | case3 pl test yes no ihYes ihNo =>
    rw [holds_cond, holds_cond, ihYes, ihNo, map_bind]
    congr 1
    funext b
    cases b <;> rfl
  | case4 pl left right here ih => rw [holds_comma, holds_comma, ih, map_bind]
  | case5 pl left right here ihLeft ihRight =>
    rw [holds_logicalOr, holds_logicalAnd, ihLeft, ihRight, map_bind, bind_map_left]
    congr 1
    funext b
    cases b <;> simp
  | case6 pl left right here ihLeft ihRight =>
    rw [holds_logicalAnd, holds_logicalOr, ihLeft, ihRight, map_bind, bind_map_left]
    congr 1
    funext b
    cases b <;> simp
  | case7 pl left right here op _ _ _ opposite found =>
    obtain ⟨strict, oppositeStrict⟩ := isStrict_of_opposite found
    simp only [holds_strict strict, holds_strict oppositeStrict, binary_opposite laws relative found,
      map_bind]
  | case8 pl left right here op _ _ _ none => exact holds_not laws _ _
  | case9 e _ _ _ => exact holds_not laws _ _

/-- The negation of a condition holds where the condition does not, if relations are not turned around.
-/
theorem Logical.holds_negate (laws : sem.Logical) {o : Options} (off : o.comparisons = false)
    (e : Expr) : sem.holds (e.negate o) = Bool.not <$> sem.holds e :=
  Semantics.holds_negate laws.complementary (by simp [off]) e

/-- How two evaluations of conditions end if the second condition is the negation of the first: both
without an end, with the same thrown value, or with values of which exactly one counts as true. The
states they end in are the same. -/
inductive Opposed (sem : Semantics S V R) :
    Option (Except V V × S) → Option (Except V V × S) → Prop
  | endless : Opposed sem none none
  | thrown (x : V) (s : S) : Opposed sem (some (.error x, s)) (some (.error x, s))
  | given {v w : V} (opposite : sem.truthy w = !sem.truthy v) (s : S) :
    Opposed sem (some (.ok v, s)) (some (.ok w, s))

/-- A function applied to a result changes neither the state nor what is thrown. -/
theorem map_apply {α β : Type} (f : α → β) (x : Effect S V α) (s : S) :
    (f <$> x) s = (x s).map fun r => (r.1.map f, r.2) := by
  change (x s).bind _ = _
  rcases x s with _ | ⟨_ | a, t⟩ <;> rfl

/-- Evaluations with opposite truth end in opposed ways. -/
theorem opposed_of_map_truthy {x y : Effect S V V} (s : S)
    (opposite : sem.truthy <$> y = Bool.not <$> sem.truthy <$> x) : sem.Opposed (x s) (y s) := by
  have here := congrFun opposite s
  simp only [map_apply, Option.map_map] at here
  rcases first : x s with _ | ⟨e | v, t⟩ <;> rcases second : y s with _ | ⟨e' | w, t'⟩ <;>
    simp [first, second, Except.map] at here
  · exact .endless
  · obtain ⟨rfl, rfl⟩ := here
    exact .thrown e' t'
  · obtain ⟨flipped, rfl⟩ := here
    exact .given flipped t'

/-- Negating a condition changes neither what it throws nor the state it leaves behind, and turns its
truth around. Relations may only be turned around if they are opposites on all values. -/
theorem negate_opposed (laws : sem.Complementary) {o : Options}
    (relative : o.comparisons = true → sem.OppositeRelations) (e : Expr) (s : S) :
    sem.Opposed (sem.value e s) (sem.value (e.negate o) s) :=
  opposed_of_map_truthy s (holds_negate laws relative e)

/-- Constants as values, with a trace, where operators between two values only look at their texts. Texts
are totally ordered. -/
def textual : Semantics (List String) Constant String :=
  { tracing with binary := fun op a b => tracing.binary op (.str a.toText) (.str b.toText) }

/-- Texts are equal or not. -/
theorem textual_complementary : Complementary textual where
  truthy_bool _ := rfl
  notEqual a b := tracing_lawful.notEqual (.str a.toText) (.str b.toText)
  strictNotEqual a b := tracing_lawful.strictNotEqual (.str a.toText) (.str b.toText)

/-- Of two texts one is less than the other, or not. -/
theorem textual_oppositeRelations : OppositeRelations textual where
  greaterEq a b := by
    change Constant.toBool <$> orThrow (some (.bool (Text.unitOrder a.toText b.toText != .lt))) =
      (fun v => !Constant.toBool v) <$>
        orThrow (some (.bool (Text.unitOrder a.toText b.toText == .lt)))
    simp [orThrow, Constant.toBool, bne]
  greater a b := by
    change Constant.toBool <$> orThrow (some (.bool (Text.unitOrder a.toText b.toText == .gt))) =
      (fun v => !Constant.toBool v) <$>
        orThrow (some (.bool (Text.unitOrder a.toText b.toText != .gt)))
    simp [orThrow, Constant.toBool, bne]

/-- The case of `f(), !c || a < b`, with the relation left alone and turned around. -/
theorem negate_opposed_relation :
    let here : Place := default
    let e := Expr.binary here .comma (.call here false (.ident here "f") [])
      (.binary here .logicalOr (.unary here .logicalNot (.ident here "c"))
        (.binary here .less (.ident here "a") (.ident here "b")))
    let o := { Options.all true with comparisons := false }
    (Complementary tracing ∧ ∀ s, tracing.Opposed (tracing.value e s) (tracing.value (e.negate o) s)) ∧
      Complementary textual ∧ OppositeRelations textual ∧
      ∀ s, textual.Opposed (textual.value e s) (textual.value (e.negate (.all true)) s) := by
  intro here e o
  have plain : Complementary tracing := tracing_lawful.toLogical.complementary
  exact ⟨⟨plain, negate_opposed plain (by simp [o]) e⟩, textual_complementary,
    textual_oppositeRelations,
    negate_opposed textual_complementary (fun _ => textual_oppositeRelations) e⟩

end Semantics

end Minifier
