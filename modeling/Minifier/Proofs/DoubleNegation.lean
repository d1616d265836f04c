import Minifier.Simplify.Kind
import Minifier.Simplify.Negation

/-!
# Negating twice

The value of a comma, of `&&` and `||` and of a conditional expression comes from parts of it, and a
negation is moved to these parts. Where it meets a `!` it takes the sign away, and what is left need
not be a boolean any more. A second negation puts a sign back, unless it meets one again: then `!!x`
has become `x`. This is the only way in which a boolean expression that is negated twice can stop
being one.
-/

namespace Minifier

/-- The operands of `!` among the parts that the value of an expression comes from. -/
def Expr.negands : Expr → List Expr
  | .unary _ op arg => if op = .logicalNot then [arg] else []
  | .cond _ _ yes no => yes.negands ++ no.negands
  | .binary _ op left right =>
    match op with
    | .comma => right.negands
    | .logicalAnd | .logicalOr => left.negands ++ right.negands
    | _ => []
  | _ => []

/-- All of the expressions are booleans. -/
def AllBoolean (es : List Expr) : Prop :=
  ∀ e ∈ es, e.isBoolean = true

@[simp] theorem allBoolean_nil : AllBoolean [] :=
  fun _ mem => nomatch mem

@[simp] theorem allBoolean_singleton {e : Expr} : AllBoolean [e] ↔ e.isBoolean = true := by
  simp [AllBoolean]

@[simp] theorem allBoolean_append {a b : List Expr} :
    AllBoolean (a ++ b) ↔ AllBoolean a ∧ AllBoolean b :=
  List.forall_mem_append

variable {o : Options}

/-! ## Operators that a negation is not moved through -/

/-- The operator gives a value of its own, and not that of an operand. -/
def Operator.IsPlain (op : Operator) : Prop :=
  op ≠ .comma ∧ op ≠ .logicalAnd ∧ op ≠ .logicalOr

/-- A negation is moved through three operators, and not through the plain ones. -/
theorem Operator.passes_or_plain (op : Operator) :
    op = .comma ∨ op = .logicalAnd ∨ op = .logicalOr ∨ op.IsPlain := by
  by_cases comma : op = .comma
  · exact .inl comma
  by_cases conjunction : op = .logicalAnd
  · exact .inr (.inl conjunction)
  by_cases disjunction : op = .logicalOr
  · exact .inr (.inr (.inl disjunction))
  · exact .inr (.inr (.inr ⟨comma, conjunction, disjunction⟩))

/-- A comparison gives a value of its own. -/
theorem Operator.isPlain_of_isComparison {op : Operator} (compares : op.isComparison = true) :
    op.IsPlain := by
  refine ⟨?_, ?_, ?_⟩ <;> rintro rfl <;> cases compares

/-- The opposite of a comparison is one. -/
theorem Operator.isComparison_opposite {relations : Bool} {op opposite : Operator}
    (turned : op.opposite? relations = some opposite) : opposite.isComparison = true := by
  cases op with
  | equal | notEqual | strictEqual | strictNotEqual => cases turned; rfl
  | less | lessEq | greater | greaterEq =>
    cases relations with
    | true => cases turned; rfl
    | false => cases turned
  | _ => cases turned

namespace Expr

variable {op : Operator} (pl : Place) (left right : Expr)

/-- A comparison gives a boolean. -/
theorem isBoolean_of_isComparison (compares : op.isComparison = true) :
    (binary pl op left right).isBoolean = true := by
  unfold isBoolean
  exact if_pos compares

@[simp] theorem isBoolean_comma : (binary pl .comma left right).isBoolean = right.isBoolean := rfl

@[simp] theorem isBoolean_logicalAnd :
    (binary pl .logicalAnd left right).isBoolean = (left.isBoolean && right.isBoolean) := rfl

@[simp] theorem isBoolean_logicalOr :
    (binary pl .logicalOr left right).isBoolean = (left.isBoolean && right.isBoolean) := rfl

@[simp] theorem isBoolean_cond (test : Expr) :
    (cond pl test left right).isBoolean = (left.isBoolean && right.isBoolean) := rfl

@[simp] theorem isBoolean_not (span : Span) (e : Expr) : (Expr.not span e).isBoolean = true := rfl

@[simp] theorem negands_not (span : Span) (e : Expr) : (Expr.not span e).negands = [e] := rfl

/-- No `!` matters in the operands of a plain operator. -/
theorem negands_plain (plain : op.IsPlain) : (binary pl op left right).negands = [] := by
  cases op with
  | comma => exact absurd rfl plain.1
  | logicalAnd => exact absurd rfl plain.2.1
  | logicalOr => exact absurd rfl plain.2.2
  | _ => rfl

/-- A comparison may be turned around; any other operation gets a sign in front. -/
theorem negate_plain (o : Options) (plain : op.IsPlain) :
    (∃ opposite, opposite.isComparison = true ∧
      (binary pl op left right).negate o = binary (.both pl.outer) opposite left right) ∨
    (binary pl op left right).negate o = .not pl.outer (binary (.both pl.outer) op left right) := by
  unfold negate
  dsimp only
  split
  · exact absurd rfl plain.1
  · exact absurd rfl plain.2.1
  · exact absurd rfl plain.2.2
  · split
    · next opposite turned => exact .inl ⟨opposite, Operator.isComparison_opposite turned, rfl⟩
    · exact .inr rfl

end Expr

/-! ## One negation and two -/

/-- A negation is a boolean exactly if every operand is one whose `!` it has taken away. -/
theorem Expr.isBoolean_negate_iff : (e : Expr) →
    ((e.negate o).isBoolean = true ↔ AllBoolean e.negands)
  | .unary pl op arg => by
    by_cases sign : op = .logicalNot <;> simp [negate, negands, sign]
  | .cond pl test yes no => by
    simp [negate, negands, yes.isBoolean_negate_iff, no.isBoolean_negate_iff]
  | .binary pl op left right => by
    obtain rfl | rfl | rfl | plain := op.passes_or_plain
    · simp [negate, negands, right.isBoolean_negate_iff]
    · simp [negate, negands, left.isBoolean_negate_iff, right.isBoolean_negate_iff]
    · simp [negate, negands, left.isBoolean_negate_iff, right.isBoolean_negate_iff]
    · rw [negands_plain pl left right plain]
      obtain ⟨opposite, compares, eq⟩ | eq := negate_plain pl left right o plain
      · simp [eq, isBoolean_of_isComparison _ _ _ compares]
      · simp [eq]
  | .call _ _ _ _ | .index _ _ _ | .func _ _ _ | .ident _ _ | .member _ _ _ | .this _
  | .update _ _ _ | .array _ _ | .bool _ _ | .null _ | .num _ _ | .object _ _ | .regex _ _
  | .str _ _ | .undef _ => by simp [negate, negands]

/-- The second negation takes away the signs that the first one put in, and those it meets in operands
whose own sign the first one has taken away. Of these only the latter can be other than booleans. -/
theorem Expr.allBoolean_negands_negate : (e : Expr) → e.isBoolean = true →
    (AllBoolean (e.negate o).negands ↔ ∀ x ∈ e.negands, AllBoolean x.negands)
  | .unary pl op arg, boolean => by
    by_cases sign : op = .logicalNot <;> simp [negate, negands, sign, boolean]
  | .cond pl test yes no, boolean => by
    obtain ⟨inYes, inNo⟩ := Bool.and_eq_true_iff.mp boolean
    simp only [negate, negands, allBoolean_append, List.forall_mem_append,
      yes.allBoolean_negands_negate inYes, no.allBoolean_negands_negate inNo]
  | .binary pl op left right, boolean => by
    obtain rfl | rfl | rfl | plain := op.passes_or_plain
    · exact right.allBoolean_negands_negate boolean
    · obtain ⟨inLeft, inRight⟩ := Bool.and_eq_true_iff.mp boolean
      simp only [negate, negands, allBoolean_append, List.forall_mem_append,
        left.allBoolean_negands_negate inLeft, right.allBoolean_negands_negate inRight]
    · obtain ⟨inLeft, inRight⟩ := Bool.and_eq_true_iff.mp boolean
      simp only [negate, negands, allBoolean_append, List.forall_mem_append,
        left.allBoolean_negands_negate inLeft, right.allBoolean_negands_negate inRight]
    · rw [negands_plain pl left right plain]
      obtain ⟨opposite, compares, eq⟩ | eq := negate_plain pl left right o plain
      · simp [eq, negands_plain _ _ _ (Operator.isPlain_of_isComparison compares)]
      · have still : (binary (.both pl.outer) op left right).isBoolean = true := boolean
        simp [eq, still]
  | .bool _ _, _ => by simp [negate, negands, isBoolean]

/-- A boolean expression is still one when it is negated twice, with either setting for relations,
exactly if all that stands in it behind two signs is boolean by itself. -/
theorem isBoolean_negate_negate_iff (o : Options) {e : Expr} (boolean : e.isBoolean = true) :
    ((e.negate o).negate o).isBoolean = true ↔
      ∀ x ∈ e.negands, ∀ y ∈ x.negands, y.isBoolean = true := by
  rw [Expr.isBoolean_negate_iff, e.allBoolean_negands_negate boolean]
  rfl

/-- The case of `(c ? !a : !!(a < b)) || (f(), delete a.b)`, where a relation has two signs. -/
theorem isBoolean_negate_negate_mixed :
    let here : Place := default
    let name := Expr.ident here
    let sign := Expr.unary here .logicalNot
    let e := Expr.binary here .logicalOr
      (.cond here (name "c") (sign (name "a"))
        (sign (sign (.binary here .less (name "a") (name "b")))))
      (.binary here .comma (.call here false (name "f") [])
        (.unary here .delete (.member here (name "a") "b")))
    e.isBoolean = true ∧ ((e.negate (.all false)).negate (.all false)).isBoolean = true := by
  intro here name sign e
  have signs : ∀ x ∈ e.negands, ∀ y ∈ x.negands, y.isBoolean = true := by decide
  exact ⟨rfl, (isBoolean_negate_negate_iff (.all false) rfl).mpr signs⟩

/-- Two negations turn `!!a`, which is a boolean, into `a`, which need not be one. -/
theorem not_isBoolean_negate_negate :
    let e := Expr.unary default .logicalNot (.unary default .logicalNot (.ident default "a"))
    e.isBoolean = true ∧ ∀ o, (e.negate o).negate o = .ident default "a" ∧
      ((e.negate o).negate o).isBoolean = false :=
  ⟨rfl, fun _ => ⟨rfl, rfl⟩⟩

end Minifier
