import Minifier.Syntax

/-!
# Kinds of values

Tests that tell the type of an expression's value from its form. They are cautious: a negative
answer means that nothing is known.
-/

namespace Minifier

/-- Whether an expression always gives a boolean. -/
def Expr.isBoolean : Expr → Bool
  | .bool _ _ => true
  | .unary _ op _ => op == .logicalNot || op == .delete
  | .binary _ op left right =>
    if op.isComparison then true
    else match op with
      | .logicalAnd | .logicalOr => left.isBoolean && right.isBoolean
      | .assign | .comma => right.isBoolean
      | _ => false
  | .cond _ _ yes no => yes.isBoolean && no.isBoolean
  | _ => false

/-- Whether an expression always gives a string. -/
def Expr.isString : Expr → Bool
  | .str _ _ => true
  | .unary _ op _ => op == .typeOf
  | .binary _ op left right =>
    match op with
    | .addition => left.isString || right.isString
    | .assign => right.isString
    | _ => false
  | _ => false

/-- The operator that compares two operands of one type like a strict equality, but is shorter. -/
def Operator.loosened? (op : Operator) (left right : Expr) : Option Operator :=
  if (left.isString && right.isString) || (left.isBoolean && right.isBoolean) then
    match op with
    | .strictEqual => some .equal
    | .strictNotEqual => some .notEqual
    | _ => none
  else none

end Minifier
