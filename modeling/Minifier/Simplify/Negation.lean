import Minifier.Options
import Minifier.Syntax

/-!
# Negation of conditions

An expression whose truth value is the opposite of another's, with the negation moved inward where
an operator can take it up. New nodes stand at the span of the expression they replace.
-/

namespace Minifier

/-- The operator that holds exactly where another does not. For the relations this is wrong if an
operand is NaN, and they are turned around only if `relations` allows it. -/
def Operator.opposite? (relations : Bool) : Operator → Option Operator
  | .equal => some .notEqual
  | .notEqual => some .equal
  | .strictEqual => some .strictNotEqual
  | .strictNotEqual => some .strictEqual
  | .lessEq => if relations then some .greater else none
  | .less => if relations then some .greaterEq else none
  | .greaterEq => if relations then some .less else none
  | .greater => if relations then some .lessEq else none
  | _ => none

/-- A negation with its sign in front. -/
def Expr.not (span : Span) (e : Expr) : Expr :=
  .unary (.both span) .logicalNot e

/-- The negation of a condition. The left side of a comma keeps its effects, and a double negation
goes away. -/
def Expr.negate (o : Options) : Expr → Expr
  | .unary pl op arg =>
    if op = .logicalNot then arg else .not pl.outer (.unary pl op arg)
  | .cond pl test yes no => .cond (.both pl.outer) test (yes.negate o) (no.negate o)
  | .binary pl op left right =>
    let here := Place.both pl.outer
    match op with
    | .comma => .binary here .comma left (right.negate o)
    | .logicalAnd => .binary here .logicalOr (left.negate o) (right.negate o)
    | .logicalOr => .binary here .logicalAnd (left.negate o) (right.negate o)
    | op =>
      match op.opposite? o.comparisons with
      | some opposite => .binary here opposite left right
      | none => .not pl.outer (.binary here op left right)
  | e => .not e.span e

end Minifier
