import Minifier.Syntax
import Minifier.Text.Identifier

/-!
# Well-formed expressions

Which trees are expressions of the language, and what they are once the printer has written them.
Numbers with a sign, numbers that are not finite, and `undefined` have no literals; they are written
as operators applied to literals. Places are not written at all.
-/

namespace Minifier

/-- Where an operator stands in regard to its operands. -/
inductive Operator.Position
  | between
  | before
  | behind
deriving DecidableEq, Repr

/-- Where an operator stands. The conditional operator has a form of its own. -/
def Operator.position? : Operator → Option Operator.Position
  | .conditional => none
  | .bitNot | .delete | .logicalNot | .preDecrement | .preIncrement | .typeOf | .unaryMinus
  | .unaryPlus | .void => some .before
  | .postDecrement | .postIncrement => some .behind
  | _ => some .between

/-- Whether the operator stores into an operand, so that this has to be a target. -/
def Operator.needsTarget (op : Operator) : Bool :=
  op.isAssignment || op matches .preDecrement | .preIncrement | .postDecrement | .postIncrement

/-- Whether an expression can be stored into. -/
def Expr.isTarget : Expr → Bool
  | .ident .. | .member .. | .index .. => true
  | _ => false

mutual

/-- Whether an expression has no functions and the grammar has a place for it: names are identifiers,
and every operator stands where it belongs, with a target if it needs one. -/
def Expr.isWellFormed : Expr → Bool
  | .binary _ op left right =>
    op.position? == some .between && (!op.needsTarget || left.isTarget) &&
      left.isWellFormed && right.isWellFormed
  | .call _ _ callee args => callee.isWellFormed && exprsWellFormed args
  | .index _ object key => object.isWellFormed && key.isWellFormed
  | .cond _ test yes no => test.isWellFormed && yes.isWellFormed && no.isWellFormed
  | .func .. => false
  | .ident _ name => Text.isPlainName name
  | .member _ object name => object.isWellFormed && Text.isIdentifier name
  | .unary _ op arg =>
    op.position? == some .before && (!op.needsTarget || arg.isTarget) && arg.isWellFormed
  | .update _ op arg =>
    op.position? == some .behind && (!op.needsTarget || arg.isTarget) && arg.isWellFormed
  | .array _ elements => elementsWellFormed elements
  | .object _ members => membersWellFormed members
  | .this _ | .bool .. | .null _ | .num .. | .regex .. | .str .. | .undef _ => true

/-- Whether all arguments of a call are well formed. -/
def exprsWellFormed : List Expr → Bool
  | [] => true
  | e :: rest => e.isWellFormed && exprsWellFormed rest

/-- Whether all elements of an array literal are well formed. -/
def elementsWellFormed : List (Option Expr) → Bool
  | [] => true
  | none :: rest => elementsWellFormed rest
  | some e :: rest => e.isWellFormed && elementsWellFormed rest

/-- Whether all members of an object literal are well formed and none is an accessor. -/
def membersWellFormed : List Member → Bool
  | [] => true
  | .value _ _ e :: rest => e.isWellFormed && membersWellFormed rest
  | .getter .. :: _ | .setter .. :: _ => false

end

attribute [simp] Expr.isWellFormed exprsWellFormed elementsWellFormed membersWellFormed

/-- A number as it is written with literals that have no sign. -/
def Double.written : Double → Expr
  | .nan => .binary default .division (.num default (.zero false)) (.num default (.zero false))
  | .infinite negative =>
    let one := Expr.num default (.ofNat 1)
    .binary default .division (if negative then .unary default .unaryMinus one else one)
      (.num default (.zero false))
  | .finite negative code =>
    let magnitude := Expr.num default (.finite false code)
    if negative then .unary default .unaryMinus magnitude else magnitude

mutual

/-- The expression as it is written: without places, and with operators for what has no literal. -/
def Expr.written : Expr → Expr
  | .binary _ op left right => .binary default op left.written right.written
  | .call _ isNew callee args => .call default isNew callee.written (writtenExprs args)
  | .index _ object key => .index default object.written key.written
  | .cond _ test yes no => .cond default test.written yes.written no.written
  | .func _ name fn => .func default name fn
  | .ident _ name => .ident default name
  | .member _ object name => .member default object.written name
  | .this _ => .this default
  | .unary _ op arg => .unary default op arg.written
  | .update _ op arg => .update default op arg.written
  | .array _ elements => .array default (writtenElements elements)
  | .bool _ value => .bool default value
  | .null _ => .null default
  | .num _ value => value.written
  | .object _ members => .object default (writtenMembers members)
  | .regex _ text => .regex default text
  | .str _ value => .str default value
  | .undef _ => .unary default .void (.num default (.zero false))

/-- The arguments of a call as they are written. -/
def writtenExprs : List Expr → List Expr
  | [] => []
  | e :: rest => e.written :: writtenExprs rest

/-- The elements of an array literal as they are written. -/
def writtenElements : List (Option Expr) → List (Option Expr)
  | [] => []
  | none :: rest => none :: writtenElements rest
  | some e :: rest => some e.written :: writtenElements rest

/-- The members of an object literal as they are written. -/
def writtenMembers : List Member → List Member
  | [] => []
  | .value _ key e :: rest => .value default key e.written :: writtenMembers rest
  | .getter _ key fn :: rest => .getter default key fn :: writtenMembers rest
  | .setter _ key fn :: rest => .setter default key fn :: writtenMembers rest

end

attribute [simp] Expr.written writtenExprs writtenElements writtenMembers

end Minifier
