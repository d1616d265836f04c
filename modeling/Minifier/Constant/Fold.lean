import Minifier.Constant.Basic
import Minifier.Text.Units

/-!
# Constant folding

What an operator gives when its operands are constants, and which expressions are constants. An
operator that would need an object, a name or an exact result that is out of reach gives nothing.
-/

namespace Minifier

-- Powers are meant as the core library defines them, whatever algebra is in scope.
attribute [local instance (2000)] instPowNat

namespace Constant

/-- The order of two constants for the relational operators. The inner option is empty if NaN is
involved, and then every relation is false. -/
def order? : Constant → Constant → Option (Option Ordering)
  | .str a, .str b => some (some (Text.unitOrder a b))
  | a, b =>
    match a.toNumber?, b.toNumber? with
    | some x, some y => some (x.order y)
    | _, _ => none

/-- Equality without conversions. -/
def strictEq : Constant → Constant → Bool
  | .num a, .num b => a.numEq b
  | .str a, .str b => a == b
  | .bool a, .bool b => a == b
  | .undef, .undef => true
  | .null, .null => true
  | _, _ => false

/-- Equality of a number and a constant that is no truth value, with conversions. -/
def numberLooseEq? (a : Double) : Constant → Option Bool
  | .num b => some (a.numEq b)
  | .str b => (numberOfText? b).map a.numEq
  | _ => some false

/-- Equality of two constants that are no truth values, with conversions. -/
def plainLooseEq? : Constant → Constant → Option Bool
  | .num a, b => numberLooseEq? a b
  | a, .num b => numberLooseEq? b a
  | .null, .undef => some true
  | .undef, .null => some true
  | a, b => some (strictEq a b)

/-- A truth value as a number, and any other constant as it is. -/
def unbool : Constant → Constant
  | .bool value => .num (ofBit value)
  | c => c

/-- Equality with conversions. -/
def looseEq? (a b : Constant) : Option Bool :=
  plainLooseEq? a.unbool b.unbool

/-- The number of a signed 32-bit word. -/
def ofSigned (w : UInt32) : Constant :=
  .num (.ofInt w.toInt32.toInt)

/-- A number from the numbers of two constants. -/
def arith (f : Double → Double → Double) (a b : Constant) : Option Constant :=
  match a.toNumber?, b.toNumber? with
  | some x, some y => some (.num (f x y))
  | _, _ => none

/-- A constant from the words of two constants. -/
def bitwise (f : UInt32 → UInt32 → Constant) (a b : Constant) : Option Constant :=
  match a.toWord?, b.toWord? with
  | some x, some y => some (f x y)
  | _, _ => none

/-- A truth value from the order of two constants. -/
def relation (p : Ordering → Bool) (a b : Constant) : Option Constant :=
  (a.order? b).map fun o => .bool (o.any p)

/-- The sum of two constants, or their concatenation if one is a string. -/
def sum : Constant → Constant → Option Constant
  | .str a, b => some (.str (a ++ b.toText))
  | a, .str b => some (.str (a.toText ++ b))
  | a, b => arith Double.add a b

/-- The number of places a word is shifted by. -/
def shiftCount (w : UInt32) : Nat :=
  w.toNat % 32

end Constant

open Constant in
/-- What a binary operator gives for two constants. -/
def Operator.fold? (op : Operator) (a b : Constant) : Option Constant :=
  match op with
  | .logicalAnd => some (if a.toBool then b else a)
  | .logicalOr => some (if a.toBool then a else b)
  | .addition => sum a b
  | .subtraction => arith Double.sub a b
  | .multiplication => arith Double.mul a b
  | .division => arith Double.div a b
  | .remainder => arith Double.rem a b
  | .bitAnd => bitwise (fun x y => ofSigned (x &&& y)) a b
  | .bitOr => bitwise (fun x y => ofSigned (x ||| y)) a b
  | .bitXor => bitwise (fun x y => ofSigned (x ^^^ y)) a b
  | .shiftLeft => bitwise (fun x y => ofSigned (.ofNat (x.toNat * 2 ^ shiftCount y))) a b
  | .shiftRight =>
    bitwise (fun x y => .num (.ofInt (x.toInt32.toInt / 2 ^ shiftCount y))) a b
  | .shiftRightZero => bitwise (fun x y => .num (.ofNat (x.toNat / 2 ^ shiftCount y))) a b
  | .equal => (looseEq? a b).map .bool
  | .notEqual => (looseEq? a b).map fun e => .bool !e
  | .strictEqual => some (.bool (strictEq a b))
  | .strictNotEqual => some (.bool !(strictEq a b))
  | .less => relation (· == .lt) a b
  | .lessEq => relation (· != .gt) a b
  | .greater => relation (· == .gt) a b
  | .greaterEq => relation (· != .lt) a b
  | _ => none

/-- The name of the type of a constant. -/
def Constant.typeName : Constant → String
  | .bool _ => "boolean"
  | .null => "object"
  | .num _ => "number"
  | .str _ => "string"
  | .undef => "undefined"

/-- What a unary operator gives for a constant. -/
def Operator.foldUnary? (op : Operator) (a : Constant) : Option Constant :=
  match op with
  | .logicalNot => some (.bool !a.toBool)
  | .bitNot => a.toWord?.map fun x => .ofSigned (~~~x)
  | .unaryMinus => a.toNumber?.map fun x => .num x.neg
  | .unaryPlus => a.toNumber?.map .num
  | .void => some .undef
  | .typeOf => some (.str a.typeName)
  | _ => none

/-- The constant that an expression always gives, if it is built from literals alone. -/
def Expr.constant? : Expr → Option Constant
  | .str _ value => some (.str value)
  | .num _ value => some (.num value)
  | .bool _ value => some (.bool value)
  | .null _ => some .null
  | .undef _ => some .undef
  | .unary _ op arg =>
    match arg.constant? with
    | some a => op.foldUnary? a
    | none => none
  | .binary _ op left right =>
    match left.constant?, right.constant? with
    | some a, some b => op.fold? a b
    | _, _ => none
  | .cond _ test yes no =>
    match test.constant? with
    | some t => if t.toBool then yes.constant? else no.constant?
    | none => none
  | _ => none

end Minifier
