/-!
# Operators

The operators of the language, each with the name it has in serialized trees, its source text, its
precedence and its associativity. A higher precedence binds tighter.
-/

namespace Minifier

/-- An operator, unary and binary ones alike. Assignments and the comma are binary operators. -/
inductive Operator
  | addition | assign | assignAdd | assignBitAnd | assignShiftLeft | assignBitOr | assignShiftRight
  | assignShiftRightZero | assignBitXor | assignDivide | assignMultiply | assignRemainder
  | assignSubtract | bitAnd | shiftLeft | bitNot | bitOr | shiftRight | shiftRightZero | bitXor
  | comma | conditional | delete | division | equal | greater | greaterEq | isIn | notEqual
  | instanceOf | less | lessEq | logicalAnd | logicalNot | logicalOr | multiplication
  | postDecrement | postIncrement | preDecrement | preIncrement | remainder | strictEqual
  | strictNotEqual | subtraction | typeOf | unaryMinus | unaryPlus | void
deriving DecidableEq, Repr

/-- Which operand of a chain of equal operators is grouped first. -/
inductive Associativity
  | left
  | right
deriving DecidableEq, Repr

/-- What is known of an operator. -/
structure Operator.Entry where
  name : String
  text : String
  precedence : Nat
  associativity : Associativity
deriving DecidableEq, Repr

namespace Operator

/-- All operators, in the order of their names. -/
def all : List Operator := [
  .addition, .assign, .assignAdd, .assignBitAnd, .assignShiftLeft, .assignBitOr, .assignShiftRight,
  .assignShiftRightZero, .assignBitXor, .assignDivide, .assignMultiply, .assignRemainder,
  .assignSubtract, .bitAnd, .shiftLeft, .bitNot, .bitOr, .shiftRight, .shiftRightZero, .bitXor,
  .comma, .conditional, .delete, .division, .equal, .greater, .greaterEq, .isIn, .notEqual,
  .instanceOf, .less, .lessEq, .logicalAnd, .logicalNot, .logicalOr, .multiplication,
  .postDecrement, .postIncrement, .preDecrement, .preIncrement, .remainder, .strictEqual,
  .strictNotEqual, .subtraction, .typeOf, .unaryMinus, .unaryPlus, .void]

/-- The table of operators. -/
def entry : Operator → Entry
  | .addition => ⟨"Addition", "+", 13, .left⟩
  | .assign => ⟨"Assignment", "=", 3, .right⟩
  | .assignAdd => ⟨"AssignmentAddition", "+=", 3, .right⟩
  | .assignBitAnd => ⟨"AssignmentBitwiseAnd", "&=", 3, .right⟩
  | .assignShiftLeft => ⟨"AssignmentBitwiseLeftShift", "<<=", 3, .right⟩
  | .assignBitOr => ⟨"AssignmentBitwiseOr", "|=", 3, .right⟩
  | .assignShiftRight => ⟨"AssignmentBitwiseRightShift", ">>=", 3, .right⟩
  | .assignShiftRightZero => ⟨"AssignmentBitwiseUnsignedRightShift", ">>>=", 3, .right⟩
  | .assignBitXor => ⟨"AssignmentBitwiseXor", "^=", 3, .right⟩
  | .assignDivide => ⟨"AssignmentDivision", "/=", 3, .right⟩
  | .assignMultiply => ⟨"AssignmentMultiplication", "*=", 3, .right⟩
  | .assignRemainder => ⟨"AssignmentRemainder", "%=", 3, .right⟩
  | .assignSubtract => ⟨"AssignmentSubtraction", "-=", 3, .right⟩
  | .bitAnd => ⟨"BitwiseAnd", "&", 9, .left⟩
  | .shiftLeft => ⟨"BitwiseLeftShift", "<<", 12, .left⟩
  | .bitNot => ⟨"BitwiseNot", "~", 16, .right⟩
  | .bitOr => ⟨"BitwiseOr", "|", 7, .left⟩
  | .shiftRight => ⟨"BitwiseRightShift", ">>", 12, .left⟩
  | .shiftRightZero => ⟨"BitwiseUnsignedRightShift", ">>>", 12, .left⟩
  | .bitXor => ⟨"BitwiseXor", "^", 8, .left⟩
  | .comma => ⟨"Comma", ",", 1, .left⟩
  | .conditional => ⟨"Conditional", "?", 4, .right⟩
  | .delete => ⟨"Delete", "delete", 16, .right⟩
  | .division => ⟨"Division", "/", 14, .left⟩
  | .equal => ⟨"Equality", "==", 10, .left⟩
  | .greater => ⟨"GreaterThan", ">", 11, .left⟩
  | .greaterEq => ⟨"GreaterThanOrEqual", ">=", 11, .left⟩
  | .isIn => ⟨"In", "in", 11, .left⟩
  | .notEqual => ⟨"Inequality", "!=", 10, .left⟩
  | .instanceOf => ⟨"Instanceof", "instanceof", 11, .left⟩
  | .less => ⟨"LessThan", "<", 11, .left⟩
  | .lessEq => ⟨"LessThanOrEqual", "<=", 11, .left⟩
  | .logicalAnd => ⟨"LogicalAnd", "&&", 6, .left⟩
  | .logicalNot => ⟨"LogicalNot", "!", 16, .right⟩
  | .logicalOr => ⟨"LogicalOr", "||", 5, .left⟩
  | .multiplication => ⟨"Multiplication", "*", 14, .left⟩
  | .postDecrement => ⟨"PostfixDecrement", "--", 17, .left⟩
  | .postIncrement => ⟨"PostfixIncrement", "++", 17, .left⟩
  | .preDecrement => ⟨"PrefixDecrement", "--", 16, .right⟩
  | .preIncrement => ⟨"PrefixIncrement", "++", 16, .right⟩
  | .remainder => ⟨"Remainder", "%", 14, .left⟩
  | .strictEqual => ⟨"StrictEquality", "===", 10, .left⟩
  | .strictNotEqual => ⟨"StrictInequality", "!==", 10, .left⟩
  | .subtraction => ⟨"Subtraction", "-", 13, .left⟩
  | .typeOf => ⟨"Typeof", "typeof", 16, .right⟩
  | .unaryMinus => ⟨"UnaryNegation", "-", 16, .right⟩
  | .unaryPlus => ⟨"UnaryPlus", "+", 16, .right⟩
  | .void => ⟨"Void", "void", 16, .right⟩

/-- The name of the operator in a serialized tree. -/
def name (op : Operator) : String := op.entry.name

/-- The source text of the operator. -/
def text (op : Operator) : String := op.entry.text

/-- How tightly the operator binds. -/
def precedence (op : Operator) : Nat := op.entry.precedence

/-- How a chain of the operator is grouped. -/
def associativity (op : Operator) : Associativity := op.entry.associativity

/-- The operator with the given name. -/
def ofName? (name : String) : Option Operator :=
  all.find? fun op => op.name == name

/-- Whether the operator stores into its left operand. -/
def isAssignment (op : Operator) : Bool :=
  op.precedence == 3

/-- Whether the operator compares its operands and gives a boolean. -/
def isComparison (op : Operator) : Bool :=
  op.precedence == 10 || op.precedence == 11

/-- Whether the operator is a word written before its operand. -/
def isKeyword : Operator → Bool
  | .delete | .typeOf | .void => true
  | _ => false

/-- The least precedence an operand on the left may have without parentheses. -/
def leftLevel (op : Operator) : Nat :=
  match op.associativity with
  | .left => op.precedence
  | .right => op.precedence + 1

/-- The least precedence an operand on the right may have without parentheses. -/
def rightLevel (op : Operator) : Nat :=
  match op.associativity with
  | .left => op.precedence + 1
  | .right => op.precedence

end Operator

end Minifier
