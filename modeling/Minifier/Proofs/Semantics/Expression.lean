import Minifier.Constant.Fold

/-!
# Evaluation of expressions

An evaluation of expressions over states of any kind. A `Semantics` supplies the primitives: what
names, calls, accesses, assignments, literals and operators do to the state. Each primitive may
change the state, throw a value, or not come to an end at all. The evaluation itself is fixed: it
feeds the primitives with the results of the parts, from left to right, and decides which parts of
`!`, `&&`, `||`, `,` and `?:` are evaluated.

An expression gives an operand, a value or a place that holds one. Assignments, `++`, `delete`,
`typeof` and calls look at the operand, everything else at its value.
-/

namespace Minifier

/-- A computation over states `S` that may throw a value of `V` and need not come to an end. -/
abbrev Effect (S V : Type) := ExceptT V (StateT S Option)

/-- What an expression gives: a value, or a place that holds one. -/
inductive Operand (V R : Type)
  | value (v : V)
  | place (r : R)

/-- An evaluated member of an object literal. -/
inductive Property (V : Type)
  | value (key : String) (v : V)
  | getter (key : String) (fn : Func)
  | setter (key : String) (fn : Func)

/-- The primitives of an evaluation over states `S`, values `V` and places `R`. -/
structure Semantics (S V R : Type) where
  /-- The value of a literal. -/
  constant : Constant → V
  /-- Whether a value counts as true. -/
  truthy : V → Bool
  /-- The place that a name stands for. -/
  name : String → Effect S V R
  /-- The place that an object has for a key. -/
  access : V → V → Effect S V R
  /-- The value that a place holds. -/
  load : R → Effect S V V
  /-- The value of `this`. -/
  this : Effect S V V
  /-- A unary operator before its operand. -/
  unary : Operator → Operand V R → Effect S V V
  /-- An operator behind its operand. -/
  update : Operator → Operand V R → Effect S V V
  /-- A binary operator on two values. -/
  binary : Operator → V → V → Effect S V V
  /-- What an assignment takes from its target before the right side is evaluated. -/
  fetch : Operator → Operand V R → Effect S V V
  /-- The assignment, from its target, what was taken from it, and the right side. -/
  store : Operator → Operand V R → V → V → Effect S V V
  /-- What a call or a `new` takes from the callee before the arguments are evaluated. -/
  callee : Bool → Operand V R → Effect S V V
  /-- The call, from the callee, what was taken from it, and the arguments. -/
  call : Bool → Operand V R → V → List V → Effect S V V
  /-- The value of a function expression. -/
  closure : Option String → Func → Effect S V V
  /-- The value of an array literal; a hole has no element. -/
  array : List (Option V) → Effect S V V
  /-- The value of an object literal. -/
  object : List (Property V) → Effect S V V
  /-- The value of a regular expression. -/
  regex : String → Effect S V V

namespace Semantics

variable {S V R : Type} (sem : Semantics S V R)

/-- The value of an operand. -/
def get : Operand V R → Effect S V V
  | .value v => pure v
  | .place r => sem.load r

/-- The value of an operand that is still to be evaluated. -/
def read (x : Effect S V (Operand V R)) : Effect S V V :=
  x >>= sem.get

/-- A binary operator on operands that are still to be evaluated. -/
def binaryOf (op : Operator) (left right : Effect S V (Operand V R)) : Effect S V V :=
  if op.isAssignment then do
    let target ← left
    let old ← sem.fetch op target
    let v ← sem.read right
    sem.store op target old v
  else match op with
    | .comma => do
      let _ ← sem.read left
      sem.read right
    | .logicalAnd => do
      let v ← sem.read left
      if sem.truthy v then sem.read right else pure v
    | .logicalOr => do
      let v ← sem.read left
      if sem.truthy v then pure v else sem.read right
    | op => do
      let a ← sem.read left
      let b ← sem.read right
      sem.binary op a b

/-- A unary operator on an operand that is still to be evaluated. -/
def unaryOf (op : Operator) (arg : Effect S V (Operand V R)) : Effect S V V :=
  if op = .logicalNot then do
    let v ← sem.read arg
    return sem.constant (.bool !sem.truthy v)
  else do
    let x ← arg
    sem.unary op x

/-- A choice between two operands that are still to be evaluated. -/
def condOf (test yes no : Effect S V (Operand V R)) : Effect S V V := do
  let v ← sem.read test
  if sem.truthy v then sem.read yes else sem.read no

mutual

/-- What an expression gives. -/
def operand : Expr → Effect S V (Operand V R)
  | .binary _ op left right => .value <$> sem.binaryOf op (operand left) (operand right)
  | .call _ isNew callee args => .value <$> do
    let target ← operand callee
    let f ← sem.callee isNew target
    let vs ← arguments args
    sem.call isNew target f vs
  | .index _ object key => .place <$> do
    let v ← sem.read (operand object)
    let k ← sem.read (operand key)
    sem.access v k
  | .cond _ test yes no => .value <$> sem.condOf (operand test) (operand yes) (operand no)
  | .func _ name fn => .value <$> sem.closure name fn
  | .ident _ name => .place <$> sem.name name
  | .member _ object name => .place <$> do
    let v ← sem.read (operand object)
    sem.access v (sem.constant (.str name))
  | .this _ => .value <$> sem.this
  | .unary _ op arg => .value <$> sem.unaryOf op (operand arg)
  | .update _ op arg => .value <$> do
    let x ← operand arg
    sem.update op x
  | .array _ elements => .value <$> do
    let vs ← elementValues elements
    sem.array vs
  | .object _ members => .value <$> do
    let vs ← properties members
    sem.object vs
  | .regex _ text => .value <$> sem.regex text
  | .bool _ value => pure (.value (sem.constant (.bool value)))
  | .null _ => pure (.value (sem.constant .null))
  | .num _ value => pure (.value (sem.constant (.num value)))
  | .str _ value => pure (.value (sem.constant (.str value)))
  | .undef _ => pure (.value (sem.constant .undef))

/-- The values of the arguments of a call. -/
def arguments : List Expr → Effect S V (List V)
  | [] => return []
  | e :: rest => do
    let v ← sem.read (operand e)
    let vs ← arguments rest
    return v :: vs

/-- The values of the elements of an array literal. -/
def elementValues : List (Option Expr) → Effect S V (List (Option V))
  | [] => return []
  | none :: rest => do
    let vs ← elementValues rest
    return none :: vs
  | some e :: rest => do
    let v ← sem.read (operand e)
    let vs ← elementValues rest
    return some v :: vs

/-- The members of an object literal with their values. -/
def properties : List Member → Effect S V (List (Property V))
  | [] => return []
  | .value _ key e :: rest => do
    let v ← sem.read (operand e)
    let vs ← properties rest
    return .value key v :: vs
  | .getter _ key fn :: rest => do
    let vs ← properties rest
    return .getter key fn :: vs
  | .setter _ key fn :: rest => do
    let vs ← properties rest
    return .setter key fn :: vs

end

attribute [simp] operand arguments elementValues properties

/-- The value of an expression. -/
def value (e : Expr) : Effect S V V :=
  sem.read (sem.operand e)

/-- Whether a condition holds. -/
def holds (e : Expr) : Effect S V Bool :=
  sem.truthy <$> sem.value e

end Semantics

end Minifier
