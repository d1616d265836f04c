import Minifier.Double.Text
import Minifier.Syntax
import Minifier.Text.Blank
import Minifier.Text.Hex

/-!
# Constants

The values that are known when a program is shrunk, and the language's conversions between them.
Each constant has a literal, so a constant can always be turned back into an expression.
-/

namespace Minifier

-- Powers are meant as the core library defines them, whatever algebra is in scope.
attribute [local instance (2000)] instPowNat

/-- A value known in advance. -/
inductive Constant
  | str (value : String)
  | num (value : Double)
  | bool (value : Bool)
  | undef
  | null
deriving DecidableEq, Repr

/-- The base of a number that begins with a zero and this letter. -/
def radixOf? (mark : Char) : Option Nat :=
  if mark = 'x' ∨ mark = 'X' then some 16
  else if mark = 'o' ∨ mark = 'O' then some 8
  else if mark = 'b' ∨ mark = 'B' then some 2
  else none

/-- Why the number that digits spell in a base is not told. -/
inductive RadixFault
  | empty
  | notDigit
  | overflow
  /-- Past `2 ^ 53` whole numbers need rounding. -/
  | inexact
deriving DecidableEq, Repr

/-- A number with one more digit behind it, in 64-bit arithmetic. -/
def appendDigit (base : Nat) (n : UInt64) (c : Char) : Except RadixFault UInt64 :=
  match Text.digitValue? c with
  | none => .error .notDigit
  | some digit =>
    if base ≤ digit then .error .notDigit
    else if 2 ^ (64 : Nat) ≤ n.toNat * base then .error .overflow
    else
      let product := n * .ofNat base
      if 2 ^ (64 : Nat) ≤ product.toNat + digit then .error .overflow
      else
        let sum := product + .ofNat digit
        if 2 ^ (53 : Nat) < sum.toNat then .error .inexact else .ok sum

/-- The whole number that digits spell in a base. -/
def wholeInBase (base : Nat) (digits : List Char) : Except RadixFault UInt64 :=
  if digits.isEmpty then .error .empty else digits.foldlM (appendDigit base) 0

/-- The value of digits in a base, NaN if they are not all digits of it. There is no answer if the
whole number is not told. -/
def numberInBase? (base : Nat) (digits : List Char) : Option Double :=
  if digits.isEmpty || !digits.all (Text.isDigitIn base) then some .nan
  else match wholeInBase base digits with
    | .ok n => some (.ofNat n.toNat)
    | .error _ => none

/-- Whether a character can occur in a decimal number. -/
def isDecimalChar (c : Char) : Bool :=
  c.isDigit || c == '.' || c == 'e' || c == 'E' || c == '+' || c == '-'

/-- Whether a text begins like a decimal number without a sign. -/
def beginsDecimal (text : List Char) : Bool :=
  text.head?.any fun c => c.isDigit || c == '.'

/-- The value of a decimal number with an optional sign, NaN for any other text. -/
def numberOfDecimal (text : List Char) : Double :=
  let (negative, body) := splitSign text
  if body = "Infinity".toList then .infinite negative
  else if !body.all isDecimalChar || !beginsDecimal body then .nan
  else match Double.parse? body with
    | some x => if negative then x.neg else x
    | none => .nan

/-- The language's conversion of a string to a number. There is no answer only if it cannot be
computed exactly. -/
def numberOfText? (text : String) : Option Double :=
  match Text.trim text.toList with
  | [] => some (.zero false)
  | '0' :: mark :: digits =>
    match radixOf? mark with
    | some base => numberInBase? base digits
    | none => some (numberOfDecimal ('0' :: mark :: digits))
  | trimmed => some (numberOfDecimal trimmed)

namespace Constant

/-- The literal of a constant at a span. -/
def toExpr (span : Span) : Constant → Expr
  | .str value => .str (.both span) value
  | .num value => .num (.both span) value
  | .bool value => .bool (.both span) value
  | .undef => .undef (.both span)
  | .null => .null (.both span)

/-- The truth value one and zero. -/
def ofBit (value : Bool) : Double :=
  if value then .ofNat 1 else .zero false

/-- The constant as a number, if it can be told exactly. -/
def toNumber? : Constant → Option Double
  | .bool value => some (ofBit value)
  | .null => some (.zero false)
  | .num value => some value
  | .str value => numberOfText? value
  | .undef => some .nan

/-- The constant as a string. -/
def toText : Constant → String
  | .str value => value
  | .num value => value.text
  | .bool value => if value then "true" else "false"
  | .undef => "undefined"
  | .null => "null"

/-- The constant as a truth value. -/
def toBool : Constant → Bool
  | .bool value => value
  | .null | .undef => false
  | .num value => !value.isNaN && !value.isZero
  | .str value => !value.isEmpty

/-- The constant as a 32-bit word. -/
def toWord? (c : Constant) : Option UInt32 :=
  c.toNumber?.map Double.toUInt32

end Constant

end Minifier
