import Minifier.Double.Decimal
import Minifier.Json.Basic
import Minifier.Json.Fault

/-!
# Numbers in JSON texts

A whole number that fits into 64 bits is taken exactly. Any other number becomes a double by a quick
rule, which rounds up to three times: the digits that fit into 64 bits make a whole number, and that
is multiplied or divided by a rounded power of ten.
-/

namespace Minifier.Json

-- Powers are meant as the core library defines them, whatever algebra is in scope.
attribute [local instance (2000)] instPowNat

/-- The parts of a number in a JSON text. -/
structure Numeral where
  negative : Bool
  whole : List Char
  fraction : List Char
  /-- Sign and digits of the exponent; without an exponent there is none. -/
  exponent : Option (Bool × List Char)
  /-- Whether the number has neither point nor exponent. -/
  isWhole : Bool
deriving DecidableEq, Repr

namespace Numeral

/-- Appends digits to a significand as long as it stays below `2 ^ 64`, and counts them. -/
def appendDigits : Nat → List Char → Nat × Nat
  | significand, [] => (significand, 0)
  | significand, c :: rest =>
    let next := 10 * significand + Decimal.digitValue c
    if next < 2 ^ (64 : Nat) then
      let (result, count) := appendDigits next rest
      (result, count + 1)
    else (significand, 0)

/-- A power of ten, rounded. -/
def tenTo (e : Nat) : Double :=
  .ofDecimal false ⟨1, e⟩

/-- The significand times a power of ten, or nothing if the result is not finite. -/
def scale (significand : Nat) (e : Int) : Option Double :=
  let f := Double.ofNat significand
  if 308 < e then if significand = 0 then some f else none
  else if 0 ≤ e then
    let product := f.mul (tenTo e.toNat)
    if product.isFinite then some product else none
  else if -308 ≤ e then some (f.div (tenTo (-e).toNat))
  else if -616 ≤ e then some ((f.div (tenTo 308)).div (tenTo (-e - 308).toNat))
  else some (.zero false)

/-- The magnitude of a number that is not whole or does not fit into 64 bits. -/
def magnitude (n : Numeral) : Option Double :=
  let (kept, wholeCount) := appendDigits 0 n.whole
  let (significand, fractionCount) := appendDigits kept n.fraction
  let base : Int := (n.whole.length - wholeCount : Nat) - (fractionCount : Nat)
  match n.exponent with
  | none => scale significand base
  | some (negative, digits) =>
    let e := Decimal.natOfDigits digits
    if 2 ^ (31 : Nat) ≤ e then
      if negative ∨ significand = 0 then some (.zero false) else none
    else scale significand (if negative then base - e else base + e)

/-- The value of a number, or a fault if it is too great for a double. Negative zero and whole
numbers beyond 64 bits are doubles. -/
def value (n : Numeral) : Except Fault Json :=
  let whole := Decimal.natOfDigits n.whole
  if n.isWhole && !n.negative && decide (whole < 2 ^ (64 : Nat)) then .ok (.int whole)
  else if n.isWhole && n.negative && decide (0 < whole ∧ whole ≤ 2 ^ (63 : Nat)) then
    .ok (.int (-(whole : Int)))
  else match n.magnitude with
    | some m => .ok (.float (if n.negative then m.neg else m))
    | none => .error .numberOutOfRange

/-- Reads the digits after the point, if there is one. -/
def readFraction : List Char → Except Fault (Option (List Char) × List Char)
  | '.' :: rest =>
    let (digits, after) := Decimal.spanDigits rest
    if digits.isEmpty then .error (if after.isEmpty then .endInValue else .invalidNumber)
    else .ok (some digits, after)
  | rest => .ok (none, rest)

/-- Reads the exponent, if there is one. -/
def readExponent : List Char → Except Fault (Option (Bool × List Char) × List Char)
  | [] => .ok (none, [])
  | mark :: rest =>
    if mark = 'e' ∨ mark = 'E' then
      let (negative, rest) := match rest with
        | '-' :: rest => (true, rest)
        | '+' :: rest => (false, rest)
        | rest => (false, rest)
      let (digits, after) := Decimal.spanDigits rest
      if digits.isEmpty then .error (if after.isEmpty then .endInValue else .invalidNumber)
      else .ok (some (negative, digits), after)
    else .ok (none, mark :: rest)

/-- Reads a number after its sign. No digit may follow a leading zero. -/
def read (negative : Bool) (text : List Char) : Except Fault (Numeral × List Char) := do
  let (whole, rest) := Decimal.spanDigits text
  match whole with
  | [] => throw (if rest.isEmpty then .endInValue else .invalidNumber)
  | '0' :: _ :: _ => throw .invalidNumber
  | _ =>
    let (fraction, rest) ← readFraction rest
    let (exponent, rest) ← readExponent rest
    let isWhole := fraction.isNone && exponent.isNone
    return (⟨negative, whole, fraction.getD [], exponent, isWhole⟩, rest)

end Numeral

end Minifier.Json
