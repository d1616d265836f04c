import Minifier.Double.Basic

/-!
# Decimal numerals

A decimal numeral is a coefficient times a power of ten. `Decimal.parse?` reads the unsigned
notation with an optional point and an optional exponent, and `Double.ofDecimal` is the number
nearest to a numeral, however many digits it has. `Double.parse?` reads numerals with a sign, and
words for the numbers that have no numeral.
-/

namespace Minifier

-- Powers are meant as the core library defines them, whatever algebra is in scope.
attribute [local instance (2000)] instPowNat

/-- The number `coefficient * 10 ^ exponent`. -/
structure Decimal where
  coefficient : Nat
  exponent : Int
deriving DecidableEq, Repr

namespace Decimal

/-- The value of a digit character. -/
def digitValue (c : Char) : Nat :=
  c.toNat - '0'.toNat

/-- The natural number that a list of digit characters spells in base ten. -/
def natOfDigits (digits : List Char) : Nat :=
  digits.foldl (fun n c => 10 * n + digitValue c) 0

/-- Splits a text after its leading digits. -/
def spanDigits (text : List Char) : List Char × List Char :=
  (text.takeWhile Char.isDigit, text.dropWhile Char.isDigit)

/-- Reads what may follow the coefficient: nothing, or an exponent that takes up all the rest. -/
def parseExponent? : List Char → Option Int
  | [] => some 0
  | mark :: rest =>
    if mark = 'e' ∨ mark = 'E' then
      let (negative, digits) := match rest with
        | '-' :: digits => (true, digits)
        | '+' :: digits => (false, digits)
        | digits => (false, digits)
      if digits.isEmpty || !digits.all Char.isDigit then none
      else if negative then some (-(natOfDigits digits : Int))
      else some (natOfDigits digits)
    else none

/-- Reads a whole text as an unsigned numeral: digits with at most one point among or around them,
at least one digit, then perhaps an exponent. -/
def parse? (text : List Char) : Option Decimal :=
  let (whole, rest) := spanDigits text
  let (fraction, tail) := match rest with
    | '.' :: rest => spanDigits rest
    | rest => ([], rest)
  if whole.isEmpty && fraction.isEmpty then none
  else (parseExponent? tail).map fun exponent =>
    ⟨natOfDigits (whole ++ fraction), exponent - fraction.length⟩

end Decimal

/-- The number nearest to a numeral. Exponents far outside the range of the type are decided
without computing the power of ten. -/
def Double.ofDecimal (negative : Bool) (d : Decimal) : Double :=
  if d.coefficient = 0 then .zero negative
  else if 0 ≤ d.exponent then
    if 400 < d.exponent then .infinite negative
    else .ofUnits negative (d.coefficient * 10 ^ d.exponent.toNat * unitsPerOne) 1
  else
    let places := (-d.exponent).toNat
    if d.coefficient.log2 + 401 < places then .zero negative
    else .ofUnits negative (d.coefficient * unitsPerOne) (10 ^ places)

/-- A text without its sign, and whether that is a minus. -/
def splitSign : List Char → Bool × List Char
  | '-' :: rest => (true, rest)
  | '+' :: rest => (false, rest)
  | text => (false, text)

/-- Reads a whole text as a number: an optional sign, then a numeral or a word for a number that is
not finite, in letters of either case. -/
def Double.parse? (text : List Char) : Option Double :=
  let (negative, body) := splitSign text
  match Decimal.parse? body with
  | some d => some (.ofDecimal negative d)
  | none =>
    let word := body.map Char.toLower
    if word = "inf".toList ∨ word = "infinity".toList then some (.infinite negative)
    else if word = "nan".toList then some .nan
    else none

end Minifier
