import Minifier.Double.Shortest

/-!
# Texts of numbers

Three ways to write a number in decimal, all from its shortest digits. `Double.text` is the
language's own conversion of a number to a string. `Double.source` is the shortest source text that
denotes the number, a quotient if it is not finite. `Double.json` is its notation in JSON, where a
number that is not finite is a quoted word.
-/

namespace Minifier

namespace Double

/-- The digits of a positive magnitude and the place of its point: the value is
`0.DIGITS * 10 ^ point`. -/
structure Digits where
  digits : List Char
  point : Int
deriving DecidableEq, Repr

/-- The shortest digits of the positive magnitude with this code. -/
def digitsOf (tie : TieRule) (code : Nat) : Digits :=
  let d := shortest tie code
  let digits := Nat.toDigits 10 d.coefficient
  ⟨digits, d.exponent + digits.length⟩

/-- In texts of the language, of two equally near numerals the greater one is taken. -/
def languageTie : TieRule := .up

/-- In JSON, of two equally near numerals the even one is taken. -/
def jsonTie : TieRule := .even

/-- A run of zeros. -/
def zeros (n : Int) : List Char :=
  List.replicate n.toNat '0'

/-- Digits in scientific notation: one digit, the others after a point, and a signed exponent. -/
def Digits.scientific (d : Digits) : List Char :=
  let e := d.point - 1
  let exponent := (if e < 0 then 'e' :: ['-'] else 'e' :: ['+']) ++ Nat.toDigits 10 e.natAbs
  match d.digits with
  | [] => exponent
  | [first] => first :: exponent
  | first :: rest => first :: '.' :: rest ++ exponent

/-- Digits with a point inside or in front of them, or zeros behind them. -/
def Digits.positional (d : Digits) : List Char :=
  if d.digits.length ≤ d.point then d.digits ++ zeros (d.point - d.digits.length)
  else if 0 < d.point then
    d.digits.take d.point.toNat ++ '.' :: d.digits.drop d.point.toNat
  else '0' :: '.' :: zeros (-d.point) ++ d.digits

/-- The language writes up to 21 digits before the point and up to six places after it
positionally. -/
def Digits.plain (d : Digits) : List Char :=
  if -6 < d.point ∧ d.point ≤ 21 then d.positional else d.scientific

/-- The language's conversion of a number to a string. Both zeros are `0`. -/
def text : Double → String
  | .nan => "NaN"
  | .infinite negative => if negative then "-Infinity" else "Infinity"
  | .finite negative code =>
    if code.val = 0 then "0"
    else
      let body := (digitsOf languageTie code).plain
      String.ofList (if negative then '-' :: body else body)

/-- The shortest source text of a positive magnitude: the plain text without a leading zero, or the
digits with an exponent if that is strictly shorter. -/
def Digits.source (d : Digits) : List Char :=
  let plain := match d.plain with
    | '0' :: '.' :: fraction => '.' :: fraction
    | other => other
  let e := d.point - d.digits.length
  let exponent := (if e < 0 then ['-'] else []) ++ Nat.toDigits 10 e.natAbs
  let candidate := d.digits ++ 'e' :: exponent
  if e ≠ 0 ∧ candidate.length < plain.length then candidate else plain

/-- The shortest source text that denotes the number. -/
def source : Double → String
  | .nan => "0/0"
  | .infinite negative => if negative then "-1/0" else "1/0"
  | .finite negative code =>
    let body := if code.val = 0 then ['0'] else (digitsOf languageTie code).source
    String.ofList (if negative then '-' :: body else body)

/-- In JSON a number always has a point or an exponent, and magnitudes from `10 ^ -5` up to
`10 ^ 16` are written positionally. -/
def Digits.json (d : Digits) : List Char :=
  if -5 < d.point ∧ d.point ≤ 16 then
    if d.digits.length ≤ d.point then d.positional ++ ['.', '0'] else d.positional
  else d.scientific

/-- The notation of a number in JSON. -/
def json : Double → String
  | .finite negative code =>
    let body := if code.val = 0 then ['0', '.', '0'] else (digitsOf jsonTie code).json
    String.ofList (if negative then '-' :: body else body)
  | other => "\"" ++ other.text ++ "\""

end Double

end Minifier
