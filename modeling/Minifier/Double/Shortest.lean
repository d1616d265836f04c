import Minifier.Double.Decimal

/-!
# Shortest decimal digits

The decimal numeral with the fewest digits that reads back as a given number, and among those the
one nearest to it. The numerals that read back form an interval around the number, whose ends
belong to it exactly if the code is even. For each count of digits the two neighbours of the number
on that decimal grid are tried; the first grid with a hit wins. When both neighbours are equally
near, the caller's rule decides.
-/

namespace Minifier

-- Powers are meant as the core library defines them, whatever algebra is in scope.
attribute [local instance (2000)] instPowNat

/-- Which of two equally near numerals is taken. -/
inductive TieRule
  | up
  | even
deriving DecidableEq, Repr

namespace Double

/-- Ten to an integer power, as a fraction. -/
def powerOfTen (e : Int) : Nat × Nat :=
  if 0 ≤ e then (10 ^ e.toNat, 1) else (1, 10 ^ (-e).toNat)

/-- The number of decimal digits before the point of the magnitude with this code; zero or negative
if the magnitude is below one tenth. -/
def decimalWidth (code : Nat) : Int :=
  let scaled := unitsOfCode code * 10 ^ (330 : Nat) / unitsPerOne
  ((Nat.toDigits 10 scaled).length : Int) - 330

/-- Whether `numeral * 10 ^ e` reads back as the magnitude with this code: it lies between the
midpoints to the neighbouring magnitudes. Both sides are compared in half units. -/
def readsBack (code : Nat) (numeral : Nat) (e : Int) : Bool :=
  let (num, den) := powerOfTen e
  let value := 2 * numeral * num * unitsPerOne
  let low := (unitsOfCode (code - 1) + unitsOfCode code) * den
  let high := (unitsOfCode code + unitsOfCode (code + 1)) * den
  if code % 2 = 0 then decide (low ≤ value ∧ value ≤ high)
  else decide (low < value ∧ value < high)

/-- The neighbours below and above the magnitude on the grid of multiples of `10 ^ e` that read
back, the nearer one if both do. -/
def onGrid? (tie : TieRule) (code : Nat) (e : Int) : Option Nat :=
  let (num, den) := powerOfTen e
  let target := unitsOfCode code * den
  let step := num * unitsPerOne
  let below := target / step
  match readsBack code below e, readsBack code (below + 1) e with
  | false, false => none
  | true, false => some below
  | false, true => some (below + 1)
  | true, true =>
    let twice := 2 * (target % step)
    if twice < step then some below
    else if step < twice then some (below + 1)
    else match tie with
      | .up => some (below + 1)
      | .even => some (if below % 2 = 0 then below else below + 1)

/-- Drops trailing zeros of the coefficient, at most `fuel` of them. -/
def stripZeros : Nat → Decimal → Decimal
  | 0, d => d
  | fuel + 1, d =>
    if d.coefficient % 10 = 0 then stripZeros fuel ⟨d.coefficient / 10, d.exponent + 1⟩ else d

/-- The shortest numeral for the positive magnitude with this code. Seventeen digits always
suffice. -/
def shortest (tie : TieRule) (code : Nat) : Decimal :=
  let width := decimalWidth code
  let hit := (List.range 17).findSome? fun i =>
    let e := width - (i + 1 : Nat)
    (onGrid? tie code e).map fun numeral => (⟨numeral, e⟩ : Decimal)
  stripZeros 17 (hit.getD ⟨0, 0⟩)

end Double

end Minifier
