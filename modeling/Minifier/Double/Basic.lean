/-!
# Double precision numbers

The 64-bit binary floating point numbers, with all NaNs taken as one. A finite magnitude is kept as
its *code*, the bit pattern without the sign, read as a natural number. Codes grow with the
magnitudes, so comparing numbers is comparing codes.

Every finite number is a whole number of *units*, the unit being the least positive number
`2 ^ -1074`. Sums, products, quotients and remainders are therefore taken exactly on whole numbers
and rounded once, to the nearest code, a tie going to the even one.
-/

namespace Minifier

-- Powers are meant as the core library defines them, whatever algebra is in scope.
attribute [local instance (2000)] instPowNat

/-- The number of finite magnitudes; as a code it stands one past the greatest of them. -/
def Double.codes : Nat := 2047 * 2 ^ (52 : Nat)

/-- A double precision number. -/
inductive Double
  | nan
  | infinite (negative : Bool)
  | finite (negative : Bool) (code : Fin Double.codes)
deriving DecidableEq, Repr

namespace Double

/-- How many units make one. -/
def unitsPerOne : Nat := 2 ^ (1074 : Nat)

/-- The magnitude with the given code, in units. -/
def unitsOfCode (code : Nat) : Nat :=
  if code < 2 ^ (52 : Nat) then code
  else (2 ^ (52 : Nat) + code % 2 ^ (52 : Nat)) * 2 ^ (code / 2 ^ (52 : Nat) - 1)

/-- The natural number nearest to `num / den`, a tie going to the even one. -/
def roundQuotient (num den : Nat) : Nat :=
  let q := num / den
  let twice := 2 * (num % den)
  if twice < den then q
  else if den < twice then q + 1
  else if q % 2 = 0 then q else q + 1

/-- The code nearest to `num / den` units, a tie going to the even one. Magnitudes that are too
great give a code that is not below `codes`. -/
def nearestCode (num den : Nat) : Nat :=
  let shift := (num / den).log2 - 52
  shift * 2 ^ (52 : Nat) + roundQuotient num (den * 2 ^ shift)

/-- The number nearest to `num / den` units with the given sign. -/
def ofUnits (negative : Bool) (num den : Nat) : Double :=
  let code := nearestCode num den
  if h : code < codes then .finite negative ⟨code, h⟩ else .infinite negative

/-- Zero of either sign. -/
def zero (negative : Bool) : Double :=
  .finite negative ⟨0, by decide⟩

/-- The number nearest to a natural number. -/
def ofNat (n : Nat) : Double :=
  ofUnits false (n * unitsPerOne) 1

/-- The number nearest to an integer; zero is positive. -/
def ofInt (n : Int) : Double :=
  ofUnits (decide (n < 0)) (n.natAbs * unitsPerOne) 1

instance : Inhabited Double := ⟨zero false⟩

/-- Whether the number is neither NaN nor infinite. -/
def isFinite : Double → Bool
  | .finite _ _ => true
  | _ => false

/-- Whether the number is NaN. -/
def isNaN : Double → Bool
  | .nan => true
  | _ => false

/-- Whether the number carries a minus sign. Negative zero does. -/
def isNegative : Double → Bool
  | .nan => false
  | .infinite negative => negative
  | .finite negative _ => negative

/-- Whether the number is zero of either sign. -/
def isZero : Double → Bool
  | .finite _ code => code.val == 0
  | _ => false

/-- The signed code: an integer that orders the numbers, the two zeros being equal. NaN has none. -/
def key : Double → Option Int
  | .nan => none
  | .infinite negative => some (if negative then -codes else codes)
  | .finite negative code => some (if negative then -(code.val : Int) else code.val)

/-- The order of two numbers, or nothing if one of them is NaN. -/
def order (a b : Double) : Option Ordering :=
  match a.key, b.key with
  | some x, some y => some (compare x y)
  | _, _ => none

/-- Numeric equality: the two zeros are equal and NaN differs from itself. -/
def numEq (a b : Double) : Bool :=
  a.order b == some .eq

/-- Equality as a key: numeric equality, except that NaN equals itself. -/
def sameKey (a b : Double) : Bool :=
  if a.isNaN then b.isNaN else a.numEq b

/-- The order with NaN counted as equal to everything. -/
def keyOrder (a b : Double) : Ordering :=
  (a.order b).getD .eq

/-- The bit pattern; NaN is the quiet one without a sign. -/
def toBits : Double → UInt64
  | .nan => 0x7ff8000000000000
  | .infinite negative => .ofNat ((if negative then 2 ^ (63 : Nat) else 0) + codes)
  | .finite negative code => .ofNat ((if negative then 2 ^ (63 : Nat) else 0) + code.val)

/-- The number with the given bit pattern. -/
def ofBits (bits : UInt64) : Double :=
  let negative := decide (2 ^ (63 : Nat) ≤ bits.toNat)
  let code := bits.toNat % 2 ^ (63 : Nat)
  if h : code < codes then .finite negative ⟨code, h⟩
  else if code = codes then .infinite negative
  else .nan

/-- What a hash is taken of: the bit pattern, or nothing at all for NaN. -/
def hashed (a : Double) : Option UInt64 :=
  if a.isNaN then none else some a.toBits

/-- The value in units, with its sign. -/
def signedUnits (negative : Bool) (code : Nat) : Int :=
  if negative then -(unitsOfCode code : Int) else unitsOfCode code

/-- The number with the opposite sign. -/
def neg : Double → Double
  | .nan => .nan
  | .infinite negative => .infinite (!negative)
  | .finite negative code => .finite (!negative) code

/-- The magnitude. -/
def abs : Double → Double
  | .nan => .nan
  | .infinite _ => .infinite false
  | .finite _ code => .finite false code

/-- The rounded sum. A sum of zero is negative only if both parts are. -/
def add : Double → Double → Double
  | .finite s a, .finite t b =>
    let sum := signedUnits s a + signedUnits t b
    if sum = 0 then zero (s && t) else ofUnits (decide (sum < 0)) sum.natAbs 1
  | .infinite s, .infinite t => if s = t then .infinite s else .nan
  | .infinite s, .finite _ _ => .infinite s
  | .finite _ _, .infinite t => .infinite t
  | .nan, _ => .nan
  | _, .nan => .nan

/-- The rounded difference. -/
def sub (a b : Double) : Double :=
  a.add b.neg

/-- The rounded product. -/
def mul : Double → Double → Double
  | .finite s a, .finite t b =>
    ofUnits (s != t) (unitsOfCode a * unitsOfCode b) unitsPerOne
  | .infinite s, .infinite t => .infinite (s != t)
  | .infinite s, .finite t b => if b.val = 0 then .nan else .infinite (s != t)
  | .finite s a, .infinite t => if a.val = 0 then .nan else .infinite (s != t)
  | .nan, _ => .nan
  | _, .nan => .nan

/-- The rounded quotient. -/
def div : Double → Double → Double
  | .finite s a, .finite t b =>
    if b.val = 0 then
      if a.val = 0 then .nan else .infinite (s != t)
    else ofUnits (s != t) (unitsOfCode a * unitsPerOne) (unitsOfCode b)
  | .infinite _, .infinite _ => .nan
  | .infinite s, .finite t _ => .infinite (s != t)
  | .finite s _, .infinite t => zero (s != t)
  | .nan, _ => .nan
  | _, .nan => .nan

/-- The remainder of the truncated quotient, with the sign of the dividend. It is exact. -/
def rem : Double → Double → Double
  | .finite s a, .finite _ b =>
    if b.val = 0 then .nan else ofUnits s (unitsOfCode a % unitsOfCode b) 1
  | .finite s a, .infinite _ => .finite s a
  | _, _ => .nan

/-- The number without its fraction. It is exact. -/
def truncate : Double → Double
  | .finite negative code =>
    ofUnits negative (unitsOfCode code / unitsPerOne * unitsPerOne) 1
  | other => other

/-- The remainder that is not negative. -/
def remEuclid (a b : Double) : Double :=
  let r := a.rem b
  if r.order (zero false) = some .lt then r.add b.abs else r

/-- The integer part as a 32-bit word. Numbers beyond the words give the last of them, negative
numbers and NaN give zero. -/
def clampUInt32 : Double → UInt32
  | .nan => 0
  | .infinite negative => if negative then 0 else 0xffffffff
  | .finite negative code =>
    let whole := unitsOfCode code / unitsPerOne
    if negative then 0 else if whole < 2 ^ (32 : Nat) then .ofNat whole else 0xffffffff

/-- The integer part modulo `2 ^ 32`, and zero for a number that is not finite. -/
def toUInt32 (a : Double) : UInt32 :=
  if !a.isFinite || a.isZero then 0
  else (a.truncate.remEuclid (ofNat (2 ^ (32 : Nat)))).clampUInt32

end Double

end Minifier
