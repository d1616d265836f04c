/-!
# Order of strings by UTF-16 code units

The language compares strings code unit by code unit in their UTF-16 form. This differs from the
order of code points: a character beyond the basic plane is written with two surrogates, which come
before the last characters of that plane.
-/

namespace Minifier.Text

/-- The UTF-16 code units of a character. -/
def unitsOfChar (c : Char) : List Nat :=
  if c.toNat < 0x10000 then [c.toNat]
  else
    let n := c.toNat - 0x10000
    [0xd800 + n / 0x400, 0xdc00 + n % 0x400]

/-- The UTF-16 code units of a text. -/
def units (text : List Char) : List Nat :=
  text.flatMap unitsOfChar

/-- Lexicographic order. -/
def lexOrder : List Nat → List Nat → Ordering
  | [], [] => .eq
  | [], _ :: _ => .lt
  | _ :: _, [] => .gt
  | a :: as, b :: bs => (compare a b).then (lexOrder as bs)

/-- The order of two strings by their code units. -/
def unitOrder (a b : String) : Ordering :=
  lexOrder (units a.toList) (units b.toList)

end Minifier.Text
