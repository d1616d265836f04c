import Minifier.Text.Hex

/-!
# String literals

The source text of a string value. The literal uses the quote that needs fewer escapes, the double
quote on a tie. Line ends of every kind, control characters and the backslash are escaped; all other
characters stand for themselves.
-/

namespace Minifier.Text

/-- The quote for a string: the single one only if the text holds fewer single quotes than double
ones. -/
def quoteFor (text : List Char) : Char :=
  if text.count '\'' < text.count '"' then '\'' else '"'

/-- A character as it is written inside a literal with the given quote. A null character is `\0`
unless a digit follows, with which it would be read as an octal escape. -/
def escapeChar (quote : Char) (next : Option Char) (c : Char) : List Char :=
  if c = '\\' then ['\\', '\\']
  else if c = '\n' then ['\\', 'n']
  else if c = '\r' then ['\\', 'r']
  else if c = '\t' then ['\\', 't']
  else if c = '\x08' then ['\\', 'b']
  else if c = '\x0b' then ['\\', 'v']
  else if c = '\x0c' then ['\\', 'f']
  else if c = '\x00' then
    if next.any Char.isDigit then ['\\', 'x', '0', '0'] else ['\\', '0']
  else if c = '\u2028' then ['\\', 'u', '2', '0', '2', '8']
  else if c = '\u2029' then ['\\', 'u', '2', '0', '2', '9']
  else if c = quote then ['\\', c]
  else if c.toNat < 0x20 then '\\' :: 'x' :: hexDigits 2 c.toNat
  else [c]

/-- The inside of a literal with the given quote. -/
def escape (quote : Char) : List Char → List Char
  | [] => []
  | c :: rest => escapeChar quote rest.head? c ++ escape quote rest

/-- The string literal that denotes a text, quotes included. -/
def quoted (text : String) : String :=
  let chars := text.toList
  let quote := quoteFor chars
  String.ofList (quote :: escape quote chars ++ [quote])

end Minifier.Text
