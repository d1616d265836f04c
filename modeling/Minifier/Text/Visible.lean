import Minifier.Text.VisibleTable

/-!
# Texts inside messages

A message shows a text in double quotes. Characters that would not show, or that would join the
character before them, are written by their code point.
-/

namespace Minifier.Text

/-- A character as a quoted message shows it. -/
def showChar (c : Char) : List Char :=
  if c = '\x00' then ['\\', '0']
  else if c = '\t' then ['\\', 't']
  else if c = '\r' then ['\\', 'r']
  else if c = '\n' then ['\\', 'n']
  else if c = '\\' then ['\\', '\\']
  else if c = '"' then ['\\', '"']
  else if ' ' ≤ c && c ≤ '~' then [c]
  else if inRanges joiningRanges c || inRanges hiddenRanges c then
    '\\' :: 'u' :: '\x7b' :: Nat.toDigits 16 c.toNat ++ ['\x7d']
  else [c]

/-- A text as a quoted message shows it. -/
def shown (text : String) : String :=
  String.ofList ('"' :: text.toList.flatMap showChar ++ ['"'])

end Minifier.Text
