import Minifier.Text.IdentifierTable

/-!
# Identifiers

Which texts can be written as a bare name: an identifier that is not a reserved word of any edition
of the language.
-/

namespace Minifier.Text

/-- Words that are reserved in some edition or mode of the language. -/
def reservedWords : List String := [
  "break", "case", "catch", "class", "const", "continue", "debugger", "default", "delete", "do",
  "else", "enum", "export", "extends", "false", "finally", "for", "function", "if", "import", "in",
  "instanceof", "new", "null", "return", "super", "switch", "this", "throw", "true", "try",
  "typeof", "var", "void", "while", "with", "implements", "interface", "let", "package", "private",
  "protected", "public", "static", "yield"]

/-- Whether a text is a reserved word. -/
def isReserved (name : String) : Bool :=
  reservedWords.contains name

/-- Whether a character may begin an identifier. -/
def isIdentStart (c : Char) : Bool :=
  c == '$' || c == '_' || inRanges startRanges c

/-- Whether a character may stand in an identifier. The two joiners may. -/
def isIdentPart (c : Char) : Bool :=
  c == '$' || c == '\u200c' || c == '\u200d' || inRanges startRanges c || inRanges partRanges c

/-- Whether a text has the form of an identifier. -/
def isIdentifier (name : String) : Bool :=
  match name.toList with
  | [] => false
  | c :: rest => isIdentStart c && rest.all isIdentPart

/-- Whether a text can be written as a bare name everywhere. -/
def isPlainName (name : String) : Bool :=
  isIdentifier name && !isReserved name

end Minifier.Text
