/-!
# Paths

A path is taken apart at its slashes. All parts but the last lead through folders. The last part
names the file, unless slashes follow it: then it names a folder too.
-/

namespace Minifier.Command

/-- A path in parts. The root and the empty path have no last part. -/
structure Path where
  isAbsolute : Bool
  parents : List String
  last : Option String
  hasSlash : Bool
deriving DecidableEq, Repr

namespace Path

/-- The most bytes that a path may have. -/
def sizeLimit : Nat := 4095

/-- The most bytes that a part of a path may have. -/
def partLimit : Nat := 255

/-- The names between the slashes of a text. -/
def names (text : String) : List String :=
  (text.splitOn "/").filter (· != "")

/-- The path that a text stands for. -/
def ofText (text : String) : Path :=
  { isAbsolute := text.toList.head? == some '/'
    parents := (names text).dropLast
    last := (names text).getLast?
    hasSlash := text.toList.getLast? == some '/' }

end Path

/-- A place in the tree of all folders and files: the names that lead to it from the root. -/
abbrev Place := List String

/-- The place that a part of a path leads to. The root is its own parent. -/
def Place.go (here : Place) (name : String) : Place :=
  if name = "." then here
  else if name = ".." then here.dropLast
  else here ++ [name]

end Minifier.Command
