import Minifier.Finding
import Minifier.Syntax.Encode

/-!
# Findings as JSON
-/

namespace Minifier

/-- A finding with all its fields. -/
def Finding.toJson (f : Finding) : Json :=
  .obj [("code", .str f.code), ("severity", .str f.severity.word), ("message", .str f.message),
    ("primary", f.primary.toJson), ("notes", .arr (f.notes.map .str))]

end Minifier
