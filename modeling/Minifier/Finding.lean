import Minifier.Span

/-!
# Findings

What there is to say about the program: conditions that never change, declarations in
unreachable code, labels nobody refers to. A finding never stops the work.
-/

namespace Minifier

/-- How much a finding matters. -/
inductive Severity
  | error
  | warning
  | note
deriving DecidableEq, Repr

/-- The word that stands for a severity in texts. -/
def Severity.word : Severity → String
  | .error => "error"
  | .warning => "warning"
  | .note => "note"

/-- A remark about the place `primary` of the program, with further notes in the order given. -/
structure Finding where
  code : String
  severity : Severity
  message : String
  primary : Span
  notes : List String := []
deriving DecidableEq, Repr

namespace Finding

/-- A condition has the same truth value on every run. -/
def constantCondition (truth : Bool) (span : Span) : Finding :=
  if truth then ⟨"SQ0001", .warning, "Condition always true", span, []⟩
  else ⟨"SQ0002", .warning, "Condition always false", span, []⟩

/-- A declaration that can never be reached stays in force; `stripped` tells whether it lost
initial values. -/
def unreachableDeclaration (stripped : Bool) (span : Span) : Finding :=
  ⟨"SQ0003", .warning, "Declarations in unreachable code!", span,
    if stripped then ["initializers are never evaluated and have been dropped"] else []⟩

/-- A label that no jump refers to is gone. -/
def labelRemoved (name : String) (span : Span) : Finding :=
  ⟨"SQ0004", .note, s!"Label `{name}` removed", span, []⟩

/-- Where a finding points: line and column if the source text is known, byte offsets if not. -/
def location (f : Finding) : Option String → String
  | some source =>
    let p := f.primary.position source
    s!"[{p.line},{p.column}]"
  | none => s!"[{f.primary.start}..{f.primary.stop}]"

/-- One line for the finding itself and one more for each note. -/
def render (f : Finding) (source : Option String) : String :=
  let head := s!"{f.severity.word}[{f.code}]: {f.message} {f.location source}"
  f.notes.foldl (fun text note => text ++ "\n  = note: " ++ note) head

end Finding

end Minifier
