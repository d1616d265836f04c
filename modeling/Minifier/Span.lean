/-!
# Source spans

A span is a half-open range of byte offsets into a UTF-8 source text. Every syntax node carries
spans, and simplifying a tree only ever copies or joins spans it was given, so a finding can always
be traced back to the source. `Span.position` turns the start of a span into a line and a column.
-/

namespace Minifier

/-- A half-open range of UTF-8 byte offsets into a source text. -/
structure Span where
  start : UInt64
  stop : UInt64
deriving DecidableEq, Repr

/-- The span of a node that was given none. -/
instance : Inhabited Span := ⟨⟨0, 0⟩⟩

/-- A place in a source text, both parts counted from one. -/
structure Position where
  line : Nat
  column : Nat
deriving DecidableEq, Repr

/-- The place right after a character that stands at the given place. -/
def Position.advance (p : Position) (c : Char) : Position :=
  if c = '\n' then ⟨p.line + 1, 1⟩ else ⟨p.line, p.column + 1⟩

namespace Span

/-- Whether no byte lies in the span. -/
def isEmpty (s : Span) : Bool :=
  decide (s.stop ≤ s.start)

/-- The number of bytes in the span, zero when its ends are crossed. -/
def size (s : Span) : UInt64 :=
  if s.stop ≤ s.start then 0 else s.stop - s.start

/-- The span from the earlier start to the later stop. -/
def cover (a b : Span) : Span :=
  ⟨min a.start b.start, max a.stop b.stop⟩

/-- The span that covers all of a list, or the default span for an empty list. -/
def coverAll : List Span → Span
  | [] => default
  | s :: rest => rest.foldl cover s

/-- Walks over the characters that begin before byte `limit`, the first of which stands at byte
`offset` and at place `p`. -/
def walk (limit : Nat) : Nat → Position → List Char → Position
  | _, p, [] => p
  | offset, p, c :: rest =>
    if offset < limit then walk limit (offset + c.utf8Size) (p.advance c) rest else p

/-- Line and column of the start of the span. Columns count characters, and a start past the end
of the text is the place right after its last character. -/
def position (s : Span) (source : String) : Position :=
  walk s.start.toNat 0 ⟨1, 1⟩ source.toList

end Span

end Minifier
