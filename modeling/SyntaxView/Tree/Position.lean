/-!
# Positions in source files

A position is a file name, a line and a column as the parser library counts them. A span runs from a position to the one
after its last character.
-/

namespace SyntaxView

structure Position where
  fileName : String
  line : UInt32
  column : UInt32
  deriving DecidableEq, Repr

namespace Position

/-- Line and column, as in `3:10`. -/
def place (p : Position) : String := s!"{p.line.toNat}:{p.column.toNat}"

def describe (p : Position) : String := p.fileName ++ ":" ++ p.place

end Position

structure Span where
  start : Position
  stop : Position
  deriving DecidableEq, Repr

/-- The two ends; a file that both lie in is named once. -/
def Span.describe (s : Span) : String :=
  if s.start.fileName = s.stop.fileName then s.start.describe ++ "-" ++ s.stop.place
  else s.start.describe ++ "-" ++ s.stop.describe

end SyntaxView
