/-!
# Editions of TOML

The format has two editions in use. The second one lets an inline table go over several lines, lets a time leave out its
seconds, and knows two more escapes. An `Edition` records what a reader of it takes, together with its limits. Settings
are loaded by the first edition and checked by the second.
-/

namespace SyntaxView.Toml

structure Edition where
  /-- The least integer. -/
  least : Int
  /-- The greatest integer. -/
  most : Int
  /-- Most brackets that stand within one another, and most keys of one path. -/
  nesting : Nat
  /-- Escapes may be `\e` for the escape character and `\x` with two digits. -/
  shortEscapes : Bool
  /-- Inline tables may hold line ends and comments, and a comma after their last entry. -/
  openTables : Bool
  /-- A time may leave out its seconds. -/
  briefTimes : Bool
  /-- A float may lie below the range of double precision. -/
  lowFloats : Bool
  deriving DecidableEq, Repr

namespace Edition

/-- The first edition, with integers of 64 bits with sign. -/
def first : Edition where
  least := -0x8000000000000000
  most := 0x7fffffffffffffff
  nesting := 79
  shortEscapes := false
  openTables := false
  briefTimes := false
  lowFloats := true

/-- The second edition, with integers of 128 bits, with or without sign. -/
def second : Edition where
  least := -0x80000000000000000000000000000000
  most := 0xffffffffffffffffffffffffffffffff
  nesting := 80
  shortEscapes := true
  openTables := true
  briefTimes := true
  lowFloats := false

/-- The integer can be held. -/
def holds (e : Edition) (n : Int) : Bool := e.least ≤ n && n ≤ e.most

end Edition

end SyntaxView.Toml
