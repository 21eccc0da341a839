import SyntaxView.Toml.Text

/-!
# Writing TOML

A text is written in the first of these forms that fits: on one line with escapes if it needs none but for tabulators,
on one line as it stands, over several lines with escapes if it has no backslash, over several lines as it stands, and
else with all escapes that it needs. Text over several lines starts on a new line if it has more than one.
-/

namespace SyntaxView.Toml

/-- A control character other than the tabulator and the line end. -/
def isControl (c : Char) : Bool := (c.toNat < 0x20 && c != '\t' && c != '\n') || c.toNat == 0x7F

/-- The text has `run` or more of the character in a row, `seen` of them before it. -/
def hasRun (q : Char) (run : Nat) : Nat → List Char → Bool
  | seen, [] => run ≤ seen
  | seen, c :: cs => run ≤ seen || (if c = q then hasRun q run (seen + 1) cs else hasRun q run 0 cs)

/-- The first form that fits. -/
def formOf (cs : List Char) : QuoteForm :=
  let control := cs.any isControl
  let broken := cs.contains '\n'
  if !cs.contains '"' && !cs.contains '\\' && !broken && !control then basic
  else if !cs.contains '\'' && !broken && !control then literal
  else if !cs.contains '\\' && !control && !hasRun '"' 3 0 cs then basicLines
  else if !control && !hasRun '\'' 3 0 cs then literalLines
  else if broken then basicLines
  else basic

/-- Four hexadecimal digits in upper case. -/
def upperHex4 (n : Nat) : List Char := (Json.hex4 n).map Char.toUpper

/-- Write a character of a text with escapes, apart from the quote. -/
def escapeChar (f : QuoteForm) (c : Char) : List Char :=
  if c.toNat = 8 then ['\\', 'b']
  else if c = '\t' then ['\\', 't']
  else if c.toNat = 12 then ['\\', 'f']
  else if c = '\r' then ['\\', 'r']
  else if c = '\\' then ['\\', '\\']
  else if c = '\n' then (if f.lines then ['\n'] else ['\\', 'n'])
  else if isControl c then '\\' :: 'u' :: upperHex4 c.toNat
  else [c]

/-- Write a text with escapes after `quotes` quotes in a row; over several lines, two of them may stand together. -/
def escapeFrom (f : QuoteForm) : Nat → List Char → List Char
  | _, [] => []
  | quotes, c :: cs =>
    if c = '"' then
      if f.lines ∧ quotes < 2 then '"' :: escapeFrom f (quotes + 1) cs else '\\' :: '"' :: escapeFrom f 0 cs
    else escapeChar f c ++ escapeFrom f 0 cs

def writeChars (cs : List Char) : List Char :=
  let f := formOf cs
  let quotes := List.replicate (if f.lines then 3 else 1) f.quote
  let start := if f.lines ∧ cs.contains '\n' then ['\n'] else []
  quotes ++ start ++ (if f.escapes then escapeFrom f 0 cs else cs) ++ quotes

/-- The text of a string value. -/
def writeText (s : String) : String := String.ofList (writeChars s.toList)

/-- Texts of values as an array: on one line if there are fewer than two, else each on a line of its own. -/
def writeArray : List String → String
  | [] => "[]"
  | [v] => "[" ++ v ++ "]"
  | vs => "[\n" ++ String.join (vs.map fun v => "    " ++ v ++ ",\n") ++ "]"

/-- One line of a table. -/
def writeEntry (key value : String) : String := key ++ " = " ++ value ++ "\n"

def writeBool (b : Bool) : String := if b then "true" else "false"

end SyntaxView.Toml
