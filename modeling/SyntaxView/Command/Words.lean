import SyntaxView.Text.Blank

/-!
# Words of a command line

A command line is cut into words the way a shell does without expansions. Blanks separate words. A word is a run of
bare characters, of `\c` (the character `c`), of `'…'` (taken as it stands) and of `"…"`, in which a backslash quotes
only `"`, `\`, `$` and the backquote and otherwise stands for itself. Quotes may be empty, so `''` is a word.

The scan is one pass over the characters. Its state is a `Mode` and the word read so far, backwards; no word has begun
when that is `none`. A line that ends inside quotes has no words (`split` gives `none`); a backslash that ends a line
outside quotes adds nothing.
-/

namespace SyntaxView.Command

/-- Where in a word the scan stands. -/
inductive Mode where
  | bare
  /-- After a backslash outside quotes. -/
  | escaped
  | single
  | double
  /-- After a backslash inside double quotes. -/
  | doubleEscaped
  deriving DecidableEq, Repr

/-- The characters that a backslash quotes inside double quotes. -/
def quotable (c : Char) : Bool := c == '"' || c == '\\' || c == '$' || c == '\x60'

/-- Put `c` at the end of the word read so far. -/
def extend (word : Option (List Char)) (c : Char) : Option (List Char) := some (c :: word.getD [])

/-- The finished word, if one has begun. -/
def finished (word : Option (List Char)) : List String := (word.map fun w => String.ofList w.reverse).toList

/-- Read the words of a line from the middle: `word` is the word read so far, backwards. -/
def scan : Mode → Option (List Char) → List Char → Option (List String)
  | .bare, word, [] => some (finished word)
  | .escaped, word, [] => some (finished word)
  | .single, _, [] => none
  | .double, _, [] => none
  | .doubleEscaped, _, [] => none
  | .bare, word, c :: cs =>
    if c = '\'' then scan .single (some (word.getD [])) cs
    else if c = '"' then scan .double (some (word.getD [])) cs
    else if c = '\\' then scan .escaped word cs
    else if Text.isBlank c then (scan .bare none cs).map (finished word ++ ·)
    else scan .bare (extend word c) cs
  | .escaped, word, c :: cs => scan .bare (extend word c) cs
  | .single, word, c :: cs => if c = '\'' then scan .bare word cs else scan .single (extend word c) cs
  | .double, word, c :: cs =>
    if c = '"' then scan .bare word cs
    else if c = '\\' then scan .doubleEscaped word cs
    else scan .double (extend word c) cs
  | .doubleEscaped, word, c :: cs =>
    if quotable c then scan .double (extend word c) cs else scan .double (extend (extend word '\\') c) cs

/-- The words of a command line, or `none` when a quote is left open. -/
def split (line : String) : Option (List String) := scan .bare none line.toList

end SyntaxView.Command
