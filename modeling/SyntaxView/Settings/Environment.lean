import SyntaxView.Data
import SyntaxView.Text.Blank
import SyntaxView.Toml.Text

/-!
# Settings out of environment variables

A variable whose name starts with `CV_`, in any case, sets the key that the rest of its name spells in lower case; two
underscores divide the keys of a path. Its value is read by a small grammar: truth values, lists in square brackets,
tables in braces, quoted texts, single characters, numbers, and anything else as a text. A value that the grammar does
not fit as a whole is a text as it stands. Later variables are laid over earlier ones.
-/

namespace SyntaxView.Settings

/-- Variables with their values, in order. -/
abbrev Environment := List (String × String)

namespace Environment

/-! ## Names -/

/-- Put a point for each two underscores, from the left. -/
def pointed : List Char → List Char
  | '_' :: '_' :: rest => '.' :: pointed rest
  | c :: rest => c :: pointed rest
  | [] => []

/-- Cut a text at points. -/
def cutPoints : List Char → List (List Char)
  | [] => [[]]
  | c :: cs =>
    if c = '.' then [] :: cutPoints cs
    else
      match cutPoints cs with
      | [] => [[c]]
      | p :: ps => (c :: p) :: ps

/-- How the names of variables for settings start, in lower case. -/
def mark : List Char := "cv_".toList

/-- The path of keys that a variable sets, if it is for settings. Blanks around the path do not belong to it. -/
def keyPath? (name : String) : Option (List String) :=
  let cs := (Text.trim name.toList).map Char.toLower
  if mark.isPrefixOf cs then
    let path := cutPoints (Text.trim (pointed (cs.drop mark.length)))
    if path.any List.isEmpty then none else some (path.map String.ofList)
  else none

/-! ## Values -/

def isBlank (c : Char) : Bool := c == ' ' || c == '\t' || c == '\n' || c == '\r' || c.toNat == 12

def skipBlanks (cs : List Char) : List Char := cs.dropWhile isBlank

/-- A character that ends a bare value. -/
def isSeparator (c : Char) : Bool := c == ',' || c == '\x7b' || c == '\x7d' || c == '[' || c == ']'

def isKeyChar (c : Char) : Bool := c.isAlphanum || c == '_' || c == '-'

/-- The text is a number with a point, and an exponent if there is one. -/
def isPointNumber (cs : List Char) : Bool :=
  let body :=
    match cs with
    | '+' :: rest => rest
    | '-' :: rest => rest
    | rest => rest
  let whole := body.takeWhile isDigit
  match body.dropWhile isDigit with
  | '.' :: rest =>
    let fraction := rest.takeWhile isDigit
    let exponentOk :=
      match rest.dropWhile isDigit with
      | [] => true
      | c :: rest =>
        let ds :=
          match rest with
          | '+' :: ds => ds
          | '-' :: ds => ds
          | ds => ds
        (c == 'e' || c == 'E') && !ds.isEmpty && ds.all isDigit
    !(whole.isEmpty && fraction.isEmpty) && exponentOk
  | _ => false

/-- The integer of 64 bits that a text spells, with or without a sign. -/
def integer? (cs : List Char) : Option Int :=
  let decimal (ds : List Char) : Option Nat := if !ds.isEmpty && ds.all isDigit then some (digitsValue ds) else none
  match cs with
  | '+' :: ds => (decimal ds).bind fun n => if n < 0x10000000000000000 then some (n : Int) else none
  | '-' :: ds => (decimal ds).bind fun n => if n ≤ 0x8000000000000000 then some (-(n : Int)) else none
  | ds => (decimal ds).bind fun n => if n < 0x10000000000000000 then some (n : Int) else none

/-- The value of a bare text. -/
def bareValue (cs : List Char) : Data :=
  let word := Text.trim cs
  if isPointNumber word then .float
  else
    match integer? word with
    | some n => .int n
    | none => .text (String.ofList word)

/-- Drop the letters of a keyword. -/
def afterWord? (word : String) (cs : List Char) : Option (List Char) :=
  if word.toList.isPrefixOf cs then some (cs.drop word.length) else none

/-- Read `item`s with commas between them up to a closing bracket, at most `n` of them; a comma may stand before it. -/
def readItems {α : Type} (item : List Char → Option (α × List Char)) (close : Char) :
    Nat → List Char → Option (List α × List Char)
  | 0, _ => none
  | n + 1, cs =>
    match cs with
    | [] => none
    | c :: rest =>
      if c = close then some ([], rest)
      else do
        let (a, cs) ← item cs
        match cs with
        | [] => none
        | c :: rest =>
          if c = close then return ([a], rest)
          else if c = ',' then
            let (items, rest) ← readItems item close n rest
            return (a :: items, rest)
          else none

/-- The longest beginning of a text with at most `n` bytes. -/
def firstBytes : Nat → List Char → List Char
  | _, [] => []
  | n, c :: cs => if c.utf8Size ≤ n then c :: firstBytes (n - c.utf8Size) cs else []

/-- A character of a quoted text that is neither an escape nor the end. -/
def isUnescaped (c : Char) : Bool := c != '\\' && c != '"'

/-- Read a quoted text after its opening quote. The first escape stands at a byte whose number is the count of the
characters before it, so what lies beyond that byte before the escape is lost. -/
def quoted? (cs : List Char) : Option (String × List Char) := do
  let (text, rest) ← Toml.quoted .first Toml.basic cs
  let before := cs.takeWhile isUnescaped
  if (cs.dropWhile isUnescaped).head? == some '\\' then
    return (String.ofList (firstBytes before.length before ++ text.toList.drop before.length), rest)
  else return (text, rest)

/-- A key of a table, bare or quoted. -/
def key? (cs : List Char) : Option (String × List Char) :=
  match cs with
  | '"' :: rest => quoted? rest
  | cs =>
    match cs.takeWhile isKeyChar with
    | [] => none
    | key => some (String.ofList key, cs.dropWhile isKeyChar)

/-- Read a key, an equals sign and a value. -/
def readEntry (read : List Char → Option (Data × List Char)) (cs : List Char) : Option ((String × Data) × List Char) := do
  let (key, rest) ← key? (skipBlanks cs)
  match skipBlanks rest with
  | '=' :: rest =>
    let (v, rest) ← read rest
    return ((key, v), rest)
  | _ => none

/-- Read a value nested at most `depth` deep and the blanks around it. -/
def readValue : Nat → List Char → Option (Data × List Char)
  | 0, _ => none
  | depth + 1, cs =>
    let cs := skipBlanks cs
    let result : Option (Data × List Char) :=
      match afterWord? "true" cs, afterWord? "false" cs with
      | some rest, _ => some (.bool true, rest)
      | none, some rest => some (.bool false, rest)
      | none, none =>
        match cs with
        | '\x7b' :: rest =>
          (readItems (readEntry (readValue depth)) '\x7d' (rest.length + 1) rest).map fun r =>
            (.table (r.1.foldl (fun t e => Table.put e.1 e.2 t) []), r.2)
        | '[' :: rest =>
          (readItems (readValue depth) ']' (rest.length + 1) rest).map fun r => (.list r.1, r.2)
        | '"' :: rest => (quoted? rest).map fun r => (.text r.1, r.2)
        | '\'' :: rest =>
          match rest with
          | c :: '\'' :: rest => some (.char c, rest)
          | _ => none
        | cs => some (bareValue (cs.takeWhile (!isSeparator ·)), cs.dropWhile (!isSeparator ·))
    result.map fun r => (r.1, skipBlanks r.2)

/-- The value of a variable. -/
def value (s : String) : Data :=
  match readValue (s.length + 1) s.toList with
  | some (v, []) => v
  | _ => .text s

/-! ## Layers -/

/-- What one variable sets. -/
def layer? (v : String × String) : Option Data := (keyPath? v.1).map fun path => Data.nest path (value v.2)

/-- What all variables set, later ones over earlier ones. -/
def layer (env : Environment) : Data := (env.filterMap layer?).foldl (fun below above => above.laidOver below) (.table [])

end Environment

end SyntaxView.Settings
