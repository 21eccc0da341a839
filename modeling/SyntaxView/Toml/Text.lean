import SyntaxView.Json.Reader
import SyntaxView.Toml.Edition

/-!
# Texts, blanks and keys in TOML

The readers take the text after what has been read and return what is left of it, or nothing if the text is not TOML.
A quoted text is of one of four forms: on one line or on several, with escapes or without.
-/

namespace SyntaxView.Toml

/-! ## Blanks, comments and line ends -/

def isSpace (c : Char) : Bool := c == ' ' || c == '\t'

/-- The character may stand in a comment or a text as it is: not a control character, except the tabulator. -/
def isPlain (c : Char) : Bool := c == '\t' || (0x20 ≤ c.toNat && c.toNat != 0x7F)

def skipSpace (cs : List Char) : List Char := cs.dropWhile isSpace

/-- Take the end of a line. -/
def newline? : List Char → Option (List Char)
  | '\n' :: rest => some rest
  | '\r' :: '\n' :: rest => some rest
  | _ => none

/-- Take spaces, a comment and the end of a line or of the text. -/
def lineEnd? (cs : List Char) : Option (List Char) :=
  let rest :=
    match skipSpace cs with
    | '#' :: rest => rest.dropWhile isPlain
    | rest => rest
  if rest.isEmpty then some [] else newline? rest

/-- Take blanks, line ends and comments; `inComment` says that a comment has begun. -/
def skipGap : Bool → List Char → Option (List Char)
  | _, [] => some []
  | _, '\n' :: cs => skipGap false cs
  | _, '\r' :: '\n' :: cs => skipGap false cs
  | true, c :: cs => if isPlain c then skipGap true cs else none
  | false, c :: cs =>
    if isSpace c then skipGap false cs else if c = '#' then skipGap true cs else some (c :: cs)

/-! ## Quoted texts -/

/-- How a text is quoted. -/
structure QuoteForm where
  quote : Char
  /-- A backslash starts an escape. -/
  escapes : Bool
  /-- The text may go over several lines and ends at three quotes. -/
  lines : Bool

def basic : QuoteForm := ⟨'"', true, false⟩
def literal : QuoteForm := ⟨'\'', false, false⟩
def basicLines : QuoteForm := ⟨'"', true, true⟩
def literalLines : QuoteForm := ⟨'\'', false, true⟩

/-- Where in a quoted text the reader stands. -/
inductive QuoteState where
  /-- After `quotes` quotes in a row, which may be the beginning of the end. -/
  | plain (quotes : Nat)
  | escape
  /-- In an escape by number with `left` digits to come. -/
  | hex (left value : Nat)
  /-- After a backslash at the end of a line; `broken` says that the line has ended. -/
  | gap (broken : Bool)

/-- The character that a letter after a backslash stands for. -/
def escaped? (e : Edition) (c : Char) : Option Char :=
  if c = 'b' then some (Char.ofNat 8)
  else if c = 't' then some '\t'
  else if c = 'n' then some '\n'
  else if c = 'f' then some (Char.ofNat 12)
  else if c = 'r' then some '\r'
  else if c = '"' then some '"'
  else if c = '\\' then some '\\'
  else if c = 'e' ∧ e.shortEscapes then some (Char.ofNat 0x1B)
  else none

/-- The number of hexadecimal digits that a letter after a backslash asks for. -/
def escapeDigits? (e : Edition) (c : Char) : Option Nat :=
  if c = 'u' then some 4
  else if c = 'U' then some 8
  else if c = 'x' ∧ e.shortEscapes then some 2
  else none

/-- The character with this number, if there is one. -/
def scalar? (n : Nat) : Option Char := if n < 0xD800 ∨ (0xE000 ≤ n ∧ n < 0x110000) then some (Char.ofNat n) else none

/-- The finished text: the characters so far, backwards, and quotes that belong to it. -/
def closeText (f : QuoteForm) (quotes : Nat) (acc : List Char) : String :=
  String.ofList (List.replicate quotes f.quote ++ acc).reverse

/-- Read a quoted text from the middle; `acc` holds the characters so far, backwards. -/
def quotedFrom (e : Edition) (f : QuoteForm) : QuoteState → List Char → List Char → Option (String × List Char)
  | .plain n, acc, [] => if f.lines && 3 ≤ n then some (closeText f (n - 3) acc, []) else none
  | .escape, _, [] => none
  | .hex _ _, _, [] => none
  | .gap _, _, [] => none
  | .plain n, acc, c :: cs =>
    if c = f.quote then
      if !f.lines then some (closeText f 0 acc, cs)
      -- Two quotes may stand right before the three that end the text.
      else if n = 4 then some (closeText f 2 acc, cs)
      else quotedFrom e f (.plain (n + 1)) acc cs
    else if 3 ≤ n then some (closeText f (n - 3) acc, c :: cs)
    else
      let acc := List.replicate n f.quote ++ acc
      if c = '\\' ∧ f.escapes then quotedFrom e f .escape acc cs
      else if c = '\n' then (if f.lines then quotedFrom e f (.plain 0) ('\n' :: acc) cs else none)
      else if c = '\r' then
        match cs with
        | '\n' :: rest => if f.lines then quotedFrom e f (.plain 0) ('\n' :: acc) rest else none
        | _ => none
      else if isPlain c then quotedFrom e f (.plain 0) (c :: acc) cs
      else none
  | .escape, acc, c :: cs =>
    match escaped? e c, escapeDigits? e c with
    | some d, _ => quotedFrom e f (.plain 0) (d :: acc) cs
    | none, some n => quotedFrom e f (.hex n 0) acc cs
    | none, none =>
      if !f.lines then none
      else if isSpace c then quotedFrom e f (.gap false) acc cs
      else if c = '\n' then quotedFrom e f (.gap true) acc cs
      else if c = '\r' then
        match cs with
        | '\n' :: rest => quotedFrom e f (.gap true) acc rest
        | _ => none
      else none
  | .hex left value, acc, c :: cs =>
    match Json.hexDigit? c with
    | none => none
    | some d =>
      if left ≤ 1 then
        match scalar? (value * 16 + d) with
        | some c => quotedFrom e f (.plain 0) (c :: acc) cs
        | none => none
      else quotedFrom e f (.hex (left - 1) (value * 16 + d)) acc cs
  | .gap broken, acc, c :: cs =>
    if isSpace c then quotedFrom e f (.gap broken) acc cs
    else if c = '\n' then quotedFrom e f (.gap true) acc cs
    else if c = '\r' then
      match cs with
      | '\n' :: rest => quotedFrom e f (.gap true) acc rest
      | _ => none
    else if !broken then none
    -- The text goes on with this character.
    else if c = f.quote then quotedFrom e f (.plain 1) acc cs
    else if c = '\\' then quotedFrom e f .escape acc cs
    else if isPlain c then quotedFrom e f (.plain 0) (c :: acc) cs
    else none

/-- Read a quoted text after its opening quotes. -/
def quoted (e : Edition) (f : QuoteForm) (cs : List Char) : Option (String × List Char) :=
  quotedFrom e f (.plain 0) [] cs

/-- A line end right after the opening quotes of a text over several lines does not belong to it. -/
def quotedLines (e : Edition) (f : QuoteForm) (cs : List Char) : Option (String × List Char) :=
  quoted e f ((newline? cs).getD cs)

/-- Read a text from its opening quote on. -/
def text? (e : Edition) : List Char → Option (String × List Char)
  | '"' :: '"' :: '"' :: rest => quotedLines e basicLines rest
  | '"' :: rest => quoted e basic rest
  | '\'' :: '\'' :: '\'' :: rest => quotedLines e literalLines rest
  | '\'' :: rest => quoted e literal rest
  | _ => none

/-! ## Keys -/

def isBareKey (c : Char) : Bool := c.isAlphanum || c == '_' || c == '-'

/-- One key, bare or quoted on one line. -/
def key? (e : Edition) : List Char → Option (String × List Char)
  | '"' :: rest => quoted e basic rest
  | '\'' :: rest => quoted e literal rest
  | cs =>
    match cs.takeWhile isBareKey with
    | [] => none
    | key => some (String.ofList key, cs.dropWhile isBareKey)

/-- Keys with points between them, at most `n` of them, and the spaces around. -/
def keyPathFrom (e : Edition) : Nat → List Char → Option (List String × List Char)
  | 0, _ => none
  | n + 1, cs => do
    let (key, rest) ← key? e (skipSpace cs)
    match skipSpace rest with
    | '.' :: rest =>
      let (path, rest) ← keyPathFrom e n rest
      return (key :: path, rest)
    | rest => return ([key], rest)

/-- A path of keys. -/
def keyPath? (e : Edition) (cs : List Char) : Option (List String × List Char) := keyPathFrom e e.nesting cs

end SyntaxView.Toml
