/-!
# JSON values and their text

A number is an integer or a decimal literal kept as written: no decimal is ever computed with. An object is a list of
fields in the order in which they are written. `compact` is the text without blanks, `pretty` indents by two spaces.
Strings escape the quote, the backslash and the control characters below space, the common ones by letter.
-/

namespace SyntaxView

inductive Json where
  | null
  | bool (value : Bool)
  | int (value : Int)
  /-- A number with a fraction or an exponent, or beyond the range of integers, as written. -/
  | decimal (literal : String)
  | str (value : String)
  | arr (items : List Json)
  | obj (fields : List (String × Json))
  deriving Inhabited

namespace Json

/-! ## Building and looking into values -/

/-- A field that is left out when there is no value for it. -/
def optional (key : String) : Option Json → List (String × Json)
  | some v => [(key, v)]
  | none => []

def ofNat (n : Nat) : Json := .int n

/-- The text, or `null`. -/
def ofText? : Option String → Json
  | some s => .str s
  | none => .null

def texts (l : List String) : Json := .arr (l.map .str)

/-- The value of a field; the fields of an object read from text have different keys. -/
def field? (key : String) : Json → Option Json
  | .obj fields => fields.lookup key
  | _ => none

/-! ## Escaping -/

/-- Four hexadecimal digits in lower case. -/
def hex4 (n : Nat) : List Char :=
  [n / 4096 % 16, n / 256 % 16, n / 16 % 16, n % 16].map Nat.digitChar

def escapeChar (c : Char) : List Char :=
  if c = '"' then ['\\', '"']
  else if c = '\\' then ['\\', '\\']
  else if c.toNat = 8 then ['\\', 'b']
  else if c.toNat = 12 then ['\\', 'f']
  else if c = '\n' then ['\\', 'n']
  else if c = '\r' then ['\\', 'r']
  else if c = '\t' then ['\\', 't']
  else if c.toNat < 0x20 then '\\' :: 'u' :: hex4 c.toNat
  else [c]

def quote (s : String) : List Char := '"' :: s.toList.flatMap escapeChar ++ ['"']

/-- Decimal digits, with a sign for a negative number. -/
def intText : Int → List Char
  | .ofNat n => Nat.toDigits 10 n
  | .negSucc n => '-' :: Nat.toDigits 10 (n + 1)

/-! ## Text

The printers take the number of blanks by which a level is indented, none if all goes on one line.
-/

/-- What stands before an item at depth `d`, and before the bracket that ends items a level deeper. -/
def gap : Option Nat → Nat → List Char
  | none, _ => []
  | some width, d => '\n' :: List.replicate (width * d) ' '

/-- What stands between a key and its value. -/
def colonText : Option Nat → List Char
  | none => [':']
  | some _ => [':', ' ']

mutual
def chars (indent : Option Nat) (d : Nat) : Json → List Char
  | .null => "null".toList
  | .bool true => "true".toList
  | .bool false => "false".toList
  | .int n => intText n
  | .decimal l => l.toList
  | .str s => quote s
  | .arr [] => ['[', ']']
  | .arr (v :: rest) => '[' :: itemChars indent (d + 1) (v :: rest) ++ gap indent d ++ [']']
  | .obj [] => ['\x7b', '\x7d']
  | .obj (f :: rest) => '\x7b' :: fieldChars indent (d + 1) (f :: rest) ++ gap indent d ++ ['\x7d']
termination_by structural v => v

def itemChars (indent : Option Nat) (d : Nat) : List Json → List Char
  | [] => []
  | [v] => gap indent d ++ chars indent d v
  | v :: rest => gap indent d ++ chars indent d v ++ ',' :: itemChars indent d rest
termination_by structural l => l

def fieldChars (indent : Option Nat) (d : Nat) : List (String × Json) → List Char
  | [] => []
  | [(k, v)] => gap indent d ++ quote k ++ colonText indent ++ chars indent d v
  | (k, v) :: rest => gap indent d ++ quote k ++ colonText indent ++ chars indent d v ++ ',' :: fieldChars indent d rest
termination_by structural l => l
end

/-- The text on one line, without blanks. -/
def compact (v : Json) : String := String.ofList (chars none 0 v)

/-- The text with a line for each item and each field. -/
def pretty (v : Json) : String := String.ofList (chars (some 2) 0 v)

end Json

end SyntaxView
