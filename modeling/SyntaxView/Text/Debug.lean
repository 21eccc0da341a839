import SyntaxView.Text.Hidden

/-!
# Texts in log messages

Words are shown between double quotes, with escapes for what would not show: the common control characters by letter,
and every other character that is hidden by its number (`debug`). In a message as a whole, control characters that could
steer a terminal are shown by their numbers (`harmless`).
-/

namespace SyntaxView.Text

def debugChar (c : Char) : List Char :=
  if c = '"' then ['\\', '"']
  else if c = '\\' then ['\\', '\\']
  else if c = '\n' then ['\\', 'n']
  else if c = '\r' then ['\\', 'r']
  else if c = '\t' then ['\\', 't']
  else if c.toNat = 0 then ['\\', '0']
  else if isHidden c then '\\' :: 'u' :: '\x7b' :: Nat.toDigits 16 c.toNat ++ ['\x7d']
  else [c]

def debug (s : String) : String := String.ofList ('"' :: s.toList.flatMap debugChar ++ ['"'])

/-- Words in brackets with commas between them. -/
def debugList (l : List String) : String := "[" ++ ", ".intercalate (l.map debug) ++ "]"

/-! ## Whole messages -/

/-- A control character of seven bits that steers terminals: bell, backspace, form feed, escape or delete. -/
def isTerminalControl (c : Char) : Bool := [0x07, 0x08, 0x0C, 0x1B, 0x7F].contains c.toNat

/-- A control character beyond seven bits. -/
def isHighControl (c : Char) : Bool := 0x80 ≤ c.toNat && c.toNat ≤ 0x9F

def harmlessChar (c : Char) : List Char :=
  if isTerminalControl c then '\\' :: 'x' :: (if c.toNat < 0x10 then ['0'] else []) ++ Nat.toDigits 16 c.toNat
  else if isHighControl c then '\\' :: 'u' :: '\x7b' :: Nat.toDigits 16 c.toNat ++ ['\x7d']
  else [c]

/-- A message that cannot steer a terminal. -/
def harmless (s : String) : String := String.ofList (s.toList.flatMap harmlessChar)

end SyntaxView.Text
