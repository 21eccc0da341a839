/-!
# Text of bytes

Bytes are read as UTF-8, and what is not UTF-8 is replaced: each longest run of bytes that could begin a character but
does not go on as one, and each byte that cannot begin one, becomes one replacement character.
-/

namespace SyntaxView.Text

/-- The character put for bytes that are not UTF-8. -/
def replacement : Char := Char.ofNat 0xFFFD

/-- Where in a character the reader stands. -/
inductive Utf8State where
  | between
  /-- Inside a character: `left` bytes are missing, the next of which lies between `least` and `most`. -/
  | inside (left least most value : Nat)

/-- The first byte of a character. -/
def beginChar (b : Nat) : Utf8State × List Char :=
  if b < 0x80 then (.between, [Char.ofNat b])
  else if b < 0xC2 then (.between, [replacement])
  else if b < 0xE0 then (.inside 1 0x80 0xBF (b - 0xC0), [])
  else if b = 0xE0 then (.inside 2 0xA0 0xBF 0, [])
  else if b = 0xED then (.inside 2 0x80 0x9F 0xD, [])
  else if b < 0xF0 then (.inside 2 0x80 0xBF (b - 0xE0), [])
  else if b = 0xF0 then (.inside 3 0x90 0xBF 0, [])
  else if b < 0xF4 then (.inside 3 0x80 0xBF (b - 0xF0), [])
  else if b = 0xF4 then (.inside 3 0x80 0x8F 4, [])
  else (.between, [replacement])

/-- One byte: the state after it and the characters it finishes. -/
def utf8Step : Utf8State → Nat → Utf8State × List Char
  | .between, b => beginChar b
  | .inside left least most value, b =>
    if least ≤ b ∧ b ≤ most then
      let value := value * 64 + (b - 0x80)
      if left ≤ 1 then (.between, [Char.ofNat value]) else (.inside (left - 1) 0x80 0xBF value, [])
    else ((beginChar b).1, replacement :: (beginChar b).2)

def utf8From : Utf8State → List UInt8 → List Char
  | .between, [] => []
  | .inside .., [] => [replacement]
  | s, b :: bs => (utf8Step s b.toNat).2 ++ utf8From (utf8Step s b.toNat).1 bs

/-- The text of bytes. -/
def ofBytes (bs : List UInt8) : String := String.ofList (utf8From .between bs)

end SyntaxView.Text
