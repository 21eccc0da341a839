import SyntaxView.Decimal
import SyntaxView.Json.Value

/-!
# Reading JSON text

The text is read as a stream, so the first problem in reading order is the one reported. `Fault` tells three of them
apart: the text is not JSON, it is cut short, or a value does not have the shape that the reader of a typed value
expects there (no untyped reader reports that).

A value is read under one of two rules. `strict` reads values that are kept: escapes of surrogates come in pairs, and
a number lies in the range of double precision (`Decimal.inProductRange`). `lenient` reads values that are skipped and
asks for neither; there a number that breaks off is not JSON even at the end of the text.

The readers take the text after what they have already seen and return what is left of it. Nesting is bounded by a
fuel argument, which `value` takes as the length of the text: a nested value starts after at least one more character.
-/

namespace SyntaxView

namespace Json

/-- What is wrong with a text. -/
inductive Fault where
  /-- The text is not JSON. -/
  | grammar
  /-- A value of another shape stands where a certain one is expected. -/
  | shape
  /-- The text ends too early. -/
  | ended
  deriving DecidableEq, Repr

/-- How a value is read: to be kept, or to be skipped. -/
inductive Rule where
  | strict
  | lenient
  deriving DecidableEq, Repr

def isSpace (c : Char) : Bool := c == ' ' || c == '\n' || c == '\t' || c == '\r'

def skipSpace (cs : List Char) : List Char := cs.dropWhile isSpace

/-- Read the letters `expected`. -/
def keyword : List Char → List Char → Except Fault (List Char)
  | [], cs => .ok cs
  | _ :: _, [] => .error .ended
  | e :: es, c :: cs => if e = c then keyword es cs else .error .grammar

/-! ## Strings -/

def hexDigit? (c : Char) : Option Nat :=
  if '0' ≤ c ∧ c ≤ '9' then some (c.toNat - '0'.toNat)
  else if 'a' ≤ c ∧ c ≤ 'f' then some (c.toNat - 'a'.toNat + 10)
  else if 'A' ≤ c ∧ c ≤ 'F' then some (c.toNat - 'A'.toNat + 10)
  else none

/-- The character that a letter after a backslash stands for. -/
def simpleEscape? (c : Char) : Option Char :=
  if c = '"' then some '"'
  else if c = '\\' then some '\\'
  else if c = '/' then some '/'
  else if c = 'b' then some (Char.ofNat 8)
  else if c = 'f' then some (Char.ofNat 12)
  else if c = 'n' then some '\n'
  else if c = 'r' then some '\r'
  else if c = 't' then some '\t'
  else none

def isHigh (n : Nat) : Bool := 0xD800 ≤ n && n ≤ 0xDBFF

def isLow (n : Nat) : Bool := 0xDC00 ≤ n && n ≤ 0xDFFF

/-- The character of a pair of surrogates. -/
def pairChar (high low : Nat) : Char := Char.ofNat ((high - 0xD800) * 0x400 + (low - 0xDC00) + 0x10000)

/-- Where in a string the reader stands. -/
inductive StringState where
  | plain
  /-- After a backslash. -/
  | escape
  /-- After `count` of four hexadecimal digits with value `value`; `high` is the first half of a pair. -/
  | hex (high : Option Nat) (count value : Nat)
  /-- After the first half of a pair, before its backslash. -/
  | half (high : Nat)
  /-- After the first half of a pair and a backslash. -/
  | halfEscape (high : Nat)

/-- The number of bytes of a text. -/
def byteCount (cs : List Char) : Nat := cs.foldr (fun c n => c.utf8Size + n) 0

/-- What four hexadecimal digits lead to: the state after them and the character they add, if they are complete. -/
def afterHex (rule : Rule) (high : Option Nat) (n : Nat) : Except Fault (StringState × Option Char) :=
  match rule, high with
  | .lenient, _ => .ok (.plain, none)
  | .strict, none =>
    if isLow n then .error .grammar
    else if isHigh n then .ok (.half n, none)
    else .ok (.plain, some (Char.ofNat n))
  | .strict, some h => if isLow n then .ok (.plain, some (pairChar h n)) else .error .grammar

/-- Read a string after its opening quote; `acc` holds the characters so far, backwards. -/
def stringFrom (rule : Rule) : StringState → List Char → List Char → Except Fault (String × List Char)
  | _, _, [] => .error .ended
  | .plain, acc, c :: cs =>
    if c = '"' then .ok (String.ofList acc.reverse, cs)
    else if c = '\\' then stringFrom rule .escape acc cs
    else if c.toNat < 0x20 then .error .grammar
    else stringFrom rule .plain (c :: acc) cs
  | .escape, acc, c :: cs =>
    match simpleEscape? c with
    | some e => stringFrom rule .plain (e :: acc) cs
    | none => if c = 'u' then stringFrom rule (.hex none 0 0) acc cs else .error .grammar
  | .hex high count value, acc, c :: cs =>
    match hexDigit? c with
    -- Four bytes are asked for before any of them is looked at.
    | none => .error (if count + byteCount (c :: cs) < 4 then .ended else .grammar)
    | some d =>
      if count < 3 then stringFrom rule (.hex high (count + 1) (value * 16 + d)) acc cs
      else
        match afterHex rule high (value * 16 + d) with
        | .error e => .error e
        | .ok (state, added) => stringFrom rule state (added.toList ++ acc) cs
  | .half high, acc, c :: cs => if c = '\\' then stringFrom rule (.halfEscape high) acc cs else .error .grammar
  | .halfEscape high, acc, c :: cs => if c = 'u' then stringFrom rule (.hex (some high) 0 0) acc cs else .error .grammar

def string (rule : Rule) (cs : List Char) : Except Fault (String × List Char) := stringFrom rule .plain [] cs

/-! ## Numbers -/

/-- The fault of a number that breaks off before `cs`. -/
def brokenNumber : Rule → List Char → Fault
  | .strict, [] => .ended
  | _, _ => .grammar

/-- Read one or more digits. -/
def digits (rule : Rule) (cs : List Char) : Except Fault (List Char × List Char) :=
  match cs.takeWhile isDigit with
  | [] => .error (brokenNumber rule cs)
  | ds => .ok (ds, cs.dropWhile isDigit)

/-- Digits without a superfluous leading zero. -/
def wholePart (rule : Rule) (cs : List Char) : Except Fault (List Char × List Char) :=
  match digits rule cs with
  | .error e => .error e
  | .ok ('0' :: _ :: _, _) => .error .grammar
  | .ok r => .ok r

def fractionPart (rule : Rule) : List Char → Except Fault (Option (List Char) × List Char)
  | '.' :: cs => (digits rule cs).map fun r => (some r.1, r.2)
  | cs => .ok (none, cs)

def exponentPart (rule : Rule) : List Char → Except Fault (Option (Bool × List Char) × List Char)
  | c :: cs =>
    if c = 'e' ∨ c = 'E' then
      match cs with
      | '+' :: cs => (digits rule cs).map fun r => (some (false, r.1), r.2)
      | '-' :: cs => (digits rule cs).map fun r => (some (true, r.1), r.2)
      | cs => (digits rule cs).map fun r => (some (false, r.1), r.2)
    else .ok (none, c :: cs)
  | [] => .ok (none, [])

/-- Read a number. -/
def number (rule : Rule) (cs : List Char) : Except Fault (Decimal × List Char) := do
  let (negative, cs) := match cs with
    | '-' :: rest => (true, rest)
    | cs => (false, cs)
  let (whole, cs) ← wholePart rule cs
  let (fraction, cs) ← fractionPart rule cs
  let (exponent, cs) ← exponentPart rule cs
  let literal : Decimal := ⟨negative, whole, fraction, exponent⟩
  if rule = .strict ∧ !literal.inProductRange then .error .grammar else .ok (literal, cs)

/-- An integer literal in the range of 64 bits is an integer; a negative zero is not. -/
def integer? (l : Decimal) : Option Int :=
  let n := digitsValue l.whole
  if l.fraction.isSome || l.exponent.isSome then none
  else if l.negative then (if n = 0 ∨ n > 0x8000000000000000 then none else some (-n))
  else if n < 0x10000000000000000 then some n
  else none

/-- The text of a literal, with a plain exponent. -/
def decimalText (l : Decimal) : String :=
  let fraction := (l.fraction.map ('.' :: ·)).getD []
  let exponent := (l.exponent.map fun e => 'e' :: (if e.1 then ['-'] else []) ++ e.2).getD []
  String.ofList ((if l.negative then ['-'] else []) ++ l.whole ++ fraction ++ exponent)

def ofDecimal (l : Decimal) : Json :=
  match integer? l with
  | some n => .int n
  | none => .decimal (decimalText l)

/-! ## Values -/

/-- Set a field; a later value replaces an earlier one of the same key. -/
def insertField (key : String) (v : Json) : List (String × Json) → List (String × Json)
  | [] => [(key, v)]
  | (k, w) :: rest => if k = key then (k, v) :: rest else (k, w) :: insertField key v rest

/-- Read the colon between a key and its value. -/
def colon (cs : List Char) : Except Fault (List Char) :=
  match skipSpace cs with
  | ':' :: rest => .ok rest
  | [] => .error .ended
  | _ => .error .grammar

mutual
def valueFrom (rule : Rule) : Nat → List Char → Except Fault (Json × List Char)
  | 0, _ => .error .ended
  | fuel + 1, cs =>
    match skipSpace cs with
    | [] => .error .ended
    | c :: rest =>
      if c = 'n' then (keyword "ull".toList rest).map (.null, ·)
      else if c = 't' then (keyword "rue".toList rest).map (.bool true, ·)
      else if c = 'f' then (keyword "alse".toList rest).map (.bool false, ·)
      else if c = '-' ∨ isDigit c then (number rule (c :: rest)).map fun r => (ofDecimal r.1, r.2)
      else if c = '"' then (string rule rest).map fun r => (.str r.1, r.2)
      else if c = '[' then
        match skipSpace rest with
        | [] => .error .ended
        | ']' :: rest => .ok (.arr [], rest)
        | _ => (itemsFrom rule fuel [] rest).map fun r => (.arr r.1, r.2)
      else if c = '\x7b' then
        match skipSpace rest with
        | [] => .error .ended
        | '\x7d' :: rest => .ok (.obj [], rest)
        | _ => (fieldsFrom rule fuel [] rest).map fun r => (.obj r.1, r.2)
      else .error .grammar

/-- Read the items of an array; `acc` holds those before, backwards. -/
def itemsFrom (rule : Rule) : Nat → List Json → List Char → Except Fault (List Json × List Char)
  | 0, _, _ => .error .ended
  | fuel + 1, acc, cs =>
    match valueFrom rule fuel cs with
    | .error e => .error e
    | .ok (v, rest) =>
      match skipSpace rest with
      | ',' :: rest => itemsFrom rule fuel (v :: acc) rest
      | ']' :: rest => .ok ((v :: acc).reverse, rest)
      | [] => .error .ended
      | _ => .error .grammar

/-- Read the fields of an object; `acc` holds those before. -/
def fieldsFrom (rule : Rule) : Nat → List (String × Json) → List Char → Except Fault (List (String × Json) × List Char)
  | 0, _, _ => .error .ended
  | fuel + 1, acc, cs =>
    match skipSpace cs with
    | [] => .error .ended
    | '"' :: rest =>
      match string rule rest with
      | .error e => .error e
      | .ok (key, rest) =>
        match colon rest with
        | .error e => .error e
        | .ok rest =>
          match valueFrom rule fuel rest with
          | .error e => .error e
          | .ok (v, rest) =>
            match skipSpace rest with
            | ',' :: rest => fieldsFrom rule fuel (insertField key v acc) rest
            | '\x7d' :: rest => .ok (insertField key v acc, rest)
            | [] => .error .ended
            | _ => .error .grammar
    | _ => .error .grammar
end

/-- Read one value. -/
def value (rule : Rule) (cs : List Char) : Except Fault (Json × List Char) := valueFrom rule (2 * cs.length + 2) cs

/-- The value of a whole text; only blanks may follow it. -/
def parse (text : String) : Except Fault Json :=
  match value .strict text.toList with
  | .error e => .error e
  | .ok (v, rest) => if (skipSpace rest).isEmpty then .ok v else .error .grammar

end Json

end SyntaxView
