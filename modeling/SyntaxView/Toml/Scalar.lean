import SyntaxView.Data
import SyntaxView.Toml.Text

/-!
# Numbers, truth values and dates in TOML

A value without quotes or brackets is a word that ends at a blank, a comma, a closing bracket or a comment. The word as
a whole is an integer, a float, a date or time, or `true` or `false`. Underscores may stand between two digits. A date
is kept as a table with one reserved key, which is how typed readers see it.
-/

namespace SyntaxView.Toml

/-- Digits with single underscores between them, without these. -/
def ungroup (isDig : Char → Bool) : List Char → Option (List Char)
  | [] => none
  | [c] => if isDig c then some [c] else none
  | c :: '_' :: rest => if isDig c then (ungroup isDig rest).map (c :: ·) else none
  | c :: rest => if isDig c then (ungroup isDig rest).map (c :: ·) else none

/-- A sign and what follows it. -/
def signed : List Char → Bool × List Char
  | '+' :: rest => (false, rest)
  | '-' :: rest => (true, rest)
  | rest => (false, rest)

/-- Decimal digits without a superfluous leading zero. -/
def wholeDigits? (cs : List Char) : Option (List Char) :=
  match ungroup isDigit cs with
  | some ('0' :: _ :: _) => none
  | r => r

def digitValue (c : Char) : Nat := (Json.hexDigit? c).getD 0

/-- The value of grouped digits to a base. -/
def based? (base : Nat) (cs : List Char) : Option Int :=
  (ungroup (fun c => match Json.hexDigit? c with | some d => d < base | none => false) cs).map fun ds =>
    (ds.foldl (fun n d => n * base + digitValue d) 0 : Nat)

def integer? : List Char → Option Int
  | '0' :: 'x' :: rest => based? 16 rest
  | '0' :: 'o' :: rest => based? 8 rest
  | '0' :: 'b' :: rest => based? 2 rest
  | cs =>
    let (negative, body) := signed cs
    (wholeDigits? body).map fun ds => if negative then -(digitsValue ds : Int) else digitsValue ds

def isExponentMark (c : Char) : Bool := c == 'e' || c == 'E'

/-- The parts of a float: whole part, then a fraction or an exponent or both. -/
def decimal? (cs : List Char) : Option Decimal := do
  let (negative, body) := signed cs
  let mantissa := body.takeWhile (!isExponentMark ·)
  let whole ← wholeDigits? (mantissa.takeWhile (· != '.'))
  let fraction ←
    match mantissa.dropWhile (· != '.') with
    | [] => some none
    | _ :: ds => (ungroup isDigit ds).map some
  let exponent ←
    match body.dropWhile (!isExponentMark ·) with
    | [] => some none
    | _ :: rest => (ungroup isDigit (signed rest).2).map fun ds => some ((signed rest).1, ds)
  if fraction.isNone && exponent.isNone then none else some ⟨negative, whole, fraction, exponent⟩

/-- The word is a float; one beyond the range of double precision is none, unless it may lie below. -/
def isFloat (e : Edition) (cs : List Char) : Bool :=
  let special := String.ofList (signed cs).2
  if special = "inf" ∨ special = "nan" then true
  else
    match decimal? cs with
    | some l => (l.negative && e.lowFloats) || l.inRange
    | none => false

/-! ## Dates and times -/

/-- Take two digits with a value in the range. -/
def twoDigits? (least most : Nat) : List Char → Option (Nat × List Char)
  | a :: b :: rest =>
    let n := digitsValue [a, b]
    if isDigit a ∧ isDigit b ∧ least ≤ n ∧ n ≤ most then some (n, rest) else none
  | _ => none

def isLeapYear (y : Nat) : Bool := y % 4 == 0 && (y % 100 != 0 || y % 400 == 0)

def daysIn (year month : Nat) : Nat :=
  if month = 2 then (if isLeapYear year then 29 else 28)
  else if month = 4 ∨ month = 6 ∨ month = 9 ∨ month = 11 then 30
  else 31

/-- Take `year-month-day`. -/
def date? : List Char → Option (List Char)
  | a :: b :: c :: d :: '-' :: rest => do
    if [a, b, c, d].any (fun x => !isDigit x) then none
    else
      let (month, rest) ← twoDigits? 1 12 rest
      match rest with
      | '-' :: rest =>
        let (_, rest) ← twoDigits? 1 (daysIn (digitsValue [a, b, c, d]) month) rest
        return rest
      | _ => none
  | _ => none

/-- Take `hour:minute:second`, with a fraction of the second if there is one. -/
def time? (e : Edition) (cs : List Char) : Option (List Char) := do
  let (_, rest) ← twoDigits? 0 23 cs
  match rest with
  | ':' :: rest =>
    let (_, rest) ← twoDigits? 0 59 rest
    match rest with
    | ':' :: rest =>
      let (_, rest) ← twoDigits? 0 60 rest
      match rest with
      | '.' :: rest => if (rest.takeWhile isDigit).isEmpty then none else return rest.dropWhile isDigit
      | rest => return rest
    | rest => if e.briefTimes then return rest else none
  | _ => none

/-- The text is a distance from universal time. -/
def isOffset : List Char → Bool
  | ['Z'] => true
  | ['z'] => true
  | c :: rest =>
    if c = '+' ∨ c = '-' then
      match twoDigits? 0 23 rest with
      | some (_, ':' :: rest) => (twoDigits? 0 59 rest).map Prod.snd == some []
      | _ => false
    else false
  | [] => false

/-- The text is a time, with a distance from universal time if there is one. -/
def isTimeWithOffset (e : Edition) (cs : List Char) : Bool :=
  match time? e cs with
  | some rest => rest.isEmpty || isOffset rest
  | none => false

/-- The word is a date, a time, or both with a `T` between them. -/
def isDateTime (e : Edition) (cs : List Char) : Bool :=
  match date? cs with
  | some [] => true
  | some (c :: rest) => (c == 'T' || c == 't' || c == ' ') && isTimeWithOffset e rest
  | none => time? e cs == some []

/-- The key under which the text of a date is kept. -/
def dateKey : String := "$__toml_private_datetime"

/-! ## Words -/

def endsWord (c : Char) : Bool := c == ' ' || c == '\t' || c == '\n' || c == '\r' || c == '#' || c == ',' || c == ']' || c == '\x7d'

/-- The next word and what follows it; a date takes a time after one space along. -/
def nextWord (cs : List Char) : List Char × List Char :=
  let first := cs.takeWhile (!endsWord ·)
  let rest := cs.dropWhile (!endsWord ·)
  match date? first, rest with
  | some [], ' ' :: c :: rest' =>
    if isDigit c then
      (first ++ ' ' :: (c :: rest').takeWhile (!endsWord ·), (c :: rest').dropWhile (!endsWord ·))
    else (first, rest)
  | _, _ => (first, rest)

/-- The value of a word. -/
def wordValue? (e : Edition) (cs : List Char) : Option Data :=
  if cs = "true".toList then some (.bool true)
  else if cs = "false".toList then some (.bool false)
  else if isDateTime e cs then some (.table [(dateKey, .text (String.ofList cs))])
  else
    match integer? cs with
    | some n => if e.holds n then some (.int n) else none
    | none => if isFloat e cs then some .float else none

end SyntaxView.Toml
