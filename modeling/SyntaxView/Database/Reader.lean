import SyntaxView.Json.Reader

/-!
# Reading the entries of a compilation database

The text is an array of entries. An entry is an object with the fields of `Database.Entry`, or an array of their values
in this order, from which values at the end may be missing. Keys that are not fields are skipped with their values; a
field given twice, a missing `file` and a value of another type are faults of shape. All of it is read as one stream, so
of several faults the first counts: a field given twice is noticed at its second key, a missing `file` at the closing
bracket.
-/

namespace SyntaxView.Database

open Json (Fault Rule skipSpace keyword)

/-- An entry as written. -/
structure Entry where
  directory : String
  file : String
  arguments : Option (List String)
  command : Option String
  output : Option String
  deriving DecidableEq, Repr

/-- The fields of an entry read so far. -/
structure Draft where
  directory : Option String
  file : Option String
  arguments : Option (Option (List String))
  command : Option (Option String)
  output : Option (Option String)

namespace Draft

def blank : Draft := ⟨none, none, none, none, none⟩

/-- The entry of the fields read, unless the file is missing. -/
def toEntry? (d : Draft) : Option Entry :=
  d.file.map fun file => ⟨d.directory.getD "", file, d.arguments.join, d.command.join, d.output.join⟩

/-- The key is a field that has been read. -/
def hasField (d : Draft) (key : String) : Bool :=
  key == "directory" && d.directory.isSome || key == "file" && d.file.isSome ||
    key == "arguments" && d.arguments.isSome || key == "command" && d.command.isSome ||
    key == "output" && d.output.isSome

end Draft

/-! ## Typed values -/

/-- The fault of the value at the start of `cs`, which has another type than the one asked for. -/
def mismatch : List Char → Fault
  | [] => .ended
  | c :: cs =>
    let after {α : Type} : Except Fault α → Fault
      | .error e => e
      | .ok _ => .shape
    if c = 'n' then after (keyword "ull".toList cs)
    else if c = 't' then after (keyword "rue".toList cs)
    else if c = 'f' then after (keyword "alse".toList cs)
    else if c = '-' ∨ isDigit c then after (Json.number .strict (c :: cs))
    else if c = '"' then after (Json.string .strict cs)
    else if c = '[' ∨ c = '\x7b' then .shape
    else .grammar

def text (cs : List Char) : Except Fault (String × List Char) :=
  match skipSpace cs with
  | '"' :: rest => Json.string .strict rest
  | cs => .error (mismatch cs)

/-- A value that may be `null`. -/
def nullable {α : Type} (read : List Char → Except Fault (α × List Char)) (cs : List Char) :
    Except Fault (Option α × List Char) :=
  match skipSpace cs with
  | 'n' :: rest => (keyword "ull".toList rest).map (none, ·)
  | cs => (read cs).map fun r => (some r.1, r.2)

/-- Look for the next item of an array: its text, or `none` before the closing bracket, which is not taken. -/
def nextItem (first : Bool) (cs : List Char) : Except Fault (Option (List Char)) :=
  match skipSpace cs with
  | [] => .error .ended
  | ']' :: _ => .ok none
  | c :: rest =>
    if first then .ok (some (c :: rest))
    else if c = ',' then
      match skipSpace rest with
      | [] => .error .ended
      | ']' :: _ => .error .grammar
      | cs => .ok (some cs)
    else .error .grammar

/-- Take the closing bracket of an array. -/
def closeArray (cs : List Char) : Except Fault (List Char) :=
  match skipSpace cs with
  | ']' :: rest => .ok rest
  | [] => .error .ended
  | _ => .error .grammar

/-- Read the items of an array up to its closing bracket, at most `n` of them. -/
def itemsUpTo {α : Type} (read : List Char → Except Fault (α × List Char)) :
    Nat → Bool → List Char → Except Fault (List α × List Char)
  | 0, _, cs => .ok ([], cs)
  | n + 1, first, cs => do
    match ← nextItem first cs with
    | none => return ([], cs)
    | some cs =>
      let (v, cs) ← read cs
      let (vs, cs) ← itemsUpTo read n false cs
      return (v :: vs, cs)

/-- Read an array. -/
def items {α : Type} (read : List Char → Except Fault (α × List Char)) (cs : List Char) :
    Except Fault (List α × List Char) :=
  match skipSpace cs with
  | '[' :: rest => do
    let (vs, rest) ← itemsUpTo read rest.length true rest
    let rest ← closeArray rest
    return (vs, rest)
  | cs => .error (mismatch cs)

/-! ## Entries -/

/-- Read the value of a key into the draft. -/
def fieldValue (d : Draft) (key : String) (cs : List Char) : Except Fault (Draft × List Char) :=
  if key = "directory" then (text cs).map fun r => ({ d with directory := some r.1 }, r.2)
  else if key = "file" then (text cs).map fun r => ({ d with file := some r.1 }, r.2)
  else if key = "arguments" then (nullable (items text) cs).map fun r => ({ d with arguments := some r.1 }, r.2)
  else if key = "command" then (nullable text cs).map fun r => ({ d with command := some r.1 }, r.2)
  else if key = "output" then (nullable text cs).map fun r => ({ d with output := some r.1 }, r.2)
  else (Json.value .lenient cs).map fun r => (d, r.2)

/-- Look for the next key of an object: the text after its opening quote, or `none` after the closing bracket. -/
def nextKey (first : Bool) (cs : List Char) : Except Fault (Option (List Char) × List Char) :=
  match skipSpace cs with
  | [] => .error .ended
  | '\x7d' :: rest => .ok (none, rest)
  | c :: rest =>
    if first then (if c = '"' then .ok (some rest, []) else .error .grammar)
    else if c = ',' then
      match skipSpace rest with
      | [] => .error .ended
      | '"' :: rest => .ok (some rest, [])
      | _ => .error .grammar
    else .error .grammar

/-- Read the fields of an object up to its closing bracket, with `n` bounding their number. -/
def objectFields : Nat → Bool → Draft → List Char → Except Fault (Entry × List Char)
  | 0, _, _, _ => .error .ended
  | n + 1, first, d, cs => do
    match ← nextKey first cs with
    | (none, rest) =>
      match d.toEntry? with
      | some e => return (e, rest)
      | none => .error .shape
    | (some cs, _) =>
      let (key, cs) ← Json.string .strict cs
      if d.hasField key then .error .shape
      else
        let cs ← Json.colon cs
        let (d, cs) ← fieldValue d key cs
        objectFields n false d cs

/-- The fields of an entry in the order of its array form. -/
def fieldOrder : List String := ["directory", "file", "arguments", "command", "output"]

/-- Read the values of an array in the order of the fields; `false` says that no value has been read. -/
def arrayFields : List String → Bool → Draft → List Char → Except Fault (Draft × List Char)
  | [], _, d, cs => .ok (d, cs)
  | key :: keys, started, d, cs => do
    match ← nextItem (!started) cs with
    -- Without its file an array is no entry, and that shows where the file should stand.
    | none => if key = "file" then .error .shape else arrayFields keys started d cs
    | some cs =>
      let (d, cs) ← fieldValue d key cs
      arrayFields keys true d cs

def entry (cs : List Char) : Except Fault (Entry × List Char) :=
  match skipSpace cs with
  | '\x7b' :: rest => objectFields (rest.length + 1) true .blank rest
  | '[' :: rest => do
    let (d, rest) ← arrayFields fieldOrder false .blank rest
    match d.toEntry? with
    | none => .error .shape
    | some e =>
      let rest ← closeArray rest
      return (e, rest)
  | cs => .error (mismatch cs)

/-- The entries of a database text. -/
def readEntries (s : String) : Except Fault (List Entry) := do
  let (es, rest) ← items entry s.toList
  if (skipSpace rest).isEmpty then return es else .error .grammar

end SyntaxView.Database
