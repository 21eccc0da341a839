import SyntaxView.Toml.Scalar

/-!
# Reading TOML

A document is read line by line into a tree of items. A table remembers where it came from: a header, a longer header
that implies it, or the points of a key. What comes later may add to a table only as its origin allows: a header opens a
table once, and only if it was at most implied; keys with points add to tables made by such keys and to no other. An
inline table is closed. `Toml.parse` gives the finished data.
-/

namespace SyntaxView.Toml

/-! ## Items -/

inductive Origin where
  | header
  /-- By a longer header. -/
  | implied
  /-- By a key with points. -/
  | pointed
  deriving DecidableEq, Repr

inductive Item where
  | value (data : Data)
  | table (origin : Origin) (entries : List (String × Item))
  /-- Tables opened one after the other under one name; entries go to the last. -/
  | series (tables : List (List (String × Item)))

abbrev Entries := List (String × Item)

/-- Change the entries of the table at a path, going through tables that may be extended; missing ones are made.
`pointed` says that the path comes from the points of a key. -/
def within (pointed : Bool) (change : Origin → Entries → Option Entries) : List String → Origin → Entries → Option Entries
  | [], origin, entries => change origin entries
  | key :: path, _, entries =>
    match entries.lookup key with
    | none =>
      let origin := if pointed then .pointed else .implied
      (within pointed change path origin []).map fun inner => Table.put key (.table origin inner) entries
    | some (.value _) => none
    | some (.series tables) =>
      match tables.getLast? with
      | none => none
      | some last =>
        (within pointed change path .header last).map fun inner =>
          Table.put key (.series (tables.dropLast ++ [inner])) entries
    | some (.table origin inner) =>
      if pointed ∧ origin = .header then none
      else (within pointed change path origin inner).map fun inner => Table.put key (.table origin inner) entries

/-- Add a new entry to a table that is `pointed` exactly if a path of points led to it. -/
def addEntry (path : List String) (key : String) (v : Data) (origin : Origin) (entries : Entries) : Option Entries :=
  if (origin == .pointed) == path.isEmpty then none
  else if (entries.lookup key).isSome then none
  else some (Table.put key (.value v) entries)

/-- Set the value of a key with points in a table. -/
def assign : List String → Data → Entries → Option Entries
  | path, v, entries =>
    match path.getLast? with
    | none => none
    | some key => within true (addEntry path.dropLast key v) path.dropLast .header entries

/-- Open the table of a header. -/
def openTable (path : List String) (root : Entries) : Option Entries :=
  match path.getLast? with
  | none => none
  | some key =>
    within false
      (fun _ entries =>
        match entries.lookup key with
        | none => some (Table.put key (.table .header []) entries)
        | some (.table .implied inner) => some (Table.put key (.table .header inner) entries)
        | some _ => none)
      path.dropLast .header root

/-- Open one more table of a series. -/
def openSeries (path : List String) (root : Entries) : Option Entries :=
  match path.getLast? with
  | none => none
  | some key =>
    within false
      (fun _ entries =>
        match entries.lookup key with
        | none => some (Table.put key (.series [[]]) entries)
        | some (.series tables) => some (Table.put key (.series (tables ++ [[]])) entries)
        | some _ => none)
      path.dropLast .header root

mutual
def Item.toData : Item → Data
  | .value v => v
  | .table _ entries => .table (entriesData entries)
  | .series tables => .list (seriesData tables)
termination_by structural i => i

def entriesData : List (String × Item) → List (String × Data)
  | [] => []
  | (key, i) :: rest => (key, i.toData) :: entriesData rest
termination_by structural l => l

def seriesData : List (List (String × Item)) → List Data
  | [] => []
  | entries :: rest => .table (entriesData entries) :: seriesData rest
termination_by structural l => l
end

/-! ## Values -/

/-- The items of an array after its opening bracket, at most `n` of them. -/
def arrayItems (read : List Char → Option (Data × List Char)) : Nat → List Char → Option (List Data × List Char)
  | 0, _ => none
  | n + 1, cs => do
    match ← skipGap false cs with
    | ']' :: rest => return ([], rest)
    | cs =>
      let (v, cs) ← read cs
      match ← skipGap false cs with
      | ',' :: rest =>
        let (vs, rest) ← arrayItems read n rest
        return (v :: vs, rest)
      | ']' :: rest => return ([v], rest)
      | _ => none

/-- Take what may stand between the parts of an inline table. -/
def skipInline (e : Edition) (cs : List Char) : Option (List Char) :=
  if e.openTables then skipGap false cs else some (skipSpace cs)

/-- Read `key = value`; `skip` takes what may stand around the equals sign. -/
def keyValue (e : Edition) (skip : List Char → Option (List Char)) (read : List Char → Option (Data × List Char))
    (cs : List Char) : Option ((List String × Data) × List Char) := do
  let (path, cs) ← keyPath? e cs
  match ← skip cs with
  | '=' :: rest =>
    let (v, rest) ← read (← skip rest)
    return ((path, v), rest)
  | _ => none

/-- The entries of an inline table that is not empty, at most `n` of them. -/
def inlineEntries (e : Edition) (read : List Char → Option (Data × List Char)) :
    Nat → Entries → List Char → Option (Entries × List Char)
  | 0, _, _ => none
  | n + 1, entries, cs => do
    let ((path, v), cs) ← keyValue e (skipInline e) read cs
    let entries ← assign path v entries
    match ← skipInline e cs with
    | '\x7d' :: rest => return (entries, rest)
    | ',' :: rest =>
      match ← skipInline e rest with
      | '\x7d' :: rest => if e.openTables then return (entries, rest) else none
      | cs => inlineEntries e read n entries cs
    | _ => none

/-- Read an inline table after its opening brace. -/
def inlineTable (e : Edition) (read : List Char → Option (Data × List Char)) (cs : List Char) :
    Option (Data × List Char) := do
  match ← skipInline e cs with
  | '\x7d' :: rest => return (.table [], rest)
  | cs =>
    let (entries, rest) ← inlineEntries e read (cs.length + 1) [] cs
    return (.table (entriesData entries), rest)

/-- Read a value without brackets. -/
def scalarValue (e : Edition) (cs : List Char) : Option (Data × List Char) :=
  match cs with
  | '"' :: _ => (text? e cs).map fun r => (.text r.1, r.2)
  | '\'' :: _ => (text? e cs).map fun r => (.text r.1, r.2)
  | _ => (wordValue? e (nextWord cs).1).map fun v => (v, (nextWord cs).2)

/-- Read a value with at most so many brackets within one another. -/
def value (e : Edition) : Nat → List Char → Option (Data × List Char)
  | 0, cs => scalarValue e cs
  | depth + 1, cs =>
    match cs with
    | '[' :: rest => (arrayItems (value e depth) (rest.length + 1) rest).map fun r => (.list r.1, r.2)
    | '\x7b' :: rest => inlineTable e (value e depth) rest
    | cs => scalarValue e cs

/-! ## Documents -/

/-- A document read up to some line: its entries and the path of the table that is open. -/
structure Draft where
  root : Entries
  current : List String

/-- Read one expression: a header, or a key with its value, up to the end of the line. -/
def expression (e : Edition) (d : Draft) (cs : List Char) : Option (Draft × List Char) :=
  match cs with
  | '[' :: '[' :: rest => do
    let (path, rest) ← keyPath? e rest
    match rest with
    | ']' :: ']' :: rest =>
      let root ← openSeries path d.root
      return (⟨root, path⟩, ← lineEnd? rest)
    | _ => none
  | '[' :: rest => do
    let (path, rest) ← keyPath? e rest
    match rest with
    | ']' :: rest =>
      let root ← openTable path d.root
      return (⟨root, path⟩, ← lineEnd? rest)
    | _ => none
  | cs => do
    let ((path, v), rest) ← keyValue e (some ∘ skipSpace) (value e e.nesting) cs
    let root ← within false (fun _ entries => assign path v entries) d.current .header d.root
    return (⟨root, d.current⟩, ← lineEnd? rest)

/-- Read the lines of a document, at most `n` of them. -/
def linesFrom (e : Edition) : Nat → Draft → List Char → Option Entries
  | 0, _, _ => none
  | n + 1, d, cs => do
    match ← skipGap false cs with
    | [] => return d.root
    | cs =>
      let (d, rest) ← expression e d cs
      linesFrom e n d rest

/-- Drop a byte order mark. -/
def dropMark : List Char → List Char
  | c :: rest => if c.toNat = 0xFEFF then rest else c :: rest
  | [] => []

/-- The table that a document of an edition describes. -/
def parse (e : Edition) (s : String) : Option (List (String × Data)) :=
  (linesFrom e (s.length + 1) ⟨[], []⟩ (dropMark s.toList)).map entriesData

end SyntaxView.Toml
