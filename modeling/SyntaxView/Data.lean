import SyntaxView.Json.Value

/-!
# Structured data

What a settings file, an environment variable or a JSON object holds before it is given a type. The keys of a table are
in ascending order and different, which `Table.put` keeps. `Data.laidOver` lays one piece of data over another: tables
are joined key by key, and anything else replaces what is below it.
-/

namespace SyntaxView

/-! ## Tables -/

namespace Table

/-- Set the entry of a key, in its place by order. -/
def put {α : Type} (key : String) (a : α) : List (String × α) → List (String × α)
  | [] => [(key, a)]
  | (k, b) :: rest =>
    if key = k then (key, a) :: rest else if key < k then (key, a) :: (k, b) :: rest else (k, b) :: put key a rest

end Table

/-! ## Data -/

inductive Data where
  /-- An explicit absence. -/
  | nothing
  | bool (value : Bool)
  | int (value : Int)
  /-- A number that is not written as an integer; no setting is one. -/
  | float
  | text (value : String)
  | char (value : Char)
  | list (items : List Data)
  | table (entries : List (String × Data))
  deriving Inhabited

namespace Data

mutual
/-- The upper data laid over the lower. -/
def laidOver : Data → Data → Data
  | .table upper, .table lower => .table (overEntries upper lower)
  | upper, _ => upper
termination_by structural upper => upper

def overEntries : List (String × Data) → List (String × Data) → List (String × Data)
  | [], lower => lower
  | (key, v) :: rest, lower =>
    overEntries rest (Table.put key (match lower.lookup key with | some below => laidOver v below | none => v) lower)
termination_by structural upper => upper
end

/-- The data under a path of keys. -/
def nest : List String → Data → Data
  | [], v => v
  | key :: path, v => .table [(key, nest path v)]

mutual
def ofJson : Json → Data
  | .null => .nothing
  | .bool b => .bool b
  | .int n => .int n
  | .decimal _ => .float
  | .str s => .text s
  | .arr items => .list (ofItems items)
  | .obj fields => .table (ofFields fields [])
termination_by structural v => v

def ofItems : List Json → List Data
  | [] => []
  | v :: rest => ofJson v :: ofItems rest
termination_by structural l => l

/-- Put the fields into a table, one after the other. -/
def ofFields : List (String × Json) → List (String × Data) → List (String × Data)
  | [], entries => entries
  | (key, v) :: rest, entries => ofFields rest (Table.put key (ofJson v) entries)
termination_by structural l => l
end

end Data

end SyntaxView
