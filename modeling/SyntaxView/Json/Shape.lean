import SyntaxView.Json.Value
import SyntaxView.Labelled

/-!
# Typed values out of JSON values

How the parts of a JSON value are taken for typed data. Integers must be written as integers and lie in range. A record
is an object, whose other keys do not matter, or an array of its fields in order, from whose end fields may be missing.
A value of a finite type is its label; a label may also be the only key of an object with `null` behind it.
-/

namespace SyntaxView.Json

def text? : Json → Option String
  | .str s => some s
  | _ => none

def bool? : Json → Option Bool
  | .bool b => some b
  | _ => none

def texts? : Json → Option (List String)
  | .arr items => items.mapM text?
  | _ => none

/-- An integer from `least` on and below `bound`. -/
def intIn? (least bound : Int) : Json → Option Int
  | .int n => if least ≤ n ∧ n < bound then some n else none
  | _ => none

def uint32? (v : Json) : Option UInt32 := (v.intIn? 0 0x100000000).map fun n => UInt32.ofNat n.toNat

def int32? (v : Json) : Option Int32 := (v.intIn? (-0x80000000) 0x80000000).map Int32.ofInt

/-- The fields of a record with these names. -/
def record? (names : List String) : Json → Option (List (String × Json))
  | .obj fields => some fields
  | .arr items => if items.length ≤ names.length then some (names.zip items) else none
  | _ => none

/-- A field that has to be there. -/
def required? {α : Type} (fields : List (String × Json)) (key : String) (decode : Json → Option α) : Option α :=
  (fields.lookup key).bind decode

/-- A field that may be missing or `null`. -/
def optional? {α : Type} (fields : List (String × Json)) (key : String) (decode : Json → Option α) : Option (Option α) :=
  match fields.lookup key with
  | none => some none
  | some .null => some none
  | some v => (decode v).map some

/-- A label, alone or as the only key of an object; `loose` says that an empty object may stand behind it as well. -/
def label? (loose : Bool) : Json → Option String
  | .str s => some s
  | .obj [(s, .null)] => some s
  | .obj [(s, .obj [])] => if loose then some s else none
  | _ => none

/-- The value of a finite type with this label. -/
def labelled? {α : Type} [Labelled α] (loose : Bool) (v : Json) : Option α := (v.label? loose).bind Labelled.ofLabel?

end SyntaxView.Json
