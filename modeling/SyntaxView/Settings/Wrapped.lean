import SyntaxView.Data

/-!
# Wrapped values

In a settings file, a table below the top level stands for the one value that it holds under a reserved key; what else
it holds does not matter. A second reserved key numbers where a value came from. The number tells nothing about the
settings and is dropped, but it has to be an integer.
-/

namespace SyntaxView.Settings.Wrapped

/-- The key of a wrapped value. -/
def valueKey : String := "___figment_value_value"

/-- The key of the number of a wrapped value. -/
def numberKey : String := "___figment_value_id"

/-- The value that the entries of a table stand for. -/
def ofEntries (entries : List (String × Data)) : Data := (entries.lookup valueKey).getD (.table entries)

mutual
/-- Put wrapped values in the place of their tables. -/
def unwrap? : Data → Option Data
  | .list items => (unwrapItems? items).map .list
  | .table entries => (unwrapEntries? entries).map ofEntries
  | v => some v
termination_by structural v => v

def unwrapItems? : List Data → Option (List Data)
  | [] => some []
  | v :: rest =>
    match unwrap? v, unwrapItems? rest with
    | some v, some rest => some (v :: rest)
    | _, _ => none
termination_by structural l => l

/-- The entries of a table without the number. -/
def unwrapEntries? : List (String × Data) → Option (List (String × Data))
  | [] => some []
  | (key, v) :: rest =>
    match unwrap? v, unwrapEntries? rest with
    | some w, some entries =>
      if key = numberKey then
        match v with
        | .int _ => some entries
        | _ => none
      else some ((key, w) :: entries)
    | _, _ => none
termination_by structural l => l
end

/-- The entries of a document; at the top level no key is reserved. -/
def unwrapTop? : List (String × Data) → Option (List (String × Data))
  | [] => some []
  | (key, v) :: rest =>
    match unwrap? v, unwrapTop? rest with
    | some v, some rest => some ((key, v) :: rest)
    | _, _ => none

end SyntaxView.Settings.Wrapped
