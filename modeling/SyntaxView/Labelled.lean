/-!
# Finite types with labels

A type of finitely many values, each with the label under which it is written. `ofLabel?` reads a label back.
-/

namespace SyntaxView

class Labelled (α : Type) where
  /-- All values, in the order in which they are listed to users. -/
  all : List α
  label : α → String

/-- The value with this label. -/
def Labelled.ofLabel? {α : Type} [Labelled α] (s : String) : Option α :=
  (Labelled.all : List α).find? fun a => Labelled.label a == s

end SyntaxView
