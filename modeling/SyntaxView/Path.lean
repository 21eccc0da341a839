/-!
# Paths

A path is its text. Its meaning is a list of components: a leading `/` is the root, a leading `.` of a relative path
stays a component, and after that empty pieces and `.` drop out while `..` stays. Two paths are the same when their
components are (`Path.same`), whatever their text. Joining, the parent and the rest below a base work on the text, so
what they return keeps the spelling of the piece it came from.
-/

namespace SyntaxView

structure Path where
  text : String
  deriving DecidableEq, Repr, Inhabited

namespace Path

/-! ## Pieces between slashes -/

/-- Cut a text at every slash; a text without one is a single piece. -/
def cut : List Char → List (List Char)
  | [] => [[]]
  | c :: cs =>
    if c = '/' then [] :: cut cs
    else
      match cut cs with
      | [] => [[c]]
      | p :: ps => (c :: p) :: ps

/-- Put slashes between pieces. -/
def glue : List (List Char) → List Char
  | [] => []
  | [p] => p
  | p :: ps => p ++ '/' :: glue ps

/-- A piece that stands for no component after the start of a path. -/
def isIdle (piece : List Char) : Bool := piece == [] || piece == ['.']

/-- How a path starts. -/
inductive Start where
  | root
  /-- A relative path whose first piece is `.`. -/
  | here
  | plain
  deriving DecidableEq, Repr

/-- The start of a path and the pieces after it. -/
def split (p : Path) : Start × List (List Char) :=
  match p.text.toList with
  | '/' :: cs => (.root, cut cs)
  | cs =>
    match cut cs with
    | ['.'] :: rest => (.here, rest)
    | pieces => (.plain, pieces)

/-- Drop idle pieces at the end. -/
def dropIdleEnd (pieces : List (List Char)) : List (List Char) := (pieces.reverse.dropWhile isIdle).reverse

/-- The text of a start and the pieces after it. -/
def assemble : Start → List (List Char) → Path
  | .root, pieces => ⟨String.ofList ('/' :: glue pieces)⟩
  | .here, [] => ⟨"."⟩
  | .here, pieces => ⟨String.ofList ('.' :: '/' :: glue pieces)⟩
  | .plain, pieces => ⟨String.ofList (glue pieces)⟩

/-! ## Components -/

inductive Component where
  | root
  | here
  | up
  | name (name : String)
  deriving DecidableEq, Repr

/-- The component of a piece after the start. -/
def component? (piece : List Char) : Option Component :=
  if isIdle piece then none else if piece = ['.', '.'] then some .up else some (.name (String.ofList piece))

def Start.components : Start → List Component
  | .root => [.root]
  | .here => [.here]
  | .plain => []

def components (p : Path) : List Component := p.split.1.components ++ p.split.2.filterMap component?

/-- The two paths have the same components. -/
def same (p q : Path) : Bool := p.components == q.components

/-! ## Operations -/

def isAbsolute (p : Path) : Bool := p.text.toList.head? == some '/'

/-- The path `q` seen from `p`: an absolute one stands alone, else one slash divides the two unless `p` is empty or ends
in one. -/
def join (p q : Path) : Path :=
  if q.isAbsolute then q
  else
    match p.text.toList.getLast? with
    | none => q
    | some c => if c = '/' then ⟨p.text ++ q.text⟩ else ⟨p.text ++ "/" ++ q.text⟩

/-- The path without its last component; the root and the empty path have none to lose. -/
def parent (p : Path) : Option Path :=
  let (start, pieces) := p.split
  match (dropIdleEnd pieces).reverse with
  | _ :: before => some (assemble start (dropIdleEnd before.reverse))
  | [] => if start = .here then some ⟨""⟩ else none

/-- Drop pieces up to and with the `n`-th that is not idle. -/
def dropNames : Nat → List (List Char) → List (List Char)
  | 0, pieces => pieces
  | _ + 1, [] => []
  | n + 1, piece :: pieces => if isIdle piece then dropNames (n + 1) pieces else dropNames n pieces

/-- The rest of `p` below `base`, if the components of `base` start those of `p`. -/
def below? (p base : Path) : Option Path :=
  if base.components.isPrefixOf p.components then
    let (start, pieces) := p.split
    if base.components.isEmpty then some (assemble start (dropIdleEnd pieces))
    else
      let rest := dropNames (base.components.length - start.components.length) pieces
      some ⟨String.ofList (glue (dropIdleEnd (rest.dropWhile isIdle)))⟩
  else none

/-- The path and at most `n` of the paths above it. -/
def upTo : Nat → Path → List Path
  | 0, p => [p]
  | n + 1, p =>
    match p.parent with
    | none => [p]
    | some q => p :: upTo n q

/-- The path, its parent, the parent of that, and so on. -/
def ancestors (p : Path) : List Path := upTo p.components.length p

end Path

end SyntaxView
