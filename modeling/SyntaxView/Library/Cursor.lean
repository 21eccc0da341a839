import SyntaxView.Text.Utf8
import SyntaxView.Tree.Node

/-!
# Cursors of a parser library

A parser library shows a file as a tree of cursors. A cursor answers with numbers and with texts of bytes; the functions
here turn its answers into the data of a node. A tree is taken over without the cursors in system headers, and without
all that is below them (`treeOf`).
-/

namespace SyntaxView.Library

/-- A text as the library gives it: bytes up to the first zero, or nothing. -/
abbrev RawText := Option (List UInt8)

/-- The text, with what is not UTF-8 replaced; nothing is the empty text. -/
def RawText.decode (t : RawText) : String := Text.ofBytes ((t.getD []).takeWhile (· != 0))

/-- A place in a file, or in none. -/
structure SourceLocation where
  file : Option RawText
  line : UInt32
  column : UInt32

def SourceLocation.toPosition (l : SourceLocation) : Position :=
  ⟨match l.file with | some name => RawText.decode name | none => "", l.line, l.column⟩

/-- What a cursor answers when it is asked. -/
structure CursorInfo where
  kind : Int32
  spelling : RawText
  displayName : RawText
  access : Int32
  type : Int32
  resultType : Int32
  canonicalResultType : Int32
  underlyingType : Int32
  isAbstract : Int32
  isPureVirtual : Int32
  isVirtual : Int32
  isStatic : Int32
  isConst : Int32
  isCopyConstructor : Int32
  isMoveConstructor : Int32
  isDefaultConstructor : Int32
  isConvertingConstructor : Int32
  inSystemHeader : Bool
  start : SourceLocation
  stop : SourceLocation

namespace CursorInfo

/-- An answer is yes if it is not zero. -/
def yes (n : Int32) : Bool := n != 0

def span (c : CursorInfo) : Span := ⟨c.start.toPosition, c.stop.toPosition⟩

def virtuality (c : CursorInfo) : Virtuality := .ofFlags (yes c.isPureVirtual) (yes c.isVirtual)

def constructorForm (c : CursorInfo) : ConstructorForm :=
  .ofFlags (yes c.isCopyConstructor) (yes c.isMoveConstructor) (yes c.isDefaultConstructor)
    (yes c.isConvertingConstructor)

/-- The member of a group of kinds with the number of the cursor. -/
def member? {α : Type} [Labelled α] (code : α → Int32) (c : CursorInfo) : Option α :=
  (Labelled.all : List α).find? fun k => code k == c.kind

/-- The kind among those that form no group. -/
def singleKind (c : CursorInfo) : NodeKind :=
  let name := c.spelling.decode
  let access := Access.ofCode c.access
  let type := TypeKind.ofCode c.type
  let returnType := TypeKind.ofCode c.resultType
  let canonicalReturnType := TypeKind.ofCode c.canonicalResultType
  if c.kind = 6 then .field name access type
  else if c.kind = 8 then .function name c.displayName.decode type returnType canonicalReturnType
  else if c.kind = 21 then
    .method name access type c.virtuality returnType canonicalReturnType (yes c.isStatic) (yes c.isConst)
  else if c.kind = 24 then .constructor name c.constructorForm access
  else if c.kind = 25 then .destructor name access c.virtuality
  else if c.kind = 39 then .accessSpecifier access
  else if c.kind = 117 then .cStyleCast type
  else .notSupported name c.kind

/-- The kind among those that form groups. -/
def groupKind? (c : CursorInfo) : Option NodeKind :=
  let name := c.spelling.decode
  let access := Access.ofCode c.access
  (c.member? Plain.code).map .plain
  <|> (c.member? Named.code).map (.named · name)
  <|> (c.member? Quoted.code).map (.quoted · name)
  <|> (c.member? RecordForm.code).map (.record · name access (yes c.isAbstract))
  <|> (c.member? Scoped.code).map (.scoped · name access)
  <|> (c.member? TypedForm.code).map (.typed · name (TypeKind.ofCode c.type))
  <|> (c.member? AliasForm.code).map (.alias · name (TypeKind.ofCode c.underlyingType) access)

/-- The kind of the node that a cursor becomes. -/
def toKind (c : CursorInfo) : NodeKind := c.groupKind?.getD c.singleKind

end CursorInfo

inductive Cursor where
  | mk (info : CursorInfo) (children : List Cursor)

namespace Cursor

def info : Cursor → CursorInfo
  | mk i _ => i

def children : Cursor → List Cursor
  | mk _ cs => cs

mutual
/-- Visit a cursor for the node above it: its own node is added there when all below the cursor has been visited. A
cursor in a system header is passed over. -/
def visit : Cursor → Node → Node
  | mk info children, parent =>
    if info.inSystemHeader then parent else parent.push (visitAll children (.mk info.toKind (some info.span) []))
termination_by structural c => c

/-- Visit cursors one after the other for the node above them. -/
def visitAll : List Cursor → Node → Node
  | [], parent => parent
  | c :: cs, parent => visitAll cs (visit c parent)
termination_by structural l => l
end

end Cursor

/-- The tree of a file with these cursors at its top. -/
def treeOf (cursors : List Cursor) : Node := Cursor.visitAll cursors (.root [])

end SyntaxView.Library
