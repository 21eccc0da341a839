import SyntaxView.Json.Shape
import SyntaxView.Tree.Node

/-!
# Trees as JSON

A node is one flat object: the tag of its kind under `kind`, the data of the kind, then `span` and `children`, each left
out when there is none. `Node.ofJson?` reads it back: keys may come in any order and unknown ones do not matter. A kind
may also be given by its place in `NodeKind.order`.
-/

namespace SyntaxView

/-! ## Positions and spans -/

def Position.toJson (p : Position) : Json :=
  .obj [("file_name", .str p.fileName), ("line", .ofNat p.line.toNat), ("col", .ofNat p.column.toNat)]

def Position.ofJson? (v : Json) : Option Position := do
  let fields ← v.record? ["file_name", "line", "col"]
  let fileName ← Json.required? fields "file_name" Json.text?
  let line ← Json.required? fields "line" Json.uint32?
  let column ← Json.required? fields "col" Json.uint32?
  return ⟨fileName, line, column⟩

def Span.toJson (s : Span) : Json := .obj [("start_pos", s.start.toJson), ("end_pos", s.stop.toJson)]

def Span.ofJson? (v : Json) : Option Span := do
  let fields ← v.record? ["start_pos", "end_pos"]
  let start ← Json.required? fields "start_pos" Position.ofJson?
  let stop ← Json.required? fields "end_pos" Position.ofJson?
  return ⟨start, stop⟩

/-! ## Kinds -/

def Labelled.toJson {α : Type} [Labelled α] (a : α) : Json := .str (Labelled.label a)

/-- A kind with a name is its label; another one is an object with its number. -/
def TypeKind.toJson : TypeKind → Json
  | .known t => Labelled.toJson t
  | .notSupported n => .obj [("NotSupported", .int n.toInt)]

def TypeKind.ofJson? : Json → Option TypeKind
  | .obj [("NotSupported", v)] => v.int32?.map .notSupported
  | v => (v.labelled? true).map .known

namespace NodeKind

/-- The name under which a kind is written. -/
def tag : NodeKind → String
  | .root => "Root"
  | .plain k => Labelled.label k
  | .named k _ => Labelled.label k
  | .quoted k _ => Labelled.label k
  | .record k .. => Labelled.label k
  | .scoped k .. => Labelled.label k
  | .field .. => "Field"
  | .function .. => "Function"
  | .method .. => "Method"
  | .constructor .. => "Constructor"
  | .destructor .. => "Destructor"
  | .typed k .. => Labelled.label k
  | .alias k .. => Labelled.label k
  | .accessSpecifier _ => "AccessSpecifier"
  | .cStyleCast _ => "CStyleCast"
  | .notSupported .. => "NotSupported"

/-- The data of a kind, as fields in order. -/
def fields : NodeKind → List (String × Json)
  | .root | .plain _ => []
  | .named _ name => [("name", .str name)]
  | .quoted _ value => [("value", .str value)]
  | .record _ name access isAbstract =>
    [("name", .str name), ("access", Labelled.toJson access), ("is_abstract", .bool isAbstract)]
  | .scoped _ name access => [("name", .str name), ("access", Labelled.toJson access)]
  | .field name access type => [("name", .str name), ("access", Labelled.toJson access), ("ty", type.toJson)]
  | .function name displayName type returnType canonicalReturnType =>
    [("name", .str name), ("display_name", .str displayName), ("ty", type.toJson), ("return_type", returnType.toJson),
     ("canonical_return_type", canonicalReturnType.toJson)]
  | .method name access type virtuality returnType canonicalReturnType isStatic isConst =>
    [("name", .str name), ("access", Labelled.toJson access), ("ty", type.toJson),
     ("virtuality", Labelled.toJson virtuality), ("return_type", returnType.toJson),
     ("canonical_return_type", canonicalReturnType.toJson), ("is_static", .bool isStatic), ("is_const", .bool isConst)]
  | .constructor name form access =>
    [("name", .str name), ("constructor_type", Labelled.toJson form), ("access", Labelled.toJson access)]
  | .destructor name access virtuality =>
    [("name", .str name), ("access", Labelled.toJson access), ("virtuality", Labelled.toJson virtuality)]
  | .typed _ name type => [("name", .str name), ("ty", type.toJson)]
  | .alias _ name underlying access =>
    [("name", .str name), ("underlying", underlying.toJson), ("access", Labelled.toJson access)]
  | .accessSpecifier access => [("access", Labelled.toJson access)]
  | .cStyleCast type => [("ty", type.toJson)]
  | .notSupported name code => [("name", .str name), ("cursor_kind", .int code.toInt)]

/-- The tags of all kinds, in the order in which they are counted. -/
def order : List String :=
  ["Root", "Unexposed", "Namespace", "LinkageSpec", "NamespaceAlias", "UsingDirective", "UsingDeclaration", "Class",
    "Struct", "Union", "Enum", "EnumConstant", "Field", "Function", "Method", "Constructor", "Destructor",
    "ConversionFunction", "Variable", "Parameter", "Typedef", "TypeAlias", "TemplateTypeParameter",
    "NonTypeTemplateParameter", "TemplateTemplateParameter", "FunctionTemplate", "ClassTemplate",
    "ClassTemplatePartialSpecialization", "AccessSpecifier", "TypeReference", "BaseSpecifier", "TemplateReference",
    "NamespaceReference", "MemberReference", "LabelReference", "OverloadedDeclarationReference", "VariableReference",
    "UnexposedExpression", "DeclarationReferenceExpression", "MemberReferenceExpression", "CallExpression",
    "IntegerLiteral", "FloatLiteral", "ImaginaryLiteral", "StringLiteral", "CharacterLiteral", "BoolLiteral",
    "NullPtrLiteral", "ParenExpression", "UnaryOperator", "ArraySubscript", "BinaryOperator",
    "CompoundAssignOperator", "ConditionalOperator", "CStyleCast", "InitializerList", "Lambda", "This",
    "CompoundStatement", "DeclarationStatement", "ReturnStatement", "IfStatement", "SwitchStatement",
    "CaseStatement", "DefaultStatement", "WhileStatement", "DoStatement", "ForStatement", "RangeBasedForStatement",
    "BreakStatement", "ContinueStatement", "NullStatement", "NotSupported"]

/-- The tag that a `kind` field gives, by itself or by its place in the order. -/
def tag? : Json → Option String
  | .str s => some s
  | .int n => if 0 ≤ n then order[n.toNat]? else none
  | _ => none

/-- The kind with a tag and the data found among the fields, for the kinds that form groups. -/
def groupOfFields? (tag : String) (fs : List (String × Json)) : Option NodeKind :=
  let text (key : String) := Json.required? fs key Json.text?
  let type (key : String) := Json.required? fs key TypeKind.ofJson?
  let flag (key : String) := Json.required? fs key Json.bool?
  let access : Option Access := Json.required? fs "access" (Json.labelled? true)
  (Labelled.ofLabel? tag).map .plain
  <|> (do return .named (← Labelled.ofLabel? tag) (← text "name"))
  <|> (do return .quoted (← Labelled.ofLabel? tag) (← text "value"))
  <|> (do return .record (← Labelled.ofLabel? tag) (← text "name") (← access) (← flag "is_abstract"))
  <|> (do return .scoped (← Labelled.ofLabel? tag) (← text "name") (← access))
  <|> (do return .typed (← Labelled.ofLabel? tag) (← text "name") (← type "ty"))
  <|> (do return .alias (← Labelled.ofLabel? tag) (← text "name") (← type "underlying") (← access))

/-- The kind with a tag and the data found among the fields. -/
def ofFields? (tag : String) (fs : List (String × Json)) : Option NodeKind :=
  let text (key : String) := Json.required? fs key Json.text?
  let flag (key : String) := Json.required? fs key Json.bool?
  let type (key : String) := Json.required? fs key TypeKind.ofJson?
  let access : Option Access := Json.required? fs "access" (Json.labelled? true)
  let virtuality : Option Virtuality := Json.required? fs "virtuality" (Json.labelled? true)
  match tag with
  | "Root" => some .root
  | "Field" => return .field (← text "name") (← access) (← type "ty")
  | "Function" =>
    return .function (← text "name") (← text "display_name") (← type "ty") (← type "return_type")
      (← type "canonical_return_type")
  | "Method" =>
    return .method (← text "name") (← access) (← type "ty") (← virtuality) (← type "return_type")
      (← type "canonical_return_type") (← flag "is_static") (← flag "is_const")
  | "Constructor" =>
    return .constructor (← text "name") (← Json.required? fs "constructor_type" (Json.labelled? true)) (← access)
  | "Destructor" => return .destructor (← text "name") (← access) (← virtuality)
  | "AccessSpecifier" => return .accessSpecifier (← access)
  | "CStyleCast" => return .cStyleCast (← type "ty")
  | "NotSupported" => return .notSupported (← text "name") (← Json.required? fs "cursor_kind" Json.int32?)
  | _ => groupOfFields? tag fs

end NodeKind

/-! ## Nodes -/

namespace Node

/-- A field that is left out when the list is empty. -/
def listField (key : String) (items : List Json) : List (String × Json) :=
  if items.isEmpty then [] else [(key, .arr items)]

mutual
def toJson : Node → Json
  | mk kind span children =>
    .obj (("kind", .str kind.tag) :: kind.fields ++ Json.optional "span" (span.map Span.toJson) ++
      listField "children" (toJsonAll children))
termination_by structural n => n

def toJsonAll : List Node → List Json
  | [] => []
  | n :: ns => toJson n :: toJsonAll ns
termination_by structural l => l
end

mutual
def ofJson? : Json → Option Node
  | .obj fields => do
    let tag ← Json.required? fields "kind" NodeKind.tag?
    let kind ← NodeKind.ofFields? tag fields
    let span ← Json.optional? fields "span" Span.ofJson?
    let children ← childrenIn? fields
    return mk kind span children
  | _ => none
termination_by structural v => v

/-- The nodes under the key `children`, none if it is missing. -/
def childrenIn? : List (String × Json) → Option (List Node)
  | [] => some []
  | (key, v) :: rest => if key = "children" then ofItems? v else childrenIn? rest
termination_by structural l => l

def ofItems? : Json → Option (List Node)
  | .arr items => ofJsonAll? items
  | _ => none
termination_by structural v => v

def ofJsonAll? : List Json → Option (List Node)
  | [] => some []
  | v :: rest => do return (← ofJson? v) :: (← ofJsonAll? rest)
termination_by structural l => l
end

end Node

end SyntaxView
