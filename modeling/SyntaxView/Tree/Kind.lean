import SyntaxView.Tree.Type

/-!
# Kinds of nodes

A node of a syntax tree is of one of the kinds below. Kinds that carry the same data form one group: `Plain` kinds carry
nothing, `Named` ones a name, `Quoted` ones the text of a literal, and so on. A member of a group is written as JSON
under the label it has in its group. Each kind but the root and `notSupported` has a number in the parser library.

`NodeKind.label` is the label under which users see a kind, and `NodeKind.describe` the one-line description of a node:
its label, its name if it has one that is not empty, and what else is known of it.
-/

namespace SyntaxView

/-! ## Groups of kinds -/

/-- Expressions and statements that carry nothing. -/
inductive Plain where
  | integerLiteral
  | floatLiteral
  | imaginaryLiteral
  | boolLiteral
  | nullPtrLiteral
  | parenExpression
  | unaryOperator
  | arraySubscript
  | binaryOperator
  | compoundAssignOperator
  | conditionalOperator
  | initializerList
  | lambdaExpr
  | thisExpr
  | compoundStatement
  | declarationStatement
  | returnStatement
  | ifStatement
  | switchStatement
  | caseStatement
  | defaultStatement
  | whileStatement
  | doStatement
  | forStatement
  | rangeBasedForStatement
  | breakStatement
  | continueStatement
  | nullStatement
  deriving DecidableEq, Repr

instance : Labelled Plain where
  all :=
    [.integerLiteral, .floatLiteral, .imaginaryLiteral, .boolLiteral, .nullPtrLiteral, .parenExpression,
     .unaryOperator, .arraySubscript, .binaryOperator, .compoundAssignOperator, .conditionalOperator,
     .initializerList, .lambdaExpr, .thisExpr, .compoundStatement, .declarationStatement, .returnStatement,
     .ifStatement, .switchStatement, .caseStatement, .defaultStatement, .whileStatement, .doStatement, .forStatement,
     .rangeBasedForStatement, .breakStatement, .continueStatement, .nullStatement]
  label
    | .integerLiteral => "IntegerLiteral"
    | .floatLiteral => "FloatLiteral"
    | .imaginaryLiteral => "ImaginaryLiteral"
    | .boolLiteral => "BoolLiteral"
    | .nullPtrLiteral => "NullPtrLiteral"
    | .parenExpression => "ParenExpression"
    | .unaryOperator => "UnaryOperator"
    | .arraySubscript => "ArraySubscript"
    | .binaryOperator => "BinaryOperator"
    | .compoundAssignOperator => "CompoundAssignOperator"
    | .conditionalOperator => "ConditionalOperator"
    | .initializerList => "InitializerList"
    | .lambdaExpr => "Lambda"
    | .thisExpr => "This"
    | .compoundStatement => "CompoundStatement"
    | .declarationStatement => "DeclarationStatement"
    | .returnStatement => "ReturnStatement"
    | .ifStatement => "IfStatement"
    | .switchStatement => "SwitchStatement"
    | .caseStatement => "CaseStatement"
    | .defaultStatement => "DefaultStatement"
    | .whileStatement => "WhileStatement"
    | .doStatement => "DoStatement"
    | .forStatement => "ForStatement"
    | .rangeBasedForStatement => "RangeBasedForStatement"
    | .breakStatement => "BreakStatement"
    | .continueStatement => "ContinueStatement"
    | .nullStatement => "NullStatement"

/-- The number of the cursor kind in the parser library. -/
def Plain.code : Plain → Int32
  | .integerLiteral => 106
  | .floatLiteral => 107
  | .imaginaryLiteral => 108
  | .boolLiteral => 130
  | .nullPtrLiteral => 131
  | .parenExpression => 111
  | .unaryOperator => 112
  | .arraySubscript => 113
  | .binaryOperator => 114
  | .compoundAssignOperator => 115
  | .conditionalOperator => 116
  | .initializerList => 119
  | .lambdaExpr => 144
  | .thisExpr => 132
  | .compoundStatement => 202
  | .declarationStatement => 231
  | .returnStatement => 214
  | .ifStatement => 205
  | .switchStatement => 206
  | .caseStatement => 203
  | .defaultStatement => 204
  | .whileStatement => 207
  | .doStatement => 208
  | .forStatement => 209
  | .rangeBasedForStatement => 225
  | .breakStatement => 213
  | .continueStatement => 212
  | .nullStatement => 230

/-- Declarations, references and expressions that carry a name only. -/
inductive Named where
  | unexposed
  | namespaceDecl
  | linkageSpec
  | namespaceAlias
  | usingDirective
  | usingDeclaration
  | enumConstant
  | templateTypeParameter
  | nonTypeTemplateParameter
  | templateTemplateParameter
  | functionTemplate
  | classTemplate
  | classTemplatePartialSpecialization
  | typeReference
  | templateReference
  | namespaceReference
  | memberReference
  | labelReference
  | overloadedDeclarationReference
  | variableReference
  | unexposedExpression
  | declarationReferenceExpression
  | memberReferenceExpression
  | callExpression
  deriving DecidableEq, Repr

instance : Labelled Named where
  all :=
    [.unexposed, .namespaceDecl, .linkageSpec, .namespaceAlias, .usingDirective, .usingDeclaration, .enumConstant,
     .templateTypeParameter, .nonTypeTemplateParameter, .templateTemplateParameter, .functionTemplate, .classTemplate,
     .classTemplatePartialSpecialization, .typeReference, .templateReference, .namespaceReference, .memberReference,
     .labelReference, .overloadedDeclarationReference, .variableReference, .unexposedExpression,
     .declarationReferenceExpression, .memberReferenceExpression, .callExpression]
  label
    | .unexposed => "Unexposed"
    | .namespaceDecl => "Namespace"
    | .linkageSpec => "LinkageSpec"
    | .namespaceAlias => "NamespaceAlias"
    | .usingDirective => "UsingDirective"
    | .usingDeclaration => "UsingDeclaration"
    | .enumConstant => "EnumConstant"
    | .templateTypeParameter => "TemplateTypeParameter"
    | .nonTypeTemplateParameter => "NonTypeTemplateParameter"
    | .templateTemplateParameter => "TemplateTemplateParameter"
    | .functionTemplate => "FunctionTemplate"
    | .classTemplate => "ClassTemplate"
    | .classTemplatePartialSpecialization => "ClassTemplatePartialSpecialization"
    | .typeReference => "TypeReference"
    | .templateReference => "TemplateReference"
    | .namespaceReference => "NamespaceReference"
    | .memberReference => "MemberReference"
    | .labelReference => "LabelReference"
    | .overloadedDeclarationReference => "OverloadedDeclarationReference"
    | .variableReference => "VariableReference"
    | .unexposedExpression => "UnexposedExpression"
    | .declarationReferenceExpression => "DeclarationReferenceExpression"
    | .memberReferenceExpression => "MemberReferenceExpression"
    | .callExpression => "CallExpression"

/-- The number of the cursor kind in the parser library. -/
def Named.code : Named → Int32
  | .unexposed => 1
  | .namespaceDecl => 22
  | .linkageSpec => 23
  | .namespaceAlias => 33
  | .usingDirective => 34
  | .usingDeclaration => 35
  | .enumConstant => 7
  | .templateTypeParameter => 27
  | .nonTypeTemplateParameter => 28
  | .templateTemplateParameter => 29
  | .functionTemplate => 30
  | .classTemplate => 31
  | .classTemplatePartialSpecialization => 32
  | .typeReference => 43
  | .templateReference => 45
  | .namespaceReference => 46
  | .memberReference => 47
  | .labelReference => 48
  | .overloadedDeclarationReference => 49
  | .variableReference => 50
  | .unexposedExpression => 100
  | .declarationReferenceExpression => 101
  | .memberReferenceExpression => 102
  | .callExpression => 103

/-- Literals that carry their text. -/
inductive Quoted where
  | stringLiteral
  | characterLiteral
  deriving DecidableEq, Repr

instance : Labelled Quoted where
  all :=
    [.stringLiteral, .characterLiteral]
  label
    | .stringLiteral => "StringLiteral"
    | .characterLiteral => "CharacterLiteral"

/-- The number of the cursor kind in the parser library. -/
def Quoted.code : Quoted → Int32
  | .stringLiteral => 109
  | .characterLiteral => 110

/-- Records, which may be abstract. -/
inductive RecordForm where
  | classDecl
  | structDecl
  deriving DecidableEq, Repr

instance : Labelled RecordForm where
  all :=
    [.classDecl, .structDecl]
  label
    | .classDecl => "Class"
    | .structDecl => "Struct"

/-- The number of the cursor kind in the parser library. -/
def RecordForm.code : RecordForm → Int32
  | .classDecl => 4
  | .structDecl => 2

/-- Members and bases that carry a name and an access. -/
inductive Scoped where
  | unionDecl
  | enumDecl
  | conversionFunction
  | baseSpecifier
  deriving DecidableEq, Repr

instance : Labelled Scoped where
  all :=
    [.unionDecl, .enumDecl, .conversionFunction, .baseSpecifier]
  label
    | .unionDecl => "Union"
    | .enumDecl => "Enum"
    | .conversionFunction => "ConversionFunction"
    | .baseSpecifier => "BaseSpecifier"

/-- The number of the cursor kind in the parser library. -/
def Scoped.code : Scoped → Int32
  | .unionDecl => 3
  | .enumDecl => 5
  | .conversionFunction => 26
  | .baseSpecifier => 44

/-- Declarations that carry a name and a type. -/
inductive TypedForm where
  | variable
  | parameter
  deriving DecidableEq, Repr

instance : Labelled TypedForm where
  all :=
    [.variable, .parameter]
  label
    | .variable => "Variable"
    | .parameter => "Parameter"

/-- The number of the cursor kind in the parser library. -/
def TypedForm.code : TypedForm → Int32
  | .variable => 9
  | .parameter => 10

/-- Names for other types. -/
inductive AliasForm where
  | typedef
  | typeAlias
  deriving DecidableEq, Repr

instance : Labelled AliasForm where
  all :=
    [.typedef, .typeAlias]
  label
    | .typedef => "Typedef"
    | .typeAlias => "TypeAlias"

/-- The number of the cursor kind in the parser library. -/
def AliasForm.code : AliasForm → Int32
  | .typedef => 20
  | .typeAlias => 36

/-! ## Kinds -/

inductive NodeKind where
  /-- The node that stands for a whole file. -/
  | root
  | plain (kind : Plain)
  | named (kind : Named) (name : String)
  | quoted (kind : Quoted) (value : String)
  | record (form : RecordForm) (name : String) (access : Access) (isAbstract : Bool)
  | scoped (kind : Scoped) (name : String) (access : Access)
  | field (name : String) (access : Access) (type : TypeKind)
  | function (name displayName : String) (type returnType canonicalReturnType : TypeKind)
  | method (name : String) (access : Access) (type : TypeKind) (virtuality : Virtuality)
    (returnType canonicalReturnType : TypeKind) (isStatic isConst : Bool)
  | constructor (name : String) (form : ConstructorForm) (access : Access)
  | destructor (name : String) (access : Access) (virtuality : Virtuality)
  | typed (form : TypedForm) (name : String) (type : TypeKind)
  | alias (form : AliasForm) (name : String) (underlying : TypeKind) (access : Access)
  | accessSpecifier (access : Access)
  | cStyleCast (type : TypeKind)
  /-- A cursor kind without a kind of its own here, by its number. -/
  | notSupported (name : String) (code : Int32)
  deriving DecidableEq, Repr

namespace NodeKind

/-- The label that users see. -/
def label : NodeKind → String
  | .root => "Root"
  | .named .unexposed _ => "Unexposed"
  | .named .namespaceDecl _ => "Namespace"
  | .named .linkageSpec _ => "LinkageSpec"
  | .named .namespaceAlias _ => "NamespaceAlias"
  | .named .usingDirective _ => "UsingDirective"
  | .named .usingDeclaration _ => "UsingDeclaration"
  | .record .classDecl .. => "Class"
  | .record .structDecl .. => "Struct"
  | .scoped .unionDecl .. => "Union"
  | .scoped .enumDecl .. => "Enum"
  | .named .enumConstant _ => "EnumConstant"
  | .field .. => "Field"
  | .function .. => "Function"
  | .method .. => "Method"
  | .constructor .. => "Constructor"
  | .destructor .. => "Destructor"
  | .scoped .conversionFunction .. => "ConversionFunction"
  | .typed .variable .. => "Variable"
  | .typed .parameter .. => "Parameter"
  | .alias .typedef .. => "Typedef"
  | .alias .typeAlias .. => "TypeAlias"
  | .named .templateTypeParameter _ => "TemplateTypeParameter"
  | .named .nonTypeTemplateParameter _ => "NonTypeTemplateParameter"
  | .named .templateTemplateParameter _ => "TemplateTemplateParameter"
  | .named .functionTemplate _ => "FunctionTemplate"
  | .named .classTemplate _ => "ClassTemplate"
  | .named .classTemplatePartialSpecialization _ => "ClassTemplatePartialSpecialization"
  | .accessSpecifier _ => "AccessSpecifier"
  | .named .typeReference _ => "TypeReference"
  | .scoped .baseSpecifier .. => "BaseSpecifier"
  | .named .templateReference _ => "TemplateReference"
  | .named .namespaceReference _ => "NamespaceReference"
  | .named .memberReference _ => "MemberReference"
  | .named .labelReference _ => "LabelReference"
  | .named .overloadedDeclarationReference _ => "OverloadedDeclarationReference"
  | .named .variableReference _ => "VariableReference"
  | .named .unexposedExpression _ => "UnexposedExpression"
  | .named .declarationReferenceExpression _ => "DeclarationReferenceExpression"
  | .named .memberReferenceExpression _ => "MemberReferenceExpression"
  | .named .callExpression _ => "CallExpression"
  | .plain .integerLiteral => "IntegerLiteral"
  | .plain .floatLiteral => "FloatLiteral"
  | .plain .imaginaryLiteral => "ImaginaryLiteral"
  | .quoted .stringLiteral _ => "StringLiteral"
  | .quoted .characterLiteral _ => "CharacterLiteral"
  | .plain .boolLiteral => "BoolLiteral"
  | .plain .nullPtrLiteral => "NullPtrLiteral"
  | .plain .parenExpression => "ParenExpression"
  | .plain .unaryOperator => "UnaryOperator"
  | .plain .arraySubscript => "ArraySubscript"
  | .plain .binaryOperator => "BinaryOperator"
  | .plain .compoundAssignOperator => "CompoundAssignOperator"
  | .plain .conditionalOperator => "ConditionalOperator"
  | .cStyleCast _ => "CStyleCast"
  | .plain .initializerList => "InitializerList"
  | .plain .lambdaExpr => "Lambda"
  | .plain .thisExpr => "This"
  | .plain .compoundStatement => "CompoundStatement"
  | .plain .declarationStatement => "DeclarationStatement"
  | .plain .returnStatement => "ReturnStatement"
  | .plain .ifStatement => "IfStatement"
  | .plain .switchStatement => "SwitchStatement"
  | .plain .caseStatement => "CaseStatement"
  | .plain .defaultStatement => "DefaultStatement"
  | .plain .whileStatement => "WhileStatement"
  | .plain .doStatement => "DoStatement"
  | .plain .forStatement => "ForStatement"
  | .plain .rangeBasedForStatement => "RangeBasedForStatement"
  | .plain .breakStatement => "BreakStatement"
  | .plain .continueStatement => "ContinueStatement"
  | .plain .nullStatement => "NullStatement"
  | .notSupported .. => "NotSupported"

/-- The name, or the text of a literal. -/
def name? : NodeKind → Option String
  | .named _ name | .record _ name .. | .scoped _ name _ | .field name .. | .function name .. | .method name ..
  | .constructor name .. | .destructor name .. | .typed _ name _ | .alias _ name .. | .notSupported name _ => some name
  | .quoted _ value => some value
  | .root | .plain _ | .accessSpecifier _ | .cStyleCast _ => none

/-! ## Descriptions -/

/-- A word after a space if `present`. -/
def flagText (present : Bool) (word : String) : String := if present then " " ++ word else ""

/-- What a description says after label and name. -/
def detail : NodeKind → String
  | .record _ _ access isAbstract => access.suffix ++ flagText isAbstract "abstract"
  | .scoped _ _ access => access.suffix
  | .accessSpecifier access => access.suffix
  | .field _ access type => access.suffix ++ " : " ++ type.describe
  | .alias _ _ underlying access => access.suffix ++ " = " ++ underlying.describe
  | .function _ displayName _ returnType _ => s!" ({displayName}) -> {returnType.describe}"
  | .method _ access _ virtuality returnType _ isStatic isConst =>
    access.suffix ++ virtuality.suffix ++ flagText isStatic "static" ++ flagText isConst "const" ++ " -> " ++
      returnType.describe
  | .constructor _ form access => access.suffix ++ " " ++ Labelled.label form
  | .destructor _ access virtuality => access.suffix ++ virtuality.suffix
  | .typed _ _ type => " : " ++ type.describe
  | .cStyleCast type => " : " ++ type.describe
  | .notSupported _ code => s!" (cursor kind {code.toInt})"
  | .root | .plain _ | .named .. | .quoted .. => ""

/-- One line on a node. -/
def describe (k : NodeKind) : String :=
  k.label ++ (match k.name? with | some name => if name = "" then "" else " " ++ name | none => "") ++ k.detail

end NodeKind

end SyntaxView
