import SyntaxView.Labelled

/-!
# Types and attributes of declarations

The kinds of type that the parser library tells apart, by its numbers, and the attributes that members of a class have:
access, virtuality and the form of a constructor.
-/

namespace SyntaxView

/-! ## Kinds of type -/

/-- A kind of type with a name of its own. -/
inductive KnownType where
  | invalid
  | unexposed
  | void
  | bool
  | charU
  | unsignedChar
  | char16
  | char32
  | unsignedShort
  | unsignedInt
  | unsignedLong
  | unsignedLongLong
  | unsignedInt128
  | charS
  | signedChar
  | wideChar
  | short
  | int
  | long
  | longLong
  | int128
  | float
  | double
  | longDouble
  | nullptr
  | overload
  | dependent
  | float128
  | half
  | float16
  | shortAccum
  | accum
  | longAccum
  | unsignedShortAccum
  | unsignedAccum
  | unsignedLongAccum
  | complex
  | pointer
  | blockPointer
  | lvalueReference
  | rvalueReference
  | record
  | enum
  | typedef
  | functionNoProto
  | functionProto
  | constantArray
  | vector
  | incompleteArray
  | variableArray
  | dependentSizedArray
  | memberPointer
  | auto
  | elaborated
  | pipe
  | attributed
  deriving DecidableEq, Repr

instance : Labelled KnownType where
  all :=
    [.invalid, .unexposed, .void, .bool, .charU, .unsignedChar, .char16, .char32, .unsignedShort, .unsignedInt,
     .unsignedLong, .unsignedLongLong, .unsignedInt128, .charS, .signedChar, .wideChar, .short, .int, .long,
     .longLong, .int128, .float, .double, .longDouble, .nullptr, .overload, .dependent, .float128, .half, .float16,
     .shortAccum, .accum, .longAccum, .unsignedShortAccum, .unsignedAccum, .unsignedLongAccum, .complex, .pointer,
     .blockPointer, .lvalueReference, .rvalueReference, .record, .enum, .typedef, .functionNoProto, .functionProto,
     .constantArray, .vector, .incompleteArray, .variableArray, .dependentSizedArray, .memberPointer, .auto,
     .elaborated, .pipe, .attributed]
  label
    | .invalid => "Invalid"
    | .unexposed => "Unexposed"
    | .void => "Void"
    | .bool => "Bool"
    | .charU => "CharU"
    | .unsignedChar => "UnsignedChar"
    | .char16 => "Char16"
    | .char32 => "Char32"
    | .unsignedShort => "UnsignedShort"
    | .unsignedInt => "UnsignedInt"
    | .unsignedLong => "UnsignedLong"
    | .unsignedLongLong => "UnsignedLongLong"
    | .unsignedInt128 => "UnsignedInt128"
    | .charS => "CharS"
    | .signedChar => "SignedChar"
    | .wideChar => "WideChar"
    | .short => "Short"
    | .int => "Int"
    | .long => "Long"
    | .longLong => "LongLong"
    | .int128 => "Int128"
    | .float => "Float"
    | .double => "Double"
    | .longDouble => "LongDouble"
    | .nullptr => "Nullptr"
    | .overload => "Overload"
    | .dependent => "Dependent"
    | .float128 => "Float128"
    | .half => "Half"
    | .float16 => "Float16"
    | .shortAccum => "ShortAccum"
    | .accum => "Accum"
    | .longAccum => "LongAccum"
    | .unsignedShortAccum => "UnsignedShortAccum"
    | .unsignedAccum => "UnsignedAccum"
    | .unsignedLongAccum => "UnsignedLongAccum"
    | .complex => "Complex"
    | .pointer => "Pointer"
    | .blockPointer => "BlockPointer"
    | .lvalueReference => "LValueReference"
    | .rvalueReference => "RValueReference"
    | .record => "Record"
    | .enum => "Enum"
    | .typedef => "Typedef"
    | .functionNoProto => "FunctionNoProto"
    | .functionProto => "FunctionProto"
    | .constantArray => "ConstantArray"
    | .vector => "Vector"
    | .incompleteArray => "IncompleteArray"
    | .variableArray => "VariableArray"
    | .dependentSizedArray => "DependentSizedArray"
    | .memberPointer => "MemberPointer"
    | .auto => "Auto"
    | .elaborated => "Elaborated"
    | .pipe => "Pipe"
    | .attributed => "Attributed"

/-- The number of the kind in the parser library. -/
def KnownType.code : KnownType → Int32
  | .invalid => 0
  | .unexposed => 1
  | .void => 2
  | .bool => 3
  | .charU => 4
  | .unsignedChar => 5
  | .char16 => 6
  | .char32 => 7
  | .unsignedShort => 8
  | .unsignedInt => 9
  | .unsignedLong => 10
  | .unsignedLongLong => 11
  | .unsignedInt128 => 12
  | .charS => 13
  | .signedChar => 14
  | .wideChar => 15
  | .short => 16
  | .int => 17
  | .long => 18
  | .longLong => 19
  | .int128 => 20
  | .float => 21
  | .double => 22
  | .longDouble => 23
  | .nullptr => 24
  | .overload => 25
  | .dependent => 26
  | .float128 => 30
  | .half => 31
  | .float16 => 32
  | .shortAccum => 33
  | .accum => 34
  | .longAccum => 35
  | .unsignedShortAccum => 36
  | .unsignedAccum => 37
  | .unsignedLongAccum => 38
  | .complex => 100
  | .pointer => 101
  | .blockPointer => 102
  | .lvalueReference => 103
  | .rvalueReference => 104
  | .record => 105
  | .enum => 106
  | .typedef => 107
  | .functionNoProto => 110
  | .functionProto => 111
  | .constantArray => 112
  | .vector => 113
  | .incompleteArray => 114
  | .variableArray => 115
  | .dependentSizedArray => 116
  | .memberPointer => 117
  | .auto => 118
  | .elaborated => 119
  | .pipe => 120
  | .attributed => 163

inductive TypeKind where
  | known (type : KnownType)
  /-- A kind without a name here, by its number. -/
  | notSupported (code : Int32)
  deriving DecidableEq, Repr

namespace TypeKind

/-- The kind of a number in the parser library. -/
def ofCode (n : Int32) : TypeKind :=
  match (Labelled.all : List KnownType).find? fun t => t.code == n with
  | some t => .known t
  | none => .notSupported n

def describe : TypeKind → String
  | .known t => Labelled.label t
  | .notSupported n => s!"NotSupported({n.toInt})"

end TypeKind

/-! ## Access -/

inductive Access where
  /-- Not a member of a class. -/
  | invalid
  | publicAccess
  | protectedAccess
  | privateAccess
  deriving DecidableEq, Repr

instance : Labelled Access where
  all := [.invalid, .publicAccess, .protectedAccess, .privateAccess]
  label
    | .invalid => "Invalid"
    | .publicAccess => "Public"
    | .protectedAccess => "Protected"
    | .privateAccess => "Private"

/-- The access of a number in the parser library. -/
def Access.ofCode (n : Int32) : Access :=
  if n = 1 then .publicAccess else if n = 2 then .protectedAccess else if n = 3 then .privateAccess else .invalid

/-- What a description says of the access. -/
def Access.suffix : Access → String
  | .invalid => ""
  | .publicAccess => " public"
  | .protectedAccess => " protected"
  | .privateAccess => " private"

/-! ## Virtuality -/

inductive Virtuality where
  | nonVirtual
  | virtual
  | pureVirtual
  deriving DecidableEq, Repr

instance : Labelled Virtuality where
  all := [.nonVirtual, .virtual, .pureVirtual]
  label
    | .nonVirtual => "NonVirtual"
    | .virtual => "Virtual"
    | .pureVirtual => "PureVirtual"

/-- A pure method counts as pure whether or not it is said to be virtual. -/
def Virtuality.ofFlags (isPure isVirtual : Bool) : Virtuality :=
  if isPure then .pureVirtual else if isVirtual then .virtual else .nonVirtual

/-- What a description says of the virtuality. -/
def Virtuality.suffix : Virtuality → String
  | .nonVirtual => ""
  | .virtual => " virtual"
  | .pureVirtual => " pure-virtual"

/-! ## Constructors -/

inductive ConstructorForm where
  | none
  | converting
  | copy
  | default
  | move
  deriving DecidableEq, Repr

instance : Labelled ConstructorForm where
  all := [.none, .converting, .copy, .default, .move]
  label
    | .none => "None"
    | .converting => "Converting"
    | .copy => "Copy"
    | .default => "Default"
    | .move => "Move"

/-- Of several forms that apply the first in this order counts: copy, move, default, converting. -/
def ConstructorForm.ofFlags (isCopy isMove isDefault isConverting : Bool) : ConstructorForm :=
  if isCopy then .copy else if isMove then .move else if isDefault then .default
  else if isConverting then .converting else .none

end SyntaxView
