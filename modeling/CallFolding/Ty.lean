/-!
Declared types. Nothing here is inferred: every type is written down by whoever built the tree,
and primitive operations are told apart by the qualified names below, so `Ty.qualifiedName` is
part of what the library promises.

A type is a kind and a nullability mark. Two types are the same exactly when both agree, which is
why a class that happens to be called `kotlin.Int` is still not the builtin integer type.
-/

set_option autoImplicit false

namespace CallFolding

/-- What values a type holds, its nullability left aside. -/
inductive Kind where
  | boolean
  | char
  | byte
  | short
  | int
  | long
  | float
  | double
  | uByte
  | uShort
  | uInt
  | uLong
  | string
  | unit
  | any
  /-- Any other class, by its qualified name. -/
  | named (name : String)
deriving DecidableEq

namespace Kind

/-- The kinds that have a name of their own. -/
def builtins : List Kind :=
  [boolean, char, byte, short, int, long, float, double, uByte, uShort, uInt, uLong, string, unit,
    any]

/-- The qualified name without a nullability mark. -/
def qualifiedName : Kind → String
  | boolean => "kotlin.Boolean"
  | char => "kotlin.Char"
  | byte => "kotlin.Byte"
  | short => "kotlin.Short"
  | int => "kotlin.Int"
  | long => "kotlin.Long"
  | float => "kotlin.Float"
  | double => "kotlin.Double"
  | uByte => "kotlin.UByte"
  | uShort => "kotlin.UShort"
  | uInt => "kotlin.UInt"
  | uLong => "kotlin.ULong"
  | string => "kotlin.String"
  | unit => "kotlin.Unit"
  | any => "kotlin.Any"
  | named name => name

/-- The builtin kind with this qualified name. -/
def ofQualifiedName? (name : String) : Option Kind :=
  builtins.find? fun kind => kind.qualifiedName == name

def isUnsigned : Kind → Bool
  | uByte | uShort | uInt | uLong => true
  | _ => false

/-- Truth values, characters and numbers: the kinds with primitive operators. -/
def isPrimitive : Kind → Bool
  | boolean | char | byte | short | int | long | float | double => true
  | kind => kind.isUnsigned

end Kind

/-- A declared type. -/
structure Ty where
  kind : Kind
  nullable : Bool := false
deriving DecidableEq

namespace Ty

def boolean : Ty := ⟨.boolean, false⟩
def int : Ty := ⟨.int, false⟩
def string : Ty := ⟨.string, false⟩
def unit : Ty := ⟨.unit, false⟩
/-- The type that every value has. -/
def anything : Ty := ⟨.any, true⟩

def isPrimitive (type : Ty) : Bool :=
  type.kind.isPrimitive

def isUnsigned (type : Ty) : Bool :=
  type.kind.isUnsigned

def isString (type : Ty) : Bool :=
  type.kind == .string

/-- Whether values of this type can be held during evaluation and put back into a tree as
literals. A nullable type cannot: no literal stands for the missing value. -/
def isConstant (type : Ty) : Bool :=
  !type.nullable && (type.isPrimitive || type.isString)

/-- The qualified name, with a question mark at the end if the type is nullable. -/
def qualifiedName (type : Ty) : String :=
  if type.nullable then type.kind.qualifiedName ++ "?" else type.kind.qualifiedName

/-- The name shown to a reader: the package of the builtin kinds is left out. -/
def shortName (type : Ty) : String :=
  match "kotlin.".toList.isPrefixOf? type.qualifiedName.toList with
  | some rest => String.ofList rest
  | none => type.qualifiedName

/-- Reads the qualified name of a builtin kind. At most one question mark is taken as the
nullability mark, and names of classes are not read. -/
def ofQualifiedName? (name : String) : Option Ty :=
  match "?".toList.isSuffixOf? name.toList with
  | some base => (Kind.ofQualifiedName? (String.ofList base)).map (⟨·, true⟩)
  | none => (Kind.ofQualifiedName? name).map (⟨·, false⟩)

end Ty

end CallFolding
