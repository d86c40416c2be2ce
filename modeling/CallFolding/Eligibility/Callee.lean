import CallFolding.Program.Basic

/-!
What a call means: a function whose name carries the marker is run, a supported primitive
operation is applied, and nothing is done about any other function.
-/

set_option autoImplicit false

namespace CallFolding

/-- How calls of a function are treated. -/
inductive CalleeClass where
  /-- The name carries the marker: the body is evaluated. -/
  | marked
  /-- A supported primitive operation. -/
  | primitive
  | other
deriving DecidableEq

namespace Function

/-- The supported members of truth values, characters and numbers. -/
def primitiveOperations : List String :=
  ["plus", "minus", "times", "div", "rem", "less", "lessOrEqual", "greater", "greaterOrEqual",
    "not", "and", "or", "xor", "shl", "shr", "ushr", "inv", "unaryMinus", "unaryPlus", "equals",
    "compareTo", "toString", "toChar", "toByte", "toShort", "toInt", "toLong", "toFloat",
    "toDouble"]

/-- The supported members of strings. -/
def stringOperations : List String :=
  ["length", "plus", "get", "compareTo", "equals", "toString"]

/-- The supported operations of the compiler. -/
def intrinsicOperations : List String :=
  ["less", "lessOrEqual", "greater", "greaterOrEqual", "EQEQ", "ieee754equals", "ANDAND", "OROR"]

/-- Whether the owner and the name are those of a supported primitive operation. -/
def isSupported (function : Function) : Bool :=
  match function.owner with
  | .type type =>
    match type.kind with
    | .string => stringOperations.contains function.name
    | kind => kind.isPrimitive && primitiveOperations.contains function.name
  | .package name => name == intrinsicsPackage && intrinsicOperations.contains function.name
  | .function _ => false

/-- Whether the name starts with the marker. -/
def isMarked (function : Function) (marker : String) : Bool :=
  marker.toList.isPrefixOf function.name.toList

/-- A supported operation without a body is a primitive one even if its name carries the
marker. -/
def classify (function : Function) (marker : String) : CalleeClass :=
  if function.body.isNone && function.isSupported then .primitive
  else if function.isMarked marker then .marked
  else .other

end Function

end CallFolding
