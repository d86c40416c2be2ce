import CallFolding.Expr

/-!
Functions and the programs they make up. A program is a table: the function with number `i` stands
at position `i`.
-/

set_option autoImplicit false

namespace CallFolding

/-- Where a function is declared. -/
inductive Owner where
  /-- The top level of a package; the root package has the empty name. -/
  | package (name : String)
  /-- A type that the function is a member of. -/
  | type (type : Ty)
  /-- Another function that the function is local to. -/
  | function (id : FunctionId)
deriving DecidableEq

structure Parameter where
  name : String
  type : Ty
deriving DecidableEq

structure Function where
  id : FunctionId
  name : String
  owner : Owner
  /-- The type of the receiver, for functions that are called on a value. -/
  receiver : Option Ty
  parameters : List Parameter
  returnType : Ty
  /-- Missing for primitive operations and for functions defined elsewhere. -/
  body : Option Expr

namespace Function

/-- The name under which the receiver is bound while the body runs. -/
def receiverName : String := "<this>"

/-- The types of the operands: the receiver, then the parameters. -/
def operandTypes (function : Function) : List Ty :=
  function.receiver.toList ++ function.parameters.map (·.type)

/-- How many operands the function takes. -/
def arity (function : Function) : Nat :=
  (if function.receiver.isSome then 1 else 0) + function.parameters.length

/-- The names the operands are bound to, in the same order. -/
def operandNames (function : Function) : List String :=
  (function.receiver.map fun _ => receiverName).toList ++ function.parameters.map (·.name)

/-- The name with the package or type in front. Local functions have none. -/
def qualifiedName (function : Function) : String :=
  match function.owner with
  | .package name => if name.isEmpty then function.name else name ++ "." ++ function.name
  | .type type => type.qualifiedName ++ "." ++ function.name
  | .function _ => function.name

end Function

/-- The package of the operations that the compiler itself provides. -/
def intrinsicsPackage : String := "kotlin.internal.ir"

structure Program where
  functions : Array Function := #[]

namespace Program

@[inline] def function? (program : Program) (id : FunctionId) : Option Function :=
  program.functions[id.index]?

def size (program : Program) : Nat :=
  program.functions.size

/-- The first function with this simple name. -/
def find? (program : Program) (name : String) : Option Function :=
  program.functions.find? (·.name == name)

/-- The name of a function in messages: qualified, or its number if it does not exist. -/
def functionName (program : Program) (id : FunctionId) : String :=
  match program.function? id with
  | some function => function.qualifiedName
  | none => id.text

end Program

end CallFolding
