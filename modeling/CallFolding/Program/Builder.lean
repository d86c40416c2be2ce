import CallFolding.Program.Basic

/-!
Building programs step by step. Functions are numbered in the order they are created, and loops in
the order they are asked for.

Primitive operations are shared: asking twice for the same owner, name and parameter types gives
the same function. The shorthands at the end ask for the operation they need when they are used,
after their operands were built, so the order of building fixes the numbers.
-/

set_option autoImplicit false

namespace CallFolding

/-- What tells one shared operation from another. -/
structure OperationKey where
  owner : Owner
  name : String
  parameterTypes : List Ty
deriving DecidableEq

/-- A program under construction. -/
structure Builder where
  functions : Array Function := #[]
  /-- The shared operations so far. -/
  operations : List (OperationKey × FunctionId) := []
  /-- The number of the next loop. It starts again at zero after the greatest of 32 bits. -/
  nextLoop : UInt32 := 0

/-- A step that may add to the program. -/
abbrev Build := StateM Builder

namespace Build

/-- Runs the steps on an empty program. -/
def run {α : Type} (build : Build α) : α × Program :=
  let (value, builder) := StateT.run (m := Id) build {}
  (value, ⟨builder.functions⟩)

/-! ## Functions and loops -/

/-- Adds a function without a body. -/
def declareIn (owner : Owner) (receiver : Option Ty) (name : String)
    (parameters : List (String × Ty)) (returnType : Ty) : Build FunctionId :=
  modifyGet fun b =>
    let id : FunctionId := ⟨b.functions.size⟩
    let parameters := parameters.map fun (name, type) => ⟨name, type⟩
    (id, { b with
      functions := b.functions.push ⟨id, name, owner, receiver, parameters, returnType, none⟩ })

/-- Adds a function to the root package. -/
def declare (name : String) (parameters : List (String × Ty)) (returnType : Ty) :
    Build FunctionId :=
  declareIn (.package "") none name parameters returnType

/-- Adds a function local to another one. -/
def declareLocal (parent : FunctionId) (name : String) (parameters : List (String × Ty))
    (returnType : Ty) : Build FunctionId :=
  declareIn (.function parent) none name parameters returnType

/-- Gives a function its body, in place of the one it had. There has to be such a function. -/
def define (id : FunctionId) (body : Expr) : Build Unit :=
  modify fun b => { b with
    functions := b.functions.modify id.index fun function => { function with body := some body } }

/-- The shared operation with this key, added if it is new. -/
def operation (key : OperationKey) (receiver : Option Ty) (returnType : Ty) : Build FunctionId := do
  match (← get).operations.lookup key with
  | some id => return id
  | none =>
    let parameters := key.parameterTypes.zipIdx.map fun (type, i) => ("p" ++ toString i, type)
    let id ← declareIn key.owner receiver key.name parameters returnType
    modify fun b => { b with operations := (key, id) :: b.operations }
    return id

/-- A primitive operation that is a member of a type. -/
def member (owner : Ty) (name : String) (parameterTypes : List Ty) (returnType : Ty) :
    Build FunctionId :=
  operation ⟨.type owner, name, parameterTypes⟩ (some owner) returnType

/-- A primitive operation that the compiler provides. -/
def intrinsic (name : String) (parameterTypes : List Ty) (returnType : Ty) : Build FunctionId :=
  operation ⟨.package intrinsicsPackage, name, parameterTypes⟩ none returnType

/-- A loop identity. It was not given out before, unless all were. -/
def newLoop : Build LoopId :=
  modifyGet fun b => (⟨b.nextLoop.toNat⟩, { b with nextLoop := b.nextLoop + 1 })

/-! ## Shorthands -/

/-- An operation on two integers with an integer as its result. -/
def intOp (name : String) (left right : Expr) : Build Expr := do
  let callee ← member .int name [.int] .int
  return .call callee (some left) [right]

/-- An order test of two integers. -/
def intTest (name : String) (left right : Expr) : Build Expr := do
  let callee ← intrinsic name [.int, .int] .boolean
  return .call callee none [left, right]

/-- The test whether two values are the same. -/
def sameTest (left right : Expr) : Build Expr := do
  let callee ← intrinsic "EQEQ" [.anything, .anything] .boolean
  return .call callee none [left, right]

/-- The opposite truth value. -/
def negation (operand : Expr) : Build Expr := do
  let callee ← member .boolean "not" [] .boolean
  return .call callee (some operand) []

/-- Adds to an integer variable. -/
def addTo (owner : FunctionId) (name : String) (amount : Expr) : Build Expr := do
  return .assign name owner (← intOp "plus" (.read name owner) amount)

end Build

namespace Expr

def int (n : Int) : Expr :=
  .const (.int (Int32.ofInt n))

def bool (b : Bool) : Expr :=
  .const (.boolean b)

def text (s : String) : Expr :=
  .const (.string s)

/-- The receiver of the function `owner`. -/
def receiver (owner : FunctionId) : Expr :=
  .read Function.receiverName owner

/-- A branch with one arm. -/
def ifThen (condition result : Expr) : Expr :=
  .branch [(condition, result)]

/-- A branch with a second arm that is always taken if the first is not. -/
def ifThenElse (condition result otherwise : Expr) : Expr :=
  .branch [(condition, result), (bool true, otherwise)]

end Expr

end CallFolding
