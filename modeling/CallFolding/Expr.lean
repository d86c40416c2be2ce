import CallFolding.Literal.Basic

/-!
Expressions. Statements and expressions are one type: a function body is a block, and a block has
the value of its last statement.

Functions and loops are referred to by number, so that functions can call each other in any order
and a jump can name its loop.
-/

set_option autoImplicit false

namespace CallFolding

/-- The number of a function in its program. -/
structure FunctionId where
  index : Nat
deriving DecidableEq

/-- The identity of a loop, which `break` and `continue` name. -/
structure LoopId where
  index : Nat
deriving DecidableEq

def FunctionId.text (id : FunctionId) : String :=
  "fn#" ++ toString id.index

def LoopId.text (id : LoopId) : String :=
  "loop#" ++ toString id.index

/-- Whether a loop tests its condition before or after its body. -/
inductive LoopKind where
  | testFirst
  | testLast
deriving DecidableEq

/-- A node of the tree. -/
inductive Expr where
  | const (value : Literal)
  /-- The value of a variable of the function `owner`. -/
  | read (name : String) (owner : FunctionId)
  /-- Introduces a local variable in the innermost scope. -/
  | declare (name : String) (type : Ty) (init : Option Expr)
  /-- Gives a variable of the function `owner` another value. -/
  | assign (name : String) (owner : FunctionId) (value : Expr)
  /-- Calls a function. The receiver, if there is one, is its first operand. -/
  | call (callee : FunctionId) (receiver : Option Expr) (args : List Expr)
  | block (statements : List Expr)
  /-- Conditions with results, tried in order until a condition is true. -/
  | branch (arms : List (Expr × Expr))
  | loop (kind : LoopKind) (id : LoopId) (label : Option String) (condition : Expr)
    (body : Option Expr)
  /-- Ends the activation of `target` with a value. -/
  | returnFrom (target : FunctionId) (value : Expr)
  | breakLoop (target : LoopId)
  | continueLoop (target : LoopId)

instance : Inhabited Expr := ⟨.const .unit⟩

/-- A call, taken out of the tree. -/
structure Call where
  callee : FunctionId
  receiver : Option Expr
  args : List Expr

namespace Call

/-- The receiver followed by the arguments. -/
def operands (call : Call) : List Expr :=
  call.receiver.toList ++ call.args

def expr (call : Call) : Expr :=
  .call call.callee call.receiver call.args

end Call

namespace Expr

def call? : Expr → Option Call
  | call callee receiver args => some ⟨callee, receiver, args⟩
  | _ => none

def const? : Expr → Option Literal
  | const value => some value
  | _ => none

end Expr

end CallFolding
