import CallFolding.Evaluation.Limits
import CallFolding.Expr
import CallFolding.Operation.Dispatch
import CallFolding.Scope

/-!
How an evaluation can fail.

Running out of steps or depth, and operations that would throw, are no fault of the program: the
call is left alone. A defect means that the tree does not hold together; a call that was found
eligible should not have any.
-/

set_option autoImplicit false

namespace CallFolding

/-- What is wrong with a tree. -/
inductive Defect where
  | bind (cause : BindError)
  | pop (cause : PopError)
  | operation (cause : OperationError)
  | unknownFunction (id : FunctionId)
  | unsupportedCallee (function : String)
  | missingBody (function : String)
  | arityMismatch (function : String) (expected found : Nat)
  | nonBooleanCondition (value : String)
  | missingInitializer (name : String)
  | missingReturn (function : String)
  | escapedReturn (target : FunctionId)
  | escapedJump (target : LoopId)
deriving DecidableEq

def Defect.message : Defect → String
  | bind cause => cause.message
  | pop cause => cause.message
  | operation cause => cause.message
  | unknownFunction id => "call to unknown function " ++ id.text
  | unsupportedCallee function => function ++ " is neither a marker function nor a builtin"
  | missingBody function => "function " ++ function ++ " has no body"
  | arityMismatch function expected found =>
    function ++ " expects " ++ toString expected ++ " operands, got " ++ toString found
  | nonBooleanCondition value => "condition evaluated to " ++ value ++ ", expected a boolean"
  | missingInitializer name => "variable '" ++ name ++ "' declared without an initializer"
  | missingReturn function => function ++ " finished without returning a value"
  | escapedReturn target => "return to " ++ target.text ++ " escaped its activation"
  | escapedJump target => "jump to " ++ target.text ++ " escaped its loop"

/-- Why a call has no value. -/
inductive Failure where
  | limit (cause : LimitExceeded)
  | fault (cause : Fault)
  | defect (cause : Defect)
deriving DecidableEq

namespace Failure

def message : Failure → String
  | limit cause => cause.message
  | fault cause => cause.message
  | defect cause => cause.message

/-- Whether it is enough to leave the call alone. -/
def isRecoverable : Failure → Bool
  | limit _ | fault _ => true
  | defect _ => false

/-- A fault of an operation is one of the program; anything else is a defect. -/
def ofOperation : OperationError → Failure
  | .fault cause => fault cause
  | error => defect (.operation error)

end Failure

end CallFolding
