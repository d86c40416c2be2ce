import CallFolding.Eligibility.Callee
import CallFolding.Eligibility.Trail

/-!
Which calls can be evaluated.

The walk goes through the operands of a call and the bodies of all marked functions it reaches, and
stops at the first thing that evaluation does not support. It carries a trail. A marked function
that is on the trail is not entered again, so recursive functions are walked once; and the trail
tells whether a variable or a return belongs to the function being walked and a jump to a loop of
it.

The walk ends because a function is entered only if it is not on the trail: each time one fewer is
left outside. `room` is that number, and when it is zero there is nothing left to enter.
-/

set_option autoImplicit false

namespace CallFolding

/-- Why a call cannot be evaluated. -/
inductive Rejection where
  | unknownFunction (id : FunctionId)
  | unsupported (function : String)
  | missingBody (function : String)
  | nonConstantSignature (function : String)
  | arityMismatch (function : String) (expected found : Nat)
  | uninitializedVariable (name : String)
  | nonConstantVariable (name : String)
  | foreignVariable (name : String) (owner : FunctionId)
  | foreignReturn (target : FunctionId)
  | foreignJump (target : LoopId)
deriving DecidableEq

def Rejection.message : Rejection → String
  | unknownFunction id => "call to unknown function " ++ id.text
  | unsupported function =>
    function ++ " is neither marked nor a supported primitive operation"
  | missingBody function => function ++ " has no body"
  | nonConstantSignature function =>
    function ++ " has a parameter, receiver or return type that is not a constant type"
  | arityMismatch function expected found =>
    function ++ " takes " ++ toString expected ++ " operands but is called with " ++ toString found
  | uninitializedVariable name => "variable '" ++ name ++ "' has no initializer"
  | nonConstantVariable name => "variable '" ++ name ++ "' does not have a constant type"
  | foreignVariable name owner =>
    "variable '" ++ name ++ "' belongs to " ++ owner.text ++ ", outside the evaluated code"
  | foreignReturn target => "return from " ++ target.text ++ ", outside the evaluated code"
  | foreignJump target => "jump to " ++ target.text ++ ", outside the evaluated code"

/-- What a walk finds: nothing, or the first reason to reject. -/
abbrev Checked := Except Rejection Unit

/-- A walk through a part of a program, from the end of a trail. -/
abbrev Walk := Trail → Checked

namespace Eligibility

/-- Fails with a reason unless a condition holds. -/
def require (condition : Bool) (reason : Rejection) : Checked :=
  if condition then .ok () else .error reason

/-- One walk after the other, from the same place, up to the first reason to reject. -/
def inOrder : List Walk → Walk
  | [], _ => .ok ()
  | first :: rest, trail => do
    first trail
    inOrder rest trail

/-- The function that a call names. -/
def callee (program : Program) (id : FunctionId) : Except Rejection Function :=
  match program.function? id with
  | some function => .ok function
  | none => .error (.unknownFunction id)

/-- Whether the operands and the result of a function have constant types. -/
def hasConstantSignature (function : Function) : Bool :=
  function.operandTypes.all (·.isConstant) && function.returnType.isConstant

/-- Walks through the body of a marked function, unless that is under way already. -/
def enterFunction (enter : Expr → Walk) (function : Function) : Walk := fun trail =>
  if trail.contains (.function function.id) then .ok ()
  else do
    require (hasConstantSignature function) (.nonConstantSignature function.qualifiedName)
    match function.body with
    | some body => enter body (.function function.id :: trail)
    | none => .error (.missingBody function.qualifiedName)

/-- Walks through a call, given the walks through its operands and how to walk through bodies. The
operands come before the callee. -/
def checkCall (program : Program) (marker : String) (enter : Expr → Walk) (id : FunctionId)
    (operands : List Walk) : Walk := fun trail => do
  let function ← callee program id
  require (operands.length == function.arity)
    (.arityMismatch function.qualifiedName function.arity operands.length)
  inOrder operands trail
  match function.classify marker with
  | .primitive => .ok ()
  | .other => .error (.unsupported function.qualifiedName)
  | .marked => enterFunction enter function trail

variable (program : Program) (marker : String)

mutual

/-- Walks through an expression; `enter` walks through the body of a function. -/
def checkExpr (enter : Expr → Walk) : Expr → Walk
  | .const _ => fun _ => .ok ()
  | .read name owner => fun trail =>
    require (trail.currentFunction? == some owner) (.foreignVariable name owner)
  | .declare name _ none => fun _ => .error (.uninitializedVariable name)
  | .declare name type (some init) => fun trail => do
    require type.isConstant (.nonConstantVariable name)
    checkExpr enter init trail
  | .assign name owner value => fun trail => do
    require (trail.currentFunction? == some owner) (.foreignVariable name owner)
    checkExpr enter value trail
  | .call id receiver args =>
    checkCall program marker enter id (checkOption enter receiver ++ checkEach enter args)
  | .block statements => inOrder (checkEach enter statements)
  | .branch arms => inOrder (checkArms enter arms)
  | .loop _ id _ condition body => fun trail => do
    checkExpr enter condition (.loop id :: trail)
    inOrder (checkOption enter body) (.loop id :: trail)
  | .returnFrom target value => fun trail => do
    require (trail.currentFunction? == some target) (.foreignReturn target)
    checkExpr enter value trail
  | .breakLoop target => fun trail => require (trail.isInLoop target) (.foreignJump target)
  | .continueLoop target => fun trail => require (trail.isInLoop target) (.foreignJump target)

def checkOption (enter : Expr → Walk) : Option Expr → List Walk
  | none => []
  | some e => [checkExpr enter e]

def checkEach (enter : Expr → Walk) : List Expr → List Walk
  | [] => []
  | e :: es => checkExpr enter e :: checkEach enter es

def checkArms (enter : Expr → Walk) : List (Expr × Expr) → List Walk
  | [] => []
  | (condition, result) :: arms =>
    checkExpr enter condition :: checkExpr enter result :: checkArms enter arms

end

/-- Walks through an expression when at most `room` functions are not on the trail. -/
def checkAt : Nat → Expr → Walk
  | 0 => checkExpr program marker fun _ _ => .ok ()
  | room + 1 => checkExpr program marker (checkAt room)

/-- Whether a call to a marked function and everything it reaches can be evaluated, and if not, the
first reason why. A call to anything else is not a candidate. -/
def check (call : Call) : Checked := do
  let function ← callee program call.callee
  require (function.classify marker == .marked) (.unsupported function.qualifiedName)
  checkAt program marker program.size call.expr []

end Eligibility

end CallFolding
