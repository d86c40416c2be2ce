import CallFolding.Eligibility.Callee
import CallFolding.Evaluation.Run

/-!
Evaluation of calls. Operands are evaluated first, the receiver before the arguments, in the
variables of the caller; the body of a marked function runs in an activation of its own.

Evaluation always ends. Within one body it follows the tree, loops are bounded by the steps that
are left, and calls by `room`, the number of activations that can still be opened.
-/

set_option autoImplicit false

namespace CallFolding

/-- What an evaluation is about and how far it may go. -/
structure Setting where
  program : Program
  /-- What the names of functions that may be run start with. -/
  marker : String
  limits : Limits

/-- How a call ends when the body of its function ends like this. It takes the returns of its
function as its value. Without one, only a function that has nothing to return may come to its
end. -/
@[inline] def Run.endOfCall (function : Function) : Outcome Literal → Outcome Literal
  | .error (.returned target value) m =>
    if target = function.id then .ok value m else .error (.returned target value) m
  | .ok value m =>
    if function.returnType = .unit then .ok value m
    else .error (.failed (.defect (.missingReturn function.qualifiedName))) m
  | .error exit m => .error exit m

namespace Setting

/-- Binds operands to the names of a function, one after the other. -/
def bindOperands : List (String × Literal) → Run Unit
  | [] => pure ()
  | (name, value) :: rest => do
    Run.define name value
    bindOperands rest

/-- Takes the returns of a function. -/
@[inline] def catchReturn (function : Function) (run : Run Literal) : Run Literal := fun m =>
  Run.endOfCall function (run m)

/-- Runs the body of a function on values for its operands. -/
@[inline] def activate (function : Function) (values : List Literal) (body : Run Literal) :
    Run Literal :=
  catchReturn function <| Run.inActivation do
    bindOperands (function.operandNames.zip values)
    body

/-- Calls a marked function. `descend` runs bodies one activation deeper, if there is room for
one. -/
@[inline] def callMarked (setting : Setting) (descend : Option (Expr → Run Literal))
    (function : Function) (operands : List (Run Literal)) : Run Literal :=
  match descend, function.body with
  | none, _ => Run.fail (.limit (.depth setting.limits.depth))
  | some _, none => Run.defect (.missingBody function.qualifiedName)
  | some run, some body => do
    let values ← Run.values operands
    activate function values (run body)

/-- The value of the first operand that settles a logical operation without the second. -/
def decisive? (function : Function) : Option Bool :=
  match function.owner with
  | .package name =>
    if name = intrinsicsPackage then
      match function.name with
      | "ANDAND" => some false
      | "OROR" => some true
      | _ => none
    else none
  | _ => none

/-- Values for parameters, each with the type declared for it. -/
def arguments : List Parameter → List Literal → List Operand
  | parameter :: parameters, value :: values =>
    ⟨parameter.type, value⟩ :: arguments parameters values
  | _, _ => []

/-- Values for the operands of a function, each with the type declared for it. -/
def operands (function : Function) (values : List Literal) : List Operand :=
  match function.receiver, values with
  | some type, value :: values => ⟨type, value⟩ :: arguments function.parameters values
  | _, values => arguments function.parameters values

/-- Applies a primitive operation to values. -/
@[inline] def applyPrimitive (function : Function) (values : List Literal) : Run Literal :=
  match dispatch function.name (operands function values) with
  | .ok value => pure value
  | .error error => Run.fail (.ofOperation error)

/-- Calls a primitive operation. A logical one may be settled by its first operand. -/
def callPrimitive (function : Function) : List (Run Literal) → Run Literal
  | [] => applyPrimitive function []
  | first :: rest => do
    let value ← first
    if (decisive? function).any (value.boolean? == some ·) then return value
    else
      let values ← Run.values rest
      applyPrimitive function (value :: values)

/-- Calls a function, given the runs of its operands. -/
@[inline] def call (setting : Setting) (descend : Option (Expr → Run Literal)) (id : FunctionId)
    (operands : List (Run Literal)) : Run Literal :=
  match setting.program.function? id with
  | none => Run.defect (.unknownFunction id)
  | some function =>
    if operands.length ≠ function.arity then
      Run.defect (.arityMismatch function.qualifiedName function.arity operands.length)
    else
      match function.classify setting.marker with
      | .marked => setting.callMarked descend function operands
      | .primitive => callPrimitive function operands
      | .other => Run.defect (.unsupportedCallee function.qualifiedName)

variable (setting : Setting)

mutual

/-- The run of an expression. `descend` runs bodies one activation deeper. -/
def evalExpr (descend : Option (Expr → Run Literal)) : Expr → Run Literal
  | .const value => pure value
  | .read name _ => Run.read name
  | .declare name _ none => Run.defect (.missingInitializer name)
  | .declare name _ (some init) => do
    let value ← evalExpr descend init
    Run.define name value
    return value
  | .assign name _ value => do
    let value ← evalExpr descend value
    Run.assign name value
    return value
  | .call id none args => setting.call descend id (evalEach descend args)
  | .call id (some receiver) args =>
    setting.call descend id (evalExpr descend receiver :: evalEach descend args)
  | .block statements => Run.inFrame (Run.inOrder .unit (evalEach descend statements))
  | .branch arms => Run.inFrame (Run.firstTrue (evalArms descend arms))
  | .loop .testFirst id _ test body =>
    Run.inFrame (Run.testFirst setting.limits id (evalExpr descend test) (evalBody descend body))
  | .loop .testLast id _ test body =>
    Run.inFrame (Run.testLast setting.limits id (evalExpr descend test) (evalBody descend body))
  | .returnFrom target value => do
    let value ← evalExpr descend value
    throw (.returned target value)
  | .breakLoop target => throw (.broke target)
  | .continueLoop target => throw (.continued target)

def evalEach (descend : Option (Expr → Run Literal)) : List Expr → List (Run Literal)
  | [] => []
  | e :: es => evalExpr descend e :: evalEach descend es

def evalArms (descend : Option (Expr → Run Literal)) :
    List (Expr × Expr) → List (Run Literal × Run Literal)
  | [] => []
  | (test, result) :: arms =>
    (evalExpr descend test, evalExpr descend result) :: evalArms descend arms

/-- The statements of one pass through a loop. A block stands for its statements: they run in the
frame of the pass. -/
def evalBody (descend : Option (Expr → Run Literal)) : Option Expr → List (Run Literal)
  | none => []
  | some (.block statements) => evalEach descend statements
  | some e => [evalExpr descend e]

end

/-- The run of an expression when `room` more activations can be opened. -/
def evalAt : Nat → Expr → Run Literal
  | 0 => evalExpr setting none
  | room + 1 => evalExpr setting (some (evalAt room))

/-- The run of an expression in the activations that are open. -/
def eval (e : Expr) : Run Literal := fun m =>
  setting.evalAt (setting.limits.room m.scope.depth) e m

/-- How an exit looks from outside: whatever is still on its way has missed what it was meant
for. -/
def escape : Exit → Failure
  | .returned target _ => .defect (.escapedReturn target)
  | .broke target => .defect (.escapedJump target)
  | .continued target => .defect (.escapedJump target)
  | .failed cause => cause

end Setting

/-- What is seen of the end from outside. -/
def Outcome.result : Outcome Literal → Except Failure Literal
  | .ok value _ => .ok value
  | .error exit _ => .error (Setting.escape exit)

namespace Setting

variable (setting : Setting)

/-- Evaluates a call in the given state, and says what state is left. -/
def evalCallFrom (call : Call) (m : Machine) : Except Failure Literal × Machine :=
  let x : Outcome Literal := setting.eval call.expr m
  (x.result, x.machine)

/-- Evaluates a call on its own. -/
def evalCall (call : Call) : Except Failure Literal :=
  (setting.evalCallFrom call {}).1

end Setting

end CallFolding
