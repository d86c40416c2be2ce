import CallFolding.Evaluation.Eval

/-!
Evaluation one step at a time.

The evaluator is a function of the tree, so that it ends is part of how it is written: a loop is
given its number of rounds beforehand, and a body the room for its activation. Here is a machine
that is given neither. It keeps a stack of tasks; a loop goes on as long as its rounds ask for more,
and whether a call may go deeper is decided by the activations that are open at that moment. Nothing
in it says that it ever stops.

The machine is told how to count a step. With a counter of 64 bits it is how a call is evaluated
(`Setting.evalCallFrom?`). The limit may then be the greatest number that the counter has, which
it never exceeds, and an endless loop is one.
-/

set_option autoImplicit false

namespace CallFolding

/-- The statements of a pass through the body of a loop. A block stands for its statements. -/
def Expr.statements : Option Expr → List Expr
  | none => []
  | some (block es) => es
  | some e => [e]

/-- Counts a step if a pass went through. -/
@[inline] def Run.countBy (charge : Run Unit) (through : Bool) : Run Bool :=
  if through then do
    charge
    pure true
  else pure false

namespace Stepwise

/-- What the values of operands are for. -/
inductive Use where
  /-- To run the body of a marked function on them. -/
  | body (function : Function) (body : Expr)
  /-- To apply a primitive operation to them. -/
  | primitive (function : Function)

/-- What is left to be done once a part has ended. -/
inductive Task where
  /-- Introduce a variable with the value of the part. -/
  | declare (name : String)
  | assign (name : String)
  | returnFrom (target : FunctionId)
  /-- Go on with the operands that are left, if there are values for those before. -/
  | operand (use : Use) (values : List Literal) (rest : List Expr)
  /-- Go on with the other operands of a primitive operation, unless the first one settles it. -/
  | first (function : Function) (rest : List Expr)
  /-- Close the activation of a function. -/
  | leave (function : Function)
  /-- Close a frame. -/
  | frame
  | statement (rest : List Expr)
  /-- The part was the condition of an arm. -/
  | arm (result : Expr) (rest : List (Expr × Expr))
  /-- The part was the condition of a loop. -/
  | test (kind : LoopKind) (id : LoopId) (test : Expr) (statements : List Expr)
  /-- The part was the last statement of a pass. -/
  | pass (kind : LoopKind) (id : LoopId) (test : Expr) (statements : List Expr)

/-- What is going on: a part is about to start, or has just ended. -/
inductive Control where
  | start (e : Expr) (m : Machine)
  | stop (x : Outcome Literal)

/-- A point in the course of an evaluation. The innermost task comes first. -/
structure Config where
  control : Control
  tasks : List Task

/-! ## Steps -/

section

variable (setting : Setting) (m : Machine) (tasks : List Task)

/-- Goes on after a part that ended with a value. -/
@[inline] def onValue {α : Type} (x : Outcome α) (next : α → Machine → Config) : Config :=
  match x with
  | .ok a m => next a m
  | .error exit m => ⟨.stop (.error exit m), tasks⟩

def statementsFrom (last : Literal) : List Expr → Config
  | [] => ⟨.stop (.ok last m), tasks⟩
  | e :: es => ⟨.start e m, .statement es :: tasks⟩

def armsFrom : List (Expr × Expr) → Config
  | [] => ⟨.stop (.ok .unit m), tasks⟩
  | (test, result) :: arms => ⟨.start test m, .arm result arms :: tasks⟩

/-- Opens the activation of a function. The task to close it is there even if binding fails. -/
def bodyFrom (function : Function) (body : Expr) (values : List Literal) : Config :=
  onValue (.leave function :: tasks)
    (Setting.bindOperands (function.operandNames.zip values) m.activated)
    fun _ m => ⟨.start body m, .leave function :: tasks⟩

def useFrom (values : List Literal) : Use → Config
  | .body function body => bodyFrom m tasks function body values
  | .primitive function => ⟨.stop (Setting.applyPrimitive function values m), tasks⟩

def operandsFrom (use : Use) (values : List Literal) : List Expr → Config
  | [] => useFrom m tasks values use
  | e :: es => ⟨.start e m, .operand use values es :: tasks⟩

def markedFrom (function : Function) (es : List Expr) : Config :=
  match setting.limits.enter m.scope.depth, function.body with
  | .error cause, _ => ⟨.stop (Run.fail (.limit cause) m), tasks⟩
  | .ok (), none => ⟨.stop (Run.defect (.missingBody function.qualifiedName) m), tasks⟩
  | .ok (), some body => operandsFrom m tasks (.body function body) [] es

def primitiveFrom (function : Function) : List Expr → Config
  | [] => ⟨.stop (Setting.applyPrimitive function [] m), tasks⟩
  | e :: es => ⟨.start e m, .first function es :: tasks⟩

def callFrom (call : Call) : Config :=
  match setting.program.function? call.callee with
  | none => ⟨.stop (Run.defect (.unknownFunction call.callee) m), tasks⟩
  | some function =>
    if call.operands.length ≠ function.arity then
      ⟨.stop (Run.defect (.arityMismatch function.qualifiedName function.arity
        call.operands.length) m), tasks⟩
    else
      match function.classify setting.marker with
      | .marked => markedFrom setting m tasks function call.operands
      | .primitive => primitiveFrom m tasks function call.operands
      | .other => ⟨.stop (Run.defect (.unsupportedCallee function.qualifiedName) m), tasks⟩

/-- Starts a round of a loop. -/
def roundFrom (kind : LoopKind) (id : LoopId) (test : Expr) (statements : List Expr) : Config :=
  match kind with
  | .testFirst => ⟨.start test m, .test kind id test statements :: tasks⟩
  | .testLast => statementsFrom m.framed (.pass kind id test statements :: tasks) .unit statements

end

/-- Goes on after a round of a loop. -/
def afterRound (kind : LoopKind) (id : LoopId) (test : Expr) (statements : List Expr)
    (x : Outcome Bool) (tasks : List Task) : Config :=
  onValue tasks x fun again m =>
    if again then roundFrom m tasks kind id test statements else ⟨.stop (.ok .unit m), tasks⟩

/-- Starts with an expression. -/
def enter (setting : Setting) (m : Machine) (tasks : List Task) : Expr → Config
  | .const value => ⟨.stop (.ok value m), tasks⟩
  | .read name _ => ⟨.stop (Run.read name m), tasks⟩
  | .declare name _ none => ⟨.stop (Run.defect (.missingInitializer name) m), tasks⟩
  | .declare name _ (some init) => ⟨.start init m, .declare name :: tasks⟩
  | .assign name _ value => ⟨.start value m, .assign name :: tasks⟩
  | .call id receiver args => callFrom setting m tasks ⟨id, receiver, args⟩
  | .block es => statementsFrom m.framed (.frame :: tasks) .unit es
  | .branch arms => armsFrom m.framed (.frame :: tasks) arms
  | .loop kind id _ test body =>
    roundFrom m.framed (.frame :: tasks) kind id test (Expr.statements body)
  | .returnFrom target value => ⟨.start value m, .returnFrom target :: tasks⟩
  | .breakLoop target => ⟨.stop (.error (.broke target) m), tasks⟩
  | .continueLoop target => ⟨.stop (.error (.continued target) m), tasks⟩

/-- Goes on with a task after the part it was waiting for has ended. Steps are counted by
`charge`. -/
def resumeBy (charge : Run Unit) (x : Outcome Literal) (tasks : List Task) : Task → Config
  | .declare name =>
    ⟨.stop (x.andThen fun value => do Run.define name value; return value), tasks⟩
  | .assign name =>
    ⟨.stop (x.andThen fun value => do Run.assign name value; return value), tasks⟩
  | .returnFrom target => ⟨.stop (x.andThen fun value => throw (.returned target value)), tasks⟩
  | .operand use values rest =>
    onValue tasks x fun value m => operandsFrom m tasks use (values ++ [value]) rest
  | .first function rest =>
    onValue tasks x fun value m =>
      if (Setting.decisive? function).any (value.boolean? == some ·) then
        ⟨.stop (.ok value m), tasks⟩
      else operandsFrom m tasks (.primitive function) [value] rest
  | .leave function => ⟨.stop (Run.endOfCall function (x.close .popActivation)), tasks⟩
  | .frame => ⟨.stop (x.close .popFrame), tasks⟩
  | .statement rest => onValue tasks x fun value m => statementsFrom m tasks value rest
  | .arm result rest =>
    onValue tasks (x.andThen Run.truth) fun holds m =>
      if holds then ⟨.start result m, tasks⟩ else armsFrom m tasks rest
  | .test .testFirst id test statements =>
    onValue tasks (x.andThen Run.truth) fun holds m =>
      if holds then
        statementsFrom m.framed (.pass .testFirst id test statements :: tasks) .unit statements
      else ⟨.stop (.ok .unit m), tasks⟩
  | .test .testLast id test statements =>
    afterRound .testLast id test statements ((x.andThen Run.truth).close .popFrame) tasks
  | .pass .testFirst id test statements =>
    afterRound .testFirst id test statements
      (((Run.endOfPass id x).close .popFrame).andThen (Run.countBy charge)) tasks
  | .pass .testLast id test statements =>
    match (Run.endOfPass id x).andThen (Run.countBy charge) with
    | .ok true m => ⟨.start test m, .test .testLast id test statements :: tasks⟩
    | .ok false m => afterRound .testLast id test statements
        (Outcome.close .popFrame (.ok false m)) tasks
    | .error exit m => afterRound .testLast id test statements
        (Outcome.close .popFrame (.error exit m)) tasks

section

variable (setting : Setting) (charge : Run Unit)

/-- One step. There is none if nothing is left to be done. -/
def stepBy : Config → Option Config
  | ⟨.start e m, tasks⟩ => some (enter setting m tasks e)
  | ⟨.stop x, task :: tasks⟩ => some (resumeBy charge x tasks task)
  | ⟨.stop _, []⟩ => none

/-- How it ends when nothing is left to be done, if it comes to that. -/
def Config.endBy? : Config → Option (Outcome Literal)
  | ⟨.start e m, tasks⟩ => enter setting m tasks e |>.endBy?
  | ⟨.stop x, task :: tasks⟩ => resumeBy charge x tasks task |>.endBy?
  | ⟨.stop x, []⟩ => some x
partial_fixpoint

end

end Stepwise

namespace Setting

variable (setting : Setting)

/-- The end of an expression that is evaluated in the given state, with steps counted in 64 bits, if
there is an end. -/
def eval? (e : Expr) (m : Machine) : Option (Outcome Literal) :=
  Stepwise.Config.endBy? setting (Run.charge setting.limits) ⟨.start e m, []⟩

/-- Evaluates a call in the given state, with steps counted in 64 bits, and says what state is
left. -/
def evalCallFrom? (call : Call) (m : Machine) : Option (Except Failure Literal × Machine) :=
  (setting.eval? call.expr m).map fun x => (x.result, x.machine)

end Setting

end CallFolding
