import CallFolding.Evaluation.Error

/-!
Runs: what evaluating an expression does to the variables and the step count, and how it ends.

A run ends with a value or with an exit. Exits travel outwards until something takes them: a
`return` until the activation of its function, a `break` or `continue` until its loop, a failure
all the way. The variables and the count are there in either case, as the run left them.

The ways to put runs together are defined here once; the evaluator only says which of them an
expression stands for.
-/

set_option autoImplicit false

namespace CallFolding

/-- Why a run ended without a value. -/
inductive Exit where
  | returned (target : FunctionId) (value : Literal)
  | broke (target : LoopId)
  | continued (target : LoopId)
  | failed (cause : Failure)

/-- What runs work on. -/
structure Machine where
  scope : Scope Literal := .empty
  /-- The steps counted so far. -/
  steps : Nat := 0

namespace Machine

/-- The state in which something in a frame of its own starts. -/
abbrev framed (m : Machine) : Machine :=
  { m with scope := m.scope.pushFrame }

/-- The state in which something in an activation of its own starts. -/
abbrev activated (m : Machine) : Machine :=
  { m with scope := m.scope.pushActivation }

end Machine

/-- A run with a result of the given type. -/
abbrev Run (α : Type) := EStateM Exit Machine α

/-- How a run ended, together with the state it left. -/
abbrev Outcome (α : Type) := EStateM.Result Exit Machine α

namespace Outcome

variable {α : Type}

/-- The state that is left. -/
@[inline] def machine : Outcome α → Machine
  | .ok _ m => m
  | .error _ m => m

/-- What comes after a run that ended like this. -/
@[inline] def andThen {β : Type} (x : Outcome α) (f : α → Run β) : Outcome β :=
  match x with
  | .ok a m => f a m
  | .error exit m => .error exit m

/-- Closes what a run that ended like this has opened, and passes on how it ended. If that is not
possible, the failure to close takes the place of how it ended. -/
@[inline] def close (close : Scope.Edit PopError Literal Unit) (x : Outcome α) : Outcome α :=
  match x with
  | .ok a m =>
    match close m.scope with
    | .ok () scope => .ok a { m with scope }
    | .error cause scope => .error (.failed (.defect (.pop cause))) { m with scope }
  | .error exit m =>
    match close m.scope with
    | .ok () scope => .error exit { m with scope }
    | .error cause scope => .error (.failed (.defect (.pop cause))) { m with scope }

end Outcome

namespace Run

variable {α : Type}

/-- Ends with a failure. -/
def fail (cause : Failure) : Run α :=
  throw (.failed cause)

/-- Ends with a defect. -/
def defect (cause : Defect) : Run α :=
  fail (.defect cause)

/-! ## Variables and steps -/

/-- Edits the variables. They are then as the edit left them, also if it failed. -/
@[inline] def edit {ε : Type} (defect : ε → Defect) (change : Scope.Edit ε Literal Unit) :
    Run Unit := fun m =>
  match change m.scope with
  | .ok () scope => .ok () { m with scope }
  | .error cause scope => .error (.failed (.defect (defect cause))) { m with scope }

/-- Introduces a variable in the innermost frame. -/
@[inline] def define (name : String) (value : Literal) : Run Unit :=
  edit .bind (.define name value)

/-- Gives a variable another value. -/
@[inline] def assign (name : String) (value : Literal) : Run Unit :=
  edit .bind (.assign name value)

/-- The value of a variable. -/
@[inline] def read (name : String) : Run Literal := fun m =>
  match m.scope.lookup name with
  | some value => .ok value m
  | none => .error (.failed (.defect (.bind (.undefined name)))) m

/-- Counts a step in 64 bits. -/
@[inline] def charge (limits : Limits) : Run Unit := fun m =>
  match limits.charge (.ofNat m.steps) with
  | .ok () count => .ok () { m with steps := count.toNat }
  | .error cause count => .error (.failed (.limit cause)) { m with steps := count.toNat }

/-- Counts a step. -/
@[inline] def tally (limits : Limits) : Run Unit := fun m =>
  match limits.tally m.steps with
  | .ok () steps => .ok () { m with steps }
  | .error cause steps => .error (.failed (.limit cause)) { m with steps }

/-! ## Frames and activations

They are closed again however the run inside ends. -/

/-- Closes what a run opened. -/
@[inline] def closing (close : Scope.Edit PopError Literal Unit) (run : Run α) : Run α := fun m =>
  Outcome.close close (run m)

/-- Runs in a frame of its own. -/
@[inline] def inFrame (run : Run α) : Run α := fun m =>
  closing .popFrame run m.framed

/-- Runs in an activation of its own. -/
@[inline] def inActivation (run : Run α) : Run α := fun m =>
  closing .popActivation run m.activated

/-! ## Sequences and choices -/

/-- One run after the other. The value is that of the last one, or the one given. -/
def inOrder (last : Literal) : List (Run Literal) → Run Literal
  | [] => pure last
  | run :: runs => do
    let value ← run
    inOrder value runs

/-- The values of all runs, in order. -/
def values : List (Run Literal) → Run (List Literal)
  | [] => pure []
  | run :: runs => do
    let value ← run
    let rest ← values runs
    return value :: rest

/-- The truth value that a condition has to have. -/
@[inline] def truth (value : Literal) : Run Bool :=
  match value.boolean? with
  | some b => return b
  | none => defect (.nonBooleanCondition value.source)

/-- A run whose value has to be a truth value. -/
@[inline] def condition (run : Run Literal) : Run Bool := do
  let value ← run
  truth value

/-- The first result whose condition is true. -/
def firstTrue : List (Run Literal × Run Literal) → Run Literal
  | [] => pure .unit
  | (test, result) :: arms => do
    if ← condition test then result else firstTrue arms

/-! ## Loops -/

/-- How the pass of a loop ends when its statements end like this: whether to go on. A `break` of
this loop ends it, and a `continue` of this loop ends the pass only. -/
@[inline] def endOfPass (id : LoopId) : Outcome Literal → Outcome Bool
  | .ok _ m => .ok true m
  | .error (.broke target) m => if target = id then .ok false m else .error (.broke target) m
  | .error (.continued target) m => if target = id then .ok true m else .error (.continued target) m
  | .error exit m => .error exit m

/-- One pass through the body of a loop. -/
@[inline] def pass (id : LoopId) (statements : List (Run Literal)) : Run Bool := fun m =>
  endOfPass id (inOrder .unit statements m)

/-- Repeats a run as long as it asks for more, at most the given number of times. A run that asks
for more has counted a step, so with `Limits.passes` the last one never asks. -/
def repeatWhile (limits : Limits) (run : Run Bool) : Nat → Run Unit
  | 0 => fail (.limit (.steps limits.steps))
  | n + 1 => do
    if ← run then repeatWhile limits run n else pure ()

/-- Repeats a run as often as the steps that are left allow. -/
@[inline] def loop (limits : Limits) (run : Run Bool) : Run Literal := fun m =>
  (do repeatWhile limits run (limits.passes m.steps); return .unit : Run Literal) m

/-- A loop that tests its condition first. The step is counted after the frame of the pass is
closed, and not at all if the pass was broken off. -/
@[inline] def testFirst (limits : Limits) (id : LoopId) (test : Run Literal)
    (statements : List (Run Literal)) : Run Literal :=
  loop limits do
    if ← condition test then
      if ← inFrame (pass id statements) then
        tally limits
        return true
    return false

/-- A loop that tests its condition last. The test is part of the pass: it sees the variables of
the body, and comes after the step is counted. -/
@[inline] def testLast (limits : Limits) (id : LoopId) (test : Run Literal)
    (statements : List (Run Literal)) : Run Literal :=
  loop limits <| inFrame do
    if ← pass id statements then
      tally limits
      condition test
    else return false

end Run

end CallFolding
