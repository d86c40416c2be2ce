import CallFolding.Eligibility.Check
import CallFolding.Evaluation.Eval
import CallFolding.Options
import CallFolding.Program.Render

/-!
The folding pass: calls to marked functions are replaced by their values.

Every body is folded from the inside out, so the operands of a call are folded before the call is
looked at. A call is folded if it is eligible and its evaluation ends with a value; all else is
left as it is, and each such call is put on record. Whatever is checked or run is looked up in the
program as it was before the pass.
-/

set_option autoImplicit false

namespace CallFolding

/-- What became of a call to a marked function. -/
inductive Verdict where
  /-- Replaced by this value. -/
  | folded (value : Literal)
  | ineligible (reason : Rejection)
  | limitExceeded (cause : LimitExceeded)
  /-- It would throw. -/
  | faulty (cause : Fault)
deriving DecidableEq

namespace Verdict

def isFolded : Verdict → Bool
  | folded _ => true
  | _ => false

def message : Verdict → String
  | folded value => "folded to " ++ value.source
  | ineligible reason => "not eligible: " ++ reason.message
  | limitExceeded cause => "left as is: " ++ cause.message
  | faulty cause => "left as is, would throw: " ++ cause.message

end Verdict

/-- A call that a pass has looked at. -/
structure FoldRecord where
  /-- The function whose body the call is in. -/
  function : FunctionId
  /-- The call with its operands folded. -/
  call : String
  verdict : Verdict
deriving DecidableEq

/-- What a pass gives: the program with its calls folded, and the calls it looked at, in order. -/
structure Folded where
  program : Program
  records : Array FoldRecord

namespace Folded

/-- How many calls were replaced. -/
def count (folded : Folded) : Nat :=
  folded.records.countP (·.verdict.isFolded)

/-- The records of calls in the body of a function. -/
def recordsIn (folded : Folded) (id : FunctionId) : Array FoldRecord :=
  folded.records.filter (·.function = id)

end Folded

/-- A call that was found eligible and still turned out to be defective. It ends the pass. -/
structure FoldError where
  /-- The name of the function whose body the call is in. -/
  function : String
  call : String
  cause : Defect
deriving DecidableEq

def FoldError.message (error : FoldError) : String :=
  "internal error while evaluating `" ++ error.call ++ "` in " ++ error.function ++ ": "
    ++ error.cause.message

/-- A part of a pass: it adds to the records, or ends the pass. -/
abbrev Fold := StateT (Array FoldRecord) (Except FoldError)

namespace Folding

variable (program : Program) (options : Options)

/-- How the calls of the pass are evaluated. -/
def setting : Setting :=
  ⟨program, options.marker, options.limits⟩

/-- Whether a pass looks at calls to this function. -/
def isCandidate (id : FunctionId) : Bool :=
  (program.function? id).any (·.classify options.marker == .marked)

/-- The verdict on a call to a marked function. -/
def judge (call : Call) : Except Defect Verdict :=
  match Eligibility.check program options.marker call with
  | .error reason => .ok (.ineligible reason)
  | .ok () =>
    match (setting program options).evalCall call with
    | .ok value => .ok (.folded value)
    | .error (.limit cause) => .ok (.limitExceeded cause)
    | .error (.fault cause) => .ok (.faulty cause)
    | .error (.defect cause) => .error cause

/-- What takes the place of a call once its operands are folded. -/
def foldCall (caller : FunctionId) (call : Call) : Fold Expr := do
  if isCandidate program options call.callee then
    match judge program options call with
    | .error cause => throw ⟨program.functionName caller, program.render call.expr, cause⟩
    | .ok verdict =>
      modify (·.push ⟨caller, program.render call.expr, verdict⟩)
      match verdict with
      | .folded value => return .const value
      | _ => return call.expr
  else return call.expr

mutual

/-- Folds the calls in an expression, inner ones first. -/
def foldExpr (caller : FunctionId) : Expr → Fold Expr
  | .const value => return .const value
  | .read name owner => return .read name owner
  | .declare name type init => return .declare name type (← foldOption caller init)
  | .assign name owner value => return .assign name owner (← foldExpr caller value)
  | .call id receiver args => do
    let receiver ← foldOption caller receiver
    let args ← foldEach caller args
    foldCall program options caller ⟨id, receiver, args⟩
  | .block statements => return .block (← foldEach caller statements)
  | .branch arms => return .branch (← foldArms caller arms)
  | .loop kind id label condition body => do
    let condition ← foldExpr caller condition
    let body ← foldOption caller body
    return .loop kind id label condition body
  | .returnFrom target value => return .returnFrom target (← foldExpr caller value)
  | .breakLoop target => return .breakLoop target
  | .continueLoop target => return .continueLoop target

def foldOption (caller : FunctionId) : Option Expr → Fold (Option Expr)
  | none => return none
  | some e => return some (← foldExpr caller e)

def foldEach (caller : FunctionId) : List Expr → Fold (List Expr)
  | [] => return []
  | e :: es => do
    let e ← foldExpr caller e
    let es ← foldEach caller es
    return e :: es

def foldArms (caller : FunctionId) : List (Expr × Expr) → Fold (List (Expr × Expr))
  | [] => return []
  | (condition, result) :: arms => do
    let condition ← foldExpr caller condition
    let result ← foldExpr caller result
    let arms ← foldArms caller arms
    return (condition, result) :: arms

end

/-- Folds the calls in the body of a function. -/
def foldFunction (function : Function) : Fold Function := do
  let body ← foldOption program options function.id function.body
  return { function with body }

/-- Folds the calls of a whole program. -/
def run : Except FoldError Folded := do
  let (functions, records) ← (program.functions.mapM (foldFunction program options)).run #[]
  return ⟨⟨functions⟩, records⟩

end Folding

end CallFolding
