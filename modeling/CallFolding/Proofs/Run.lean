import CallFolding.Evaluation.Eval
import CallFolding.Proofs.Scope

/-!
Runs taken apart. One equation says what a sequence of two runs does, one what closing does, and the
passes of the two kinds of loops get names; later modules never look into the definitions of these.
-/

set_option autoImplicit false

namespace CallFolding

namespace Outcome

variable {α : Type}

/-- The same end with other variables left behind. -/
def withScope (x : Outcome α) (scope : Scope Literal) : Outcome α :=
  match x with
  | .ok a m => .ok a { m with scope }
  | .error exit m => .error exit { m with scope }

/-- Closing depends on the state alone, and not on how the run ended. -/
theorem close_eq (close : Scope.Edit PopError Literal Unit) (x : Outcome α) : x.close close =
    match close x.machine.scope with
    | .ok () scope => x.withScope scope
    | .error cause scope =>
      .error (.failed (.defect (.pop cause))) { x.machine with scope } := by
  cases x <;> rfl

/-- Closing counts no step, whether or not it fails. -/
@[simp] theorem steps_close (close : Scope.Edit PopError Literal Unit) (x : Outcome α) :
    (x.close close).machine.steps = x.machine.steps := by
  rw [close_eq]
  cases close x.machine.scope with
  | ok _ scope => cases x <;> rfl
  | error cause scope => rfl

section

variable {x : Outcome α} {scope : Scope Literal} {cause : PopError}

/-- A frame that can be closed is closed, however the run ended. -/
theorem closeFrame_of_ok (h : x.machine.scope.popFrame = .ok scope) :
    x.close .popFrame = x.withScope scope := by
  rw [close_eq, Scope.Edit.popFrame_eq, h]
  rfl

/-- Where there is no frame to close the state stays as it is. -/
theorem closeFrame_of_error (h : x.machine.scope.popFrame = .error cause) :
    x.close .popFrame = .error (.failed (.defect (.pop cause))) x.machine := by
  rw [close_eq, Scope.Edit.popFrame_eq, h]
  rfl

/-- An activation that can be closed is closed, however the run ended. -/
theorem closeActivation_of_ok (h : x.machine.scope.popActivation = .ok scope) :
    x.close .popActivation = x.withScope scope := by
  rw [close_eq, Scope.Edit.popActivation_eq, h]
  rfl

end

@[simp] theorem machine_ok (a : α) (m : Machine) : machine (.ok a m) = m := rfl

@[simp] theorem machine_error (exit : Exit) (m : Machine) :
    machine (.error exit m : Outcome α) = m := rfl

/-- Only the variables are exchanged: the count stays. -/
@[simp] theorem machine_withScope (x : Outcome α) (scope : Scope Literal) :
    (x.withScope scope).machine = { x.machine with scope } := by
  cases x <;> rfl

@[simp] theorem withScope_ok (a : α) (m : Machine) (scope : Scope Literal) :
    withScope (.ok a m) scope = .ok a { m with scope } := rfl

@[simp] theorem withScope_error (exit : Exit) (m : Machine) (scope : Scope Literal) :
    withScope (.error exit m : Outcome α) scope = .error exit { m with scope } := rfl

end Outcome

/-- A call from an empty state is the run of its expression with all the room there is. -/
theorem Setting.evalCallFrom_eq (setting : Setting) (call : Call) :
    setting.evalCallFrom call {} =
      (Outcome.result (setting.evalAt (setting.limits.room 0) call.expr {}),
        Outcome.machine (setting.evalAt (setting.limits.room 0) call.expr {})) :=
  rfl

/-- The result of a call is the end of that run. -/
theorem Setting.evalCall_eq (setting : Setting) (call : Call) :
    setting.evalCall call =
      Outcome.result (setting.evalAt (setting.limits.room 0) call.expr {}) :=
  congrArg Prod.fst (setting.evalCallFrom_eq call)

/-- A call has a value only if the run of its expression ends with it. -/
theorem Setting.evalCall_eq_ok {setting : Setting} {call : Call} {value : Literal}
    (h : setting.evalCall call = .ok value) :
    ∃ m, setting.evalAt (setting.limits.room 0) call.expr {} = .ok value m := by
  rw [evalCall_eq] at h
  cases hx : setting.evalAt (setting.limits.room 0) call.expr {} with
  | ok v m =>
    rw [hx] at h
    cases h
    exact ⟨m, rfl⟩
  | error exit m =>
    rw [hx] at h
    cases h

/-! ## Failures of the scope -/

/-- A frame could not be closed, or there was none to bind in. -/
def Defect.IsUnscoped : Defect → Prop
  | .pop _ => True
  | .bind .noScope => True
  | _ => False

/-- The run failed because a frame was missing. -/
def Exit.IsUnscoped : Exit → Prop
  | .failed (.defect cause) => cause.IsUnscoped
  | _ => False

/-- Operations know nothing of scopes. -/
theorem Exit.not_isUnscoped_ofOperation (error : OperationError) :
    ¬ (Exit.failed (.ofOperation error)).IsUnscoped := by
  cases error <;> exact not_false

/-- A limit was hit. -/
def Exit.IsLimit : Exit → Prop
  | .failed (.limit _) => True
  | _ => False

/-- Operations know nothing of limits. -/
theorem Exit.not_isLimit_ofOperation (error : OperationError) :
    ¬ (Exit.failed (.ofOperation error)).IsLimit := by
  cases error <;> exact not_false

namespace Run

variable {α β : Type}

/-! ## One run after the other -/

variable {r : Run α} {f : α → Run β} {m m' : Machine}

/-- After a value the second run goes on from it. -/
theorem bind_of_ok {a : α} (h : r m = .ok a m') : (r >>= f) m = f a m' := by
  simp only [bind, EStateM.bind, h]

/-- After an exit there is no second run. -/
theorem bind_of_error {exit : Exit} (h : r m = .error exit m') :
    (r >>= f) m = .error exit m' := by
  simp only [bind, EStateM.bind, h]

/-- What a sequence does is told by how its first run ends. -/
theorem bind_eq_andThen (r : Run α) (f : α → Run β) (m : Machine) :
    (r >>= f) m = Outcome.andThen (r m) f := by
  cases h : r m with
  | ok a m' => exact bind_of_ok h
  | error exit m' => exact bind_of_error h

/-- A sequence has a value exactly if both runs have one. -/
theorem bind_eq_ok {b : β} :
    (r >>= f) m = .ok b m' ↔ ∃ a m₁, r m = .ok a m₁ ∧ f a m₁ = .ok b m' := by
  constructor
  · intro h
    cases hr : r m with
    | ok a m₁ => exact ⟨a, m₁, rfl, by rw [← h, bind_of_ok hr]⟩
    | error exit m₁ => rw [bind_of_error hr] at h; cases h
  · rintro ⟨a, m₁, hr, hf⟩
    rw [bind_of_ok hr, hf]

/-- A sequence ends with an exit exactly if one of its runs does. -/
theorem bind_eq_error {exit : Exit} :
    (r >>= f) m = .error exit m' ↔
      r m = .error exit m' ∨ ∃ a m₁, r m = .ok a m₁ ∧ f a m₁ = .error exit m' := by
  constructor
  · intro h
    cases hr : r m with
    | ok a m₁ => exact .inr ⟨a, m₁, rfl, by rw [← h, bind_of_ok hr]⟩
    | error other m₁ =>
      rw [bind_of_error hr] at h
      cases h
      exact .inl rfl
  · rintro (hr | ⟨a, m₁, hr, hf⟩)
    · exact bind_of_error hr
    · rw [bind_of_ok hr, hf]

/-! ## Edits and closing -/

/-- An edit that fails leaves the state as it was. -/
theorem define_eq (name : String) (value : Literal) (m : Machine) : define name value m =
    match m.scope.define name value with
    | .ok scope => .ok () { m with scope }
    | .error cause => .error (.failed (.defect (.bind cause))) m := by
  unfold define edit
  rw [Scope.Edit.define_eq]
  cases m.scope.define name value <;> rfl

/-- An assignment that fails leaves the state as it was too. -/
theorem assign_eq (name : String) (value : Literal) (m : Machine) : assign name value m =
    match m.scope.assign name value with
    | .ok scope => .ok () { m with scope }
    | .error cause => .error (.failed (.defect (.bind cause))) m := by
  unfold assign edit
  rw [Scope.Edit.assign_eq]
  cases m.scope.assign name value <;> rfl

theorem inFrame_eq_close (r : Run α) (m : Machine) :
    r.inFrame m = Outcome.close .popFrame (r m.framed) := rfl

theorem inActivation_eq_close (r : Run α) (m : Machine) :
    r.inActivation m = Outcome.close .popActivation (r m.activated) := rfl

/-- A run in a frame has a value if the run has it and the frame can be closed. -/
theorem inFrame_eq_ok {a : α} (h : r.inFrame m = .ok a m') :
    ∃ m₁ scope, r m.framed = .ok a m₁ ∧ m₁.scope.popFrame = .ok scope ∧
      m' = { m₁ with scope } := by
  rw [inFrame_eq_close] at h
  -- A frame that cannot be closed leaves no value, so the state is one in which it can.
  cases hpop : (Outcome.machine (r m.framed)).scope.popFrame with
  | error cause =>
    rw [Outcome.closeFrame_of_error hpop] at h
    cases h
  | ok scope =>
    rw [Outcome.closeFrame_of_ok hpop] at h
    cases hr : r m.framed with
    | error exit m₁ =>
      rw [hr] at h
      cases h
    | ok b m₁ =>
      rw [hr] at h hpop
      cases h
      exact ⟨m₁, scope, rfl, hpop, rfl⟩

/-- A frame that can be closed leaves no trace but in the variables. -/
theorem inFrame_of_popFrame {t : Scope Literal}
    (h : (Outcome.machine (r m.framed)).scope.popFrame = .ok t) :
    r.inFrame m = Outcome.withScope (r m.framed) t := by
  rw [inFrame_eq_close, Outcome.closeFrame_of_ok h]

theorem inActivation_of_popActivation {t : Scope Literal}
    (h : (Outcome.machine (r m.activated)).scope.popActivation = .ok t) :
    r.inActivation m = Outcome.withScope (r m.activated) t := by
  rw [inActivation_eq_close, Outcome.closeActivation_of_ok h]

/-! ## Exits that are taken -/

theorem pass_eq (id : LoopId) (runs : List (Run Literal)) (m : Machine) :
    pass id runs m = endOfPass id (inOrder .unit runs m) := rfl

theorem catchReturn_eq (function : Function) (r : Run Literal) (m : Machine) :
    Setting.catchReturn function r m = endOfCall function (r m) := rfl

/-- Taking a jump changes nothing in the state. -/
@[simp] theorem machine_endOfPass (id : LoopId) (x : Outcome Literal) :
    (endOfPass id x).machine = x.machine := by
  unfold endOfPass
  split <;> (try split) <;> rfl

@[simp] theorem machine_endOfCall (function : Function) (x : Outcome Literal) :
    (endOfCall function x).machine = x.machine := by
  unfold endOfCall
  split <;> (try split) <;> rfl

/-! ## Passes of loops -/

/-- One round of a loop that tests first: whether to go on. -/
def firstPass (limits : Limits) (id : LoopId) (test : Run Literal)
    (statements : List (Run Literal)) : Run Bool := do
  let holds ← condition test
  if holds then
    let through ← inFrame (pass id statements)
    if through then do
      tally limits
      pure true
    else pure false
  else pure false

/-- A pass and the test after it. -/
def passAndTest (limits : Limits) (id : LoopId) (test : Run Literal)
    (statements : List (Run Literal)) : Run Bool := do
  let through ← pass id statements
  if through then do
    tally limits
    condition test
  else pure false

/-- One round of a loop that tests last: whether to go on. -/
def lastPass (limits : Limits) (id : LoopId) (test : Run Literal)
    (statements : List (Run Literal)) : Run Bool :=
  inFrame (passAndTest limits id test statements)

/-- A loop that tests first repeats its round. -/
theorem testFirst_eq (limits : Limits) (id : LoopId) (test : Run Literal)
    (statements : List (Run Literal)) :
    testFirst limits id test statements = loop limits (firstPass limits id test statements) := rfl

theorem testLast_eq (limits : Limits) (id : LoopId) (test : Run Literal)
    (statements : List (Run Literal)) :
    testLast limits id test statements = loop limits (lastPass limits id test statements) := rfl

end Run

end CallFolding
