import CallFolding.Proofs.RunRelation

/-!
What every evaluation makes of its limits. It counts no more steps than it may, unless it ends for
that very reason: the step that is one too many is counted, and then the limit ends the run, or a
frame on the way out that cannot be closed does. And the limit that a failure quotes is the one that
was set.
-/

set_option autoImplicit false

namespace CallFolding

namespace Exit

/-- What can be left of running out of steps. -/
def IsOverrun (limits : Limits) : Exit → Prop
  | .failed (.limit cause) => cause = .steps limits.steps
  | .failed (.defect (.pop _)) => True
  | _ => False

/-- A limit that was hit is one of these. -/
def Quotes (limits : Limits) : Exit → Prop
  | .failed (.limit cause) => cause = .steps limits.steps ∨ cause = .depth limits.depth
  | _ => True

/-- An exit that is no limit quotes none. -/
theorem quotes_of_not_isLimit {x : Exit} (h : ¬ x.IsLimit) (limits : Limits) : x.Quotes limits := by
  cases x with
  | failed cause =>
    cases cause with
    | limit cause => exact absurd trivial h
    | _ => trivial
  | _ => trivial

end Exit

namespace Outcome

variable {α β : Type} {limits : Limits}

/-- The run can have ended for want of steps. -/
def IsOverrun (limits : Limits) : Outcome α → Prop
  | .ok _ _ => False
  | .error exit _ => exit.IsOverrun limits

/-- How a run ends that has kept to its limits. -/
structure Respects (limits : Limits) (x : Outcome α) : Prop where
  within : x.machine.steps ≤ limits.steps ∨
    x.machine.steps = limits.steps + 1 ∧ x.IsOverrun limits
  quotes : ∀ exit m, x = .error exit m → exit.Quotes limits

namespace Respects

variable {m : Machine}

/-- A value within the limits respects them. -/
theorem value (a : α) (h : m.steps ≤ limits.steps) : Respects limits (.ok a m) :=
  ⟨.inl h, nofun⟩

theorem exit {x : Exit} (hx : x.Quotes limits) (h : m.steps ≤ limits.steps) :
    Respects limits (.error x m : Outcome α) := by
  refine ⟨.inl h, fun exit m' heq => ?_⟩
  cases heq
  exact hx

/-- A run that ends with a value is still within its steps. -/
theorem steps_of_ok {a : α} (h : Respects limits (.ok a m)) : m.steps ≤ limits.steps :=
  h.within.resolve_right fun h => h.2

/-- So is one that ends with an exit, unless that may be for want of steps. -/
theorem steps_of_error {x : Exit} (h : Respects limits (.error x m : Outcome α))
    (hx : ¬ x.IsOverrun limits) : m.steps ≤ limits.steps :=
  h.within.resolve_right fun h => hx h.2

/-- Exits do not depend on the result that is asked for. -/
theorem of_error {x : Exit} (h : Respects limits (.error x m : Outcome α)) :
    Respects limits (.error x m : Outcome β) := by
  refine ⟨h.within, fun exit m' heq => ?_⟩
  cases heq
  exact h.quotes _ _ rfl

/-- What goes on from a value starts within the limits. -/
theorem andThen {x : Outcome α} {f : α → Run β} (h : Respects limits x)
    (hf : ∀ a m, m.steps ≤ limits.steps → Respects limits (f a m)) :
    Respects limits (x.andThen f) := by
  cases x with
  | ok a m => exact hf a m h.steps_of_ok
  | error exit m => exact h.of_error

/-- Closing counts no step. If it fails, that takes the place of a limit that was hit. -/
theorem close {x : Outcome α} (h : Respects limits x) (close : Scope.Edit PopError Literal Unit) :
    Respects limits (x.close close) := by
  rw [close_eq]
  cases close x.machine.scope with
  | ok _ scope =>
    cases x with
    | ok a m => exact .value a h.steps_of_ok
    | error exit m =>
      refine ⟨h.within, fun exit' m' heq => ?_⟩
      cases heq
      exact h.quotes _ _ rfl
  | error cause scope =>
    -- One step too many may already have been counted, and failing to close is an end it can have.
    refine ⟨h.within.imp_right fun hover => ⟨hover.1, trivial⟩, fun exit m' heq => ?_⟩
    cases heq
    trivial

/-- The end of a pass takes a jump, and never a failure: its count is within the limits. -/
theorem endOfPass {x : Outcome Literal} (h : Respects limits x) (id : LoopId) :
    Respects limits (Run.endOfPass id x) := by
  cases x with
  | ok a m => exact .value true h.steps_of_ok
  | error exit m =>
    cases exit with
    | broke target =>
      dsimp only [Run.endOfPass]
      split
      · exact .value false (h.steps_of_error not_false)
      · exact h.of_error
    | continued target =>
      dsimp only [Run.endOfPass]
      split
      · exact .value true (h.steps_of_error not_false)
      · exact h.of_error
    | returned target value => exact h.of_error
    | failed cause => exact h.of_error

/-- So is that of a call whose return is taken. A value of the wrong type fails without quoting. -/
theorem endOfCall {x : Outcome Literal} (h : Respects limits x) (function : Function) :
    Respects limits (Run.endOfCall function x) := by
  cases x with
  | ok value m =>
    dsimp only [Run.endOfCall]
    split
    · exact h
    · exact .exit trivial h.steps_of_ok
  | error exit m =>
    cases exit with
    | returned target value =>
      dsimp only [Run.endOfCall]
      split
      · exact .value value (h.steps_of_error not_false)
      · exact h
    | broke target => exact h
    | continued target => exact h
    | failed cause => exact h

end Respects

end Outcome

/-- The run keeps to its limits wherever it starts within them. -/
def Run.Metered {α : Type} (limits : Limits) (r : Run α) : Prop :=
  ∀ m, m.steps ≤ limits.steps → Outcome.Respects limits (r m)

namespace Run.Metered

variable {α β : Type} {limits : Limits}

theorem value (a : α) : Metered limits (pure a : Run α) :=
  fun _ hm => .value a hm

theorem exit {x : Exit} (h : x.Quotes limits) : Metered limits (throw x : Run α) :=
  fun _ hm => .exit h hm

/-- Two metered runs, one after the other, are metered. -/
theorem bind {r : Run α} {f : α → Run β} (h : Metered limits r)
    (hf : ∀ a, Metered limits (f a)) : Metered limits (r >>= f) := by
  intro m hm
  rw [Run.bind_eq_andThen]
  exact (h m hm).andThen hf

/-! ## Variables and steps -/

/-- Introducing a variable counts no step, whether it succeeds or not. -/
theorem define (name : String) (value : Literal) : Metered limits (Run.define name value) := by
  intro m hm
  rw [Run.define_eq]
  split
  · exact .value () hm
  · exact .exit trivial hm

theorem assign (name : String) (value : Literal) : Metered limits (Run.assign name value) := by
  intro m hm
  rw [Run.assign_eq]
  split
  · exact .value () hm
  · exact .exit trivial hm

theorem read (name : String) : Metered limits (Run.read name) := by
  intro m hm
  unfold Run.read
  split
  · exact .value _ hm
  · exact .exit trivial hm

/-- The step that is one too many is counted as well. -/
theorem tally (limits : Limits) : Metered limits (Run.tally limits) := by
  intro m hm
  unfold Run.tally Limits.tally
  by_cases h : limits.steps < m.steps + 1
  · rw [if_pos h]
    -- The run was within its steps before, so it is beyond them by one.
    refine ⟨.inr ⟨?_, rfl⟩, fun exit m' heq => ?_⟩
    · show m.steps + 1 = limits.steps + 1
      omega
    · cases heq
      exact .inl rfl
  · rw [if_neg h]
    exact .value () (Nat.not_lt.mp h)

/-! ## Frames and activations -/

/-- A frame around a metered run leaves it metered. -/
theorem inFrame {r : Run α} (h : Metered limits r) : Metered limits r.inFrame := by
  intro m hm
  rw [Run.inFrame_eq_close]
  exact (h m.framed hm).close .popFrame

theorem inActivation {r : Run α} (h : Metered limits r) : Metered limits r.inActivation := by
  intro m hm
  rw [Run.inActivation_eq_close]
  exact (h m.activated hm).close .popActivation

/-! ## Exits that are taken -/

/-- A pass is metered if its statements are. -/
theorem pass (id : LoopId) {runs : List (Run Literal)}
    (h : Metered limits (Run.inOrder .unit runs)) : Metered limits (Run.pass id runs) := by
  intro m hm
  rw [Run.pass_eq]
  exact (h m hm).endOfPass id

theorem catchReturn (function : Function) {r : Run Literal} (h : Metered limits r) :
    Metered limits (Setting.catchReturn function r) := by
  intro m hm
  rw [Run.catchReturn_eq]
  exact (h m hm).endOfCall function

/-! ## Loops -/

/-- A condition is metered if what it tests is. -/
theorem condition {r : Run Literal} (h : Metered limits r) : Metered limits r.condition := by
  refine h.bind fun value => ?_
  unfold Run.truth
  cases value.boolean? with
  | some b => exact .value b
  | none => exact .exit trivial

/-- Repeating a metered run is metered, also where the bound on the repetitions is hit. -/
theorem repeatWhile {r : Run Bool} (h : Metered limits r) (n : Nat) :
    Metered limits (Run.repeatWhile limits r n) := by
  induction n with
  | zero => exact .exit (.inl rfl)
  | succ n ih =>
    refine h.bind fun again => ?_
    cases again with
    | false => exact .value ()
    | true => exact ih

theorem loop {r : Run Bool} (h : Metered limits r) : Metered limits (Run.loop limits r) :=
  fun m hm => (h.repeatWhile _).bind (fun _ => .value Literal.unit) m hm

/-- A loop that tests first, from its condition and its statements. -/
theorem testFirst (id : LoopId) {test : Run Literal} {runs : List (Run Literal)}
    (htest : Metered limits test) (hruns : Metered limits (Run.inOrder .unit runs)) :
    Metered limits (Run.testFirst limits id test runs) := by
  rw [Run.testFirst_eq]
  refine loop (htest.condition.bind fun holds => ?_)
  cases holds with
  | false => exact .value false
  | true =>
    refine (pass id hruns).inFrame.bind fun through => ?_
    cases through with
    | false => exact .value false
    | true => exact (tally limits).bind fun _ => .value true

/-- A loop that tests last, from its condition and its statements. -/
theorem testLast (id : LoopId) {test : Run Literal} {runs : List (Run Literal)}
    (htest : Metered limits test) (hruns : Metered limits (Run.inOrder .unit runs)) :
    Metered limits (Run.testLast limits id test runs) := by
  rw [Run.testLast_eq]
  refine loop (inFrame ((pass id hruns).bind fun through => ?_))
  cases through with
  | false => exact .value false
  | true => exact (tally limits).bind fun _ => htest.condition

end Run.Metered

/-! ## Evaluation -/

/-- Being metered, as a relation of which only the left side matters. -/
def Run.meteredRelation (setting : Setting) : RunRelation setting setting where
  Rel r _ := Run.Metered setting.limits r
  Roomy a b := a = b
  value := .value
  exit _ _ h := .exit (Exit.quotes_of_not_isLimit h _)
  andThen h hf := h.bind hf
  define := .define
  assign := .assign
  read := .read
  inFrame h := h.inFrame
  inActivation h := h.inActivation
  catchReturn function _ _ h := h.catchReturn function
  testFirst id _ _ _ _ htest hruns := htest.testFirst id hruns
  testLast id _ _ _ _ htest hruns := htest.testLast id hruns
  roomy_succ := RunRelation.exists_room_eq
  refuse _ _ _ _ _ := .exit (.inr rfl)

/-- **Every evaluation is metered.** -/
theorem Setting.metered_evalAt (setting : Setting) (room : Nat) (e : Expr) :
    (setting.evalAt room e).Metered setting.limits := by
  -- No call is replaced: the relation is looked at with the same program on both sides.
  have hcompatible : (Run.meteredRelation setting).Compatible fun _ _ => False :=
    ⟨rfl, .refl _ _, fun h => h.elim⟩
  exact RunRelation.evalAt _ hcompatible rfl (.refl _ e)

end CallFolding
