import CallFolding.Proofs.Stepwise

/-!
The machine under another counter.

Nothing in the machine looks at the count but the counter itself. So what the machine does next is
one of three things, whatever the counter is (`Move`): nothing, a step that counts nothing, or a
step that counts once and goes on after how that ended. A run under the unbounded count is therefore
a run under another counter, with other counts, if each time a step is counted the two end alike
(`Config.endBy?_recount`).

The counter of 64 bits is compared with the unbounded count in two ways. Up to `UInt64.size` they
are the same (`Setting.eval?_eq`). If the limit is one that the counter never exceeds, it shows the
unbounded count modulo `UInt64.size` (`Setting.eval?_wrapped`).
-/

set_option autoImplicit false

namespace CallFolding

/-! ## Other counts -/

/-- The same state with another count. -/
def Machine.recount (f : Nat → Nat) (m : Machine) : Machine :=
  { m with steps := f m.steps }

/-- The same end with another count. -/
def Outcome.recount {α : Type} (f : Nat → Nat) (x : Outcome α) : Outcome α :=
  match x with
  | .ok a m => .ok a (m.recount f)
  | .error exit m => .error exit (m.recount f)

namespace Run

variable {α β : Type}

/-- The run does not look at the count. -/
def Blind (r : Run α) : Prop :=
  ∀ f m, r (m.recount f) = Outcome.recount f (r m)

namespace Blind

theorem value (a : α) : Blind (pure a : Run α) := fun _ _ => rfl

theorem exit (exit : Exit) : Blind (throw exit : Run α) := fun _ _ => rfl

/-- Blind runs one after the other are blind. -/
theorem bind {r : Run α} {g : α → Run β} (hr : r.Blind) (hg : ∀ a, (g a).Blind) :
    Blind (r >>= g) := by
  intro f m
  rw [bind_eq_andThen, bind_eq_andThen, hr f m]
  cases r m with
  | ok a m' => exact hg a f m'
  | error exit m' => rfl

/-- An edit sees the variables only. -/
theorem edit {ε : Type} (defect : ε → Defect) (change : Scope.Edit ε Literal Unit) :
    Blind (Run.edit defect change) := by
  intro f m
  unfold Run.edit
  rw [Machine.recount]
  cases change m.scope <;> rfl

theorem read (name : String) : Blind (Run.read name) := by
  intro f m
  unfold Run.read
  rw [Machine.recount]
  cases m.scope.lookup name <;> rfl

/-- A truth value is there or it is not, whatever the count. -/
theorem truth (value : Literal) : Blind (Run.truth value) := by
  unfold Run.truth
  cases value.boolean? with
  | some b => exact .value b
  | none => exact .exit _

/-- Binding operands is a sequence of edits. -/
theorem bindOperands (operands : List (String × Literal)) :
    Blind (Setting.bindOperands operands) := by
  induction operands with
  | nil => exact .value ()
  | cons operand rest ih => exact (edit .bind (.define operand.1 operand.2)).bind fun _ => ih

theorem applyPrimitive (function : Function) (values : List Literal) :
    Blind (Setting.applyPrimitive function values) := by
  unfold Setting.applyPrimitive
  cases dispatch function.name (Setting.operands function values) with
  | ok value => exact .value value
  | error error => exact .exit _

end Blind

end Run

namespace Outcome

variable {α β : Type} (f : Nat → Nat) (x : Outcome α)

/-- Keeping every count changes nothing. -/
theorem recount_id : x.recount id = x := by
  cases x <;> rfl

/-- The count that is there already. -/
theorem recount_const : x.recount (fun _ => x.machine.steps) = x := by
  cases x <;> rfl

/-- The new count is made of the old one. -/
theorem steps_recount : (x.recount f).machine.steps = f x.machine.steps := by
  cases x <;> rfl

/-- From outside the count is not seen. -/
theorem result_recount (x : Outcome Literal) : (x.recount f).result = x.result := by
  cases x <;> rfl

/-- Recounting before or after a blind run is the same. -/
theorem recount_andThen {g : α → Run β} (hg : ∀ a, (g a).Blind) :
    (x.andThen g).recount f = (x.recount f).andThen g := by
  cases x with
  | ok a m => exact (hg a f m).symm
  | error exit m => rfl

/-- Closing does not look at the count. -/
theorem recount_close (close : Scope.Edit PopError Literal Unit) :
    (x.close close).recount f = (x.recount f).close close := by
  cases x with
  | ok a m =>
    simp only [recount, Outcome.close, Machine.recount]
    cases close m.scope <;> rfl
  | error exit m =>
    simp only [recount, Outcome.close, Machine.recount]
    cases close m.scope <;> rfl

theorem recount_endOfPass (id : LoopId) (x : Outcome Literal) :
    (Run.endOfPass id x).recount f = Run.endOfPass id (x.recount f) := by
  cases x with
  | ok value m => rfl
  | error exit m =>
    cases exit with
    | broke target | continued target => exact apply_ite (recount f) (target = id) _ _
    | _ => rfl

theorem recount_endOfCall (function : Function) (x : Outcome Literal) :
    (Run.endOfCall function x).recount f = Run.endOfCall function (x.recount f) := by
  cases x with
  | ok value m => exact apply_ite (recount f) (function.returnType = .unit) _ _
  | error exit m =>
    cases exit with
    | returned target value => exact apply_ite (recount f) (target = function.id) _ _
    | _ => rfl

end Outcome

namespace Stepwise

/-- The same state or end with another count. -/
def Control.recount (f : Nat → Nat) : Control → Control
  | .start e m => .start e (m.recount f)
  | .stop x => .stop (x.recount f)

/-- The same point with another count. -/
def Config.recount (f : Nat → Nat) (c : Config) : Config :=
  ⟨c.control.recount f, c.tasks⟩

namespace Config

variable (f : Nat → Nat) (c : Config)

theorem recount_id : c.recount id = c := by
  obtain ⟨control, tasks⟩ := c
  cases control with
  | start e m => rfl
  | stop x => rw [recount, Control.recount, Outcome.recount_id]

/-- The count that the point has already. -/
theorem recount_const : c.recount (fun _ => c.machine.steps) = c := by
  obtain ⟨control, tasks⟩ := c
  cases control with
  | start e m => rfl
  | stop x => exact congrArg (fun x => (⟨.stop x, tasks⟩ : Config)) x.recount_const

theorem steps_recount : (c.recount f).machine.steps = f c.machine.steps := by
  obtain ⟨control, tasks⟩ := c
  cases control with
  | start e m => rfl
  | stop x => exact x.steps_recount f

end Config

/-! ## What the parts of a step do to the count -/

section

variable (f : Nat → Nat) (setting : Setting) (m : Machine) (tasks : List Task)

/-- What goes on after a value does not depend on the count, if its continuation does not. -/
theorem recount_onValue {α : Type} (x : Outcome α) {next : α → Machine → Config}
    (hnext : ∀ a m, (next a m).recount f = next a (m.recount f)) :
    (onValue tasks x next).recount f = onValue tasks (x.recount f) next := by
  cases x with
  | ok a m => exact hnext a m
  | error exit m => rfl

/-- An outcome that goes on with a blind run is handed to the tasks alike. -/
theorem recount_stop_andThen {α : Type} (x : Outcome α) {g : α → Run Literal}
    (hg : ∀ a, (g a).Blind) :
    Config.recount f ⟨.stop (x.andThen g), tasks⟩ = ⟨.stop ((x.recount f).andThen g), tasks⟩ :=
  congrArg (fun y => (⟨.stop y, tasks⟩ : Config)) (x.recount_andThen f hg)

/-- Statements are started alike under any count. -/
theorem recount_statementsFrom (last : Literal) (es : List Expr) :
    (statementsFrom m tasks last es).recount f = statementsFrom (m.recount f) tasks last es := by
  cases es <;> rfl

theorem recount_armsFrom (arms : List (Expr × Expr)) :
    (armsFrom m tasks arms).recount f = armsFrom (m.recount f) tasks arms := by
  cases arms <;> rfl

theorem recount_bodyFrom (function : Function) (body : Expr) (values : List Literal) :
    (bodyFrom m tasks function body values).recount f =
      bodyFrom (m.recount f) tasks function body values := by
  have hbind := Run.Blind.bindOperands (function.operandNames.zip values) f m.activated
  -- Opening an activation and recounting do not touch the same part of the state.
  have hactivated : (m.recount f).activated = m.activated.recount f := rfl
  rw [bodyFrom, bodyFrom, hactivated, hbind]
  exact recount_onValue f _ _ fun _ _ => rfl

theorem recount_useFrom (values : List Literal) (use : Use) :
    (useFrom m tasks values use).recount f = useFrom (m.recount f) tasks values use := by
  cases use with
  | body function body => exact recount_bodyFrom f m tasks function body values
  | primitive function =>
    rw [useFrom, useFrom, Run.Blind.applyPrimitive function values f m]
    rfl

theorem recount_operandsFrom (use : Use) (values : List Literal) (es : List Expr) :
    (operandsFrom m tasks use values es).recount f =
      operandsFrom (m.recount f) tasks use values es := by
  cases es with
  | nil => exact recount_useFrom f m tasks values use
  | cons e es => rfl

/-- Whether a call is refused depends on the depth, and not on the count. -/
theorem recount_markedFrom (function : Function) (es : List Expr) :
    (markedFrom setting m tasks function es).recount f =
      markedFrom setting (m.recount f) tasks function es := by
  unfold markedFrom
  rw [Machine.recount]
  cases setting.limits.enter m.scope.depth with
  | error cause => rfl
  | ok _ =>
    cases function.body with
    | none => rfl
    | some body => exact recount_operandsFrom f m tasks (.body function body) [] es

theorem recount_primitiveFrom (function : Function) (es : List Expr) :
    (primitiveFrom m tasks function es).recount f =
      primitiveFrom (m.recount f) tasks function es := by
  cases es with
  | nil => exact recount_useFrom f m tasks [] (.primitive function)
  | cons e es => rfl

/-- Calls are told apart without the count. -/
theorem recount_callFrom (call : Call) :
    (callFrom setting m tasks call).recount f = callFrom setting (m.recount f) tasks call := by
  unfold callFrom
  cases setting.program.function? call.callee with
  | none => rfl
  | some function =>
    dsimp only
    by_cases harity : call.operands.length ≠ function.arity
    · rw [if_pos harity, if_pos harity]
      rfl
    · rw [if_neg harity, if_neg harity]
      cases function.classify setting.marker with
      | marked => exact recount_markedFrom f setting m tasks function call.operands
      | primitive => exact recount_primitiveFrom f m tasks function call.operands
      | other => rfl

theorem recount_roundFrom (kind : LoopKind) (id : LoopId) (test : Expr) (statements : List Expr) :
    (roundFrom m tasks kind id test statements).recount f =
      roundFrom (m.recount f) tasks kind id test statements := by
  cases kind with
  | testFirst => rfl
  | testLast => exact recount_statementsFrom f m.framed _ .unit statements

theorem recount_afterRound (kind : LoopKind) (id : LoopId) (test : Expr) (statements : List Expr)
    (x : Outcome Bool) :
    (afterRound kind id test statements x tasks).recount f =
      afterRound kind id test statements (x.recount f) tasks := by
  refine recount_onValue f tasks x fun again m => ?_
  cases again with
  | true => exact recount_roundFrom f m tasks kind id test statements
  | false => rfl

/-- Starting with an expression counts nothing. -/
theorem recount_enter (e : Expr) :
    (enter setting m tasks e).recount f = enter setting (m.recount f) tasks e := by
  cases e with
  | read name owner =>
    rw [enter, enter, Run.Blind.read name f m]
    rfl
  | declare name type init => cases init <;> rfl
  | call id receiver args => exact recount_callFrom f setting m tasks ⟨id, receiver, args⟩
  | block es => exact recount_statementsFrom f m.framed _ .unit es
  | branch arms => exact recount_armsFrom f m.framed _ arms
  | loop kind id label test body =>
    exact recount_roundFrom f m.framed _ kind id test (Expr.statements body)
  | _ => rfl

end

/-- A step is counted only after a pass of a loop, so for every other task the counter does not
matter. -/
theorem recount_resumeBy (f : Nat → Nat) {charge charge' : Run Unit} (x : Outcome Literal)
    (tasks : List Task) {task : Task}
    (htask : ∀ kind id test statements, task ≠ .pass kind id test statements) :
    (resumeBy charge x tasks task).recount f = resumeBy charge' (x.recount f) tasks task := by
  cases task with
  | declare name =>
    refine recount_stop_andThen f tasks x fun value => ?_
    exact (Run.Blind.edit .bind (.define name value)).bind fun _ => .value value
  | assign name =>
    refine recount_stop_andThen f tasks x fun value => ?_
    exact (Run.Blind.edit .bind (.assign name value)).bind fun _ => .value value
  | returnFrom target =>
    exact recount_stop_andThen f tasks x fun value => .exit (.returned target value)
  | operand use values rest =>
    exact recount_onValue f tasks x fun value m =>
      recount_operandsFrom f m tasks use (values ++ [value]) rest
  | first function rest =>
    refine recount_onValue f tasks x fun value m => ?_
    split
    · rfl
    · exact recount_operandsFrom f m tasks (.primitive function) [value] rest
  | leave function =>
    -- The activation is closed before the return is taken, and neither looks at the count.
    rw [resumeBy, resumeBy, ← Outcome.recount_close, ← Outcome.recount_endOfCall]
    rfl
  | frame =>
    rw [resumeBy, resumeBy, ← Outcome.recount_close]
    rfl
  | statement rest =>
    exact recount_onValue f tasks x fun value m => recount_statementsFrom f m tasks value rest
  | arm result rest =>
    rw [resumeBy, resumeBy, ← Outcome.recount_andThen f x Run.Blind.truth]
    refine recount_onValue f tasks _ fun holds m => ?_
    cases holds with
    | true => rfl
    | false => exact recount_armsFrom f m tasks rest
  | test kind id test statements =>
    cases kind with
    | testFirst =>
      rw [resumeBy, resumeBy, ← Outcome.recount_andThen f x Run.Blind.truth]
      refine recount_onValue f tasks _ fun holds m => ?_
      cases holds with
      | true => exact recount_statementsFrom f m.framed _ .unit statements
      | false => rfl
    | testLast =>
      rw [resumeBy, resumeBy, ← Outcome.recount_andThen f x Run.Blind.truth,
        ← Outcome.recount_close]
      exact recount_afterRound f tasks .testLast id test statements _
  | pass kind id test statements => exact absurd rfl (htask kind id test statements)

/-! ## What the machine does next -/

/-- What the machine does next, whatever the counter and the count are. -/
inductive Move (setting : Setting) (c : Config) : Prop
  | ended : (∀ f charge, stepBy setting charge (c.recount f) = none) → Move setting c
  /-- The step counts nothing. -/
  | silent (c' : Config) :
    (∀ f charge, stepBy setting charge (c.recount f) = some (c'.recount f)) → Move setting c
  /-- The step counts once, in the state `m`, and goes on with how that ends. -/
  | counted (m : Machine) (next : Outcome Unit → Config) :
    m.steps = c.machine.steps → (∀ f y, (next y).recount f = next (y.recount f)) →
      (∀ f charge, stepBy setting charge (c.recount f) = some (next (charge (m.recount f)))) →
      Move setting c

section

variable {setting : Setting} {c : Config} (x : Outcome Literal) (tasks : List Task)
  (id : LoopId) (test : Expr) (statements : List Expr)

/-- After a pass of a loop that tests first the frame is closed, and then the step is counted. -/
theorem move_pass_testFirst :
    Move setting ⟨.stop x, .pass .testFirst id test statements :: tasks⟩ := by
  have hrecount (f : Nat → Nat) (charge : Run Unit) :
      stepBy setting charge
          (Config.recount f ⟨.stop x, .pass .testFirst id test statements :: tasks⟩) =
        some (afterRound .testFirst id test statements
          ((((Run.endOfPass id x).close .popFrame).recount f).andThen (Run.countBy charge))
          tasks) := by
    rw [Outcome.recount_close, Outcome.recount_endOfPass]
    rfl
  have hsteps : ((Run.endOfPass id x).close .popFrame).machine.steps = x.machine.steps := by
    rw [Outcome.steps_close, Run.machine_endOfPass]
  -- A step is counted if the pass went through and its frame could be closed.
  cases hpass : (Run.endOfPass id x).close .popFrame with
  | error exit m =>
    refine .silent (afterRound .testFirst id test statements (.error exit m) tasks) ?_
    intro f charge
    rw [hrecount, hpass, recount_afterRound]
    rfl
  | ok through m =>
    rw [hpass] at hsteps
    cases through with
    | false =>
      refine .silent (afterRound .testFirst id test statements (.ok false m) tasks) ?_
      intro f charge
      rw [hrecount, hpass, recount_afterRound]
      rfl
    | true =>
      refine .counted m (fun y => afterRound .testFirst id test statements
        (y.andThen fun _ => pure true) tasks) hsteps (fun f y => ?_) fun f charge => ?_
      · rw [recount_afterRound, Outcome.recount_andThen f y fun _ => .value true]
      · rw [hrecount, hpass]
        exact congrArg (fun y => some (afterRound .testFirst id test statements y tasks))
          (Run.bind_eq_andThen charge _ _)

/-- Goes on with a round that tests last once its step is counted, or could not be. -/
def afterCount : Outcome Unit → Config
  | .ok _ m => ⟨.start test m, .test .testLast id test statements :: tasks⟩
  | .error exit m =>
    afterRound .testLast id test statements (Outcome.close .popFrame (.error exit m)) tasks

/-- What comes after counting takes over whatever the count then is. -/
theorem recount_afterCount (f : Nat → Nat) (y : Outcome Unit) :
    (afterCount tasks id test statements y).recount f =
      afterCount tasks id test statements (y.recount f) := by
  cases y with
  | ok _ m => rfl
  | error exit m =>
    rw [afterCount, recount_afterRound, Outcome.recount_close]
    rfl

/-- After a pass of a loop that tests last the step is counted, and then comes the test. -/
theorem move_pass_testLast :
    Move setting ⟨.stop x, .pass .testLast id test statements :: tasks⟩ := by
  have hstep (f : Nat → Nat) (charge : Run Unit) :
      stepBy setting charge
          (Config.recount f ⟨.stop x, .pass .testLast id test statements :: tasks⟩) =
        some (resumeBy charge (x.recount f) tasks (.pass .testLast id test statements)) := rfl
  have hsteps : (Run.endOfPass id x).machine.steps = x.machine.steps := by
    rw [Run.machine_endOfPass]
  -- A step is counted if the pass went through. Its frame is still open.
  cases hpass : Run.endOfPass id x with
  | error exit m =>
    refine .silent (afterRound .testLast id test statements
      (Outcome.close .popFrame (.error exit m)) tasks) ?_
    intro f charge
    rw [hstep, resumeBy, ← Outcome.recount_endOfPass, hpass, recount_afterRound,
      Outcome.recount_close]
    rfl
  | ok through m =>
    rw [hpass] at hsteps
    cases through with
    | false =>
      refine .silent (afterRound .testLast id test statements
        (Outcome.close .popFrame (.ok false m)) tasks) ?_
      intro f charge
      rw [hstep, resumeBy, ← Outcome.recount_endOfPass, hpass, recount_afterRound,
        Outcome.recount_close]
      rfl
    | true =>
      refine .counted m (afterCount tasks id test statements) hsteps
        (recount_afterCount tasks id test statements) fun f charge => ?_
      rw [hstep, resumeBy, ← Outcome.recount_endOfPass, hpass]
      have hcount : Outcome.andThen (Outcome.recount f (.ok true m)) (Run.countBy charge) =
          Outcome.andThen (charge (m.recount f)) fun _ => pure true :=
        Run.bind_eq_andThen charge _ _
      rw [hcount]
      cases charge (m.recount f) <;> rfl

end

/-- **There are only three moves.** All but two steps of the machine count nothing. -/
theorem move (setting : Setting) (c : Config) : Move setting c := by
  obtain ⟨control, tasks⟩ := c
  cases control with
  | start e m =>
    exact .silent (enter setting m tasks e) fun f _ =>
      congrArg some (recount_enter f setting m tasks e).symm
  | stop x =>
    cases tasks with
    | nil => exact .ended fun _ _ => rfl
    | cons task tasks =>
      -- The end of a pass is the only place where the counter is asked.
      by_cases htask : ∃ kind id test statements, task = .pass kind id test statements
      · obtain ⟨kind, id, test, statements, rfl⟩ := htask
        cases kind with
        | testFirst => exact move_pass_testFirst x tasks id test statements
        | testLast => exact move_pass_testLast x tasks id test statements
      · refine .silent (resumeBy (pure ()) x tasks task) fun f charge => ?_
        refine congrArg some (recount_resumeBy f x tasks fun kind id test statements h => ?_).symm
        exact htask ⟨kind, id, test, statements, h⟩

/-! ## The unbounded count -/

variable {setting : Setting} {c c' : Config}

/-- A run that makes its point out of how counting ended has counted as much as that. -/
theorem steps_next {next : Outcome Unit → Config}
    (hnext : ∀ f y, (next y).recount f = next (y.recount f)) (y : Outcome Unit) :
    (next y).machine.steps = y.machine.steps := by
  have heq := hnext (fun _ => y.machine.steps) y
  rw [y.recount_const] at heq
  rw [← heq, Config.steps_recount]

/-- The unbounded count grows by one, also where the limit is hit. -/
theorem steps_tally (limits : Limits) (m : Machine) :
    (Outcome.machine (Run.tally limits m)).steps = m.steps + 1 := by
  unfold Run.tally Limits.tally
  by_cases hover : limits.steps < m.steps + 1
  · rw [if_pos hover]
    rfl
  · rw [if_neg hover]
    rfl

/-- A step under the unbounded count, and what it is under any other counter. -/
theorem step_cases (h : step setting c = some c') :
    (∀ f charge, stepBy setting charge (c.recount f) = some (c'.recount f)) ∨
      ∃ (m : Machine) (next : Outcome Unit → Config), m.steps = c.machine.steps ∧
        (∀ f y, (next y).recount f = next (y.recount f)) ∧
        (∀ f charge, stepBy setting charge (c.recount f) = some (next (charge (m.recount f)))) ∧
        c' = next (Run.tally setting.limits m) := by
  -- The step itself is the case in which every count is kept.
  have hid : stepBy setting (Run.tally setting.limits) (c.recount id) = some c' := by
    rw [Config.recount_id]
    exact h
  cases move setting c with
  | ended hended => cases hid.symm.trans (hended id _)
  | silent c'' hsilent =>
    have heq : c' = c''.recount id := Option.some.inj (hid.symm.trans (hsilent id _))
    rw [Config.recount_id] at heq
    exact .inl (heq ▸ hsilent)
  | counted m next hsteps hnext hstep =>
    exact .inr ⟨m, next, hsteps, hnext, hstep, Option.some.inj (hid.symm.trans (hstep id _))⟩

theorem steps_le_of_step (h : step setting c = some c') : c.machine.steps ≤ c'.machine.steps := by
  rcases step_cases h with hsilent | ⟨m, next, hsteps, hnext, -, rfl⟩
  · -- The count that is there already is one of the counts that the step keeps.
    have hkept := hsilent (fun _ => c.machine.steps) (Run.tally setting.limits)
    rw [Config.recount_const] at hkept
    have heq : c' = c'.recount fun _ => c.machine.steps := Option.some.inj (h.symm.trans hkept)
    have hsteps : c'.machine.steps = c.machine.steps := by rw [heq, Config.steps_recount]
    exact Nat.le_of_eq hsteps.symm
  · rw [steps_next hnext, steps_tally, ← hsteps]
    exact Nat.le_succ _

theorem Leads.steps_le (h : Leads setting c c') : c.machine.steps ≤ c'.machine.steps := by
  induction h with
  | refl => exact Nat.le_refl _
  | tail _ hstep ih => exact Nat.le_trans ih (steps_le_of_step hstep)

/-! ## Runs under another counter -/

/-- A step on the way does not change the end. -/
theorem Config.endBy?_of_step {charge : Run Unit} (h : stepBy setting charge c = some c') :
    c.endBy? setting charge = c'.endBy? setting charge := by
  obtain ⟨control, tasks⟩ := c
  cases control with
  | start e m =>
    cases h
    rw [Config.endBy?]
  | stop x =>
    cases tasks with
    | nil => cases h
    | cons task tasks =>
      cases h
      rw [Config.endBy?]

/-- **A run under the unbounded count is a run under another counter** if the two end alike, up to
the recounting, each time the run counts a step. -/
theorem Config.endBy?_recount {setting' : Setting} (hsame : stepBy setting' = stepBy setting)
    {f : Nat → Nat} {charge : Run Unit} {x : Outcome Literal}
    (hleads : Leads setting c ⟨.stop x, []⟩)
    (hcharge : ∀ m, m.steps < x.machine.steps →
      charge (m.recount f) = Outcome.recount f (Run.tally setting.limits m)) :
    (c.recount f).endBy? setting' charge = some (x.recount f) := by
  induction hleads using Relation.ReflTransGen.head_induction_on with
  | refl =>
    show Config.endBy? setting' charge ⟨.stop (x.recount f), []⟩ = _
    rw [Config.endBy?]
  | @head c c₁ hstep hrest ih =>
    rw [← ih]
    apply Config.endBy?_of_step
    rw [hsame]
    rcases step_cases hstep with hsilent | ⟨m, next, -, hnext, hcounted, rfl⟩
    · exact hsilent f charge
    · -- The step that is counted here is one of those counted in the end.
      have hlt : m.steps < x.machine.steps := by
        have hle := Leads.steps_le hrest
        rw [steps_next hnext, steps_tally] at hle
        exact hle
      rw [hcounted f charge, hcharge m hlt, hnext]

end Stepwise

/-! ## The counter of 64 bits -/

namespace Run

/-- Below the greatest number the counter of 64 bits does what the unbounded count does. -/
theorem charge_eq_tally (limits : Limits) {m : Machine} (h : m.steps + 1 < UInt64.size) :
    charge limits m = tally limits m := by
  have hcount : (UInt64.ofNat m.steps + 1).toNat = m.steps + 1 := by
    rw [UInt64.toNat_add, UInt64.toNat_ofNat_of_lt' (by omega)]
    exact Nat.mod_eq_of_lt h
  unfold charge tally Limits.charge Limits.tally
  rw [hcount]
  by_cases hover : limits.steps < m.steps + 1
  · rw [if_pos hover, if_pos hover]
    simp only [hcount]
  · rw [if_neg hover, if_neg hover]
    simp only [hcount]

/-- A limit that no number of 64 bits exceeds is never hit, and the count is taken modulo
`UInt64.size`. -/
theorem charge_recount {limits : Limits} (hlimits : UInt64.size ≤ limits.steps + 1) (m : Machine) :
    charge limits (m.recount (· % UInt64.size)) =
      .ok () ({ m with steps := m.steps + 1 }.recount (· % UInt64.size)) := by
  have hcount : (UInt64.ofNat (m.steps % UInt64.size) + 1).toNat =
      (m.steps + 1) % UInt64.size := by
    rw [UInt64.toNat_add, UInt64.toNat_ofNat_of_lt' (Nat.mod_lt _ (by decide))]
    exact Nat.mod_add_mod m.steps UInt64.size 1
  have hwithin : ¬ limits.steps < (m.steps + 1) % UInt64.size := by
    have hlt := Nat.mod_lt (m.steps + 1) (show 0 < UInt64.size by decide)
    omega
  unfold charge Limits.charge Machine.recount
  simp only [hcount, if_neg hwithin]

end Run

namespace Setting

variable {setting : Setting}

/-- **The counter of 64 bits makes no difference** to an evaluation whose count stays below
`UInt64.size`. -/
theorem eval?_eq {e : Expr} {m : Machine}
    (h : (Outcome.machine (setting.eval e m)).steps < UInt64.size) :
    setting.eval? e m = some (setting.eval e m) := by
  have hcharge (m' : Machine) (hlt : m'.steps < (Outcome.machine (setting.eval e m)).steps) :
      Run.charge setting.limits (m'.recount id) =
        Outcome.recount id (Run.tally setting.limits m') := by
    -- A step that is counted on the way is below the count at the end.
    have hbelow : m'.steps + 1 < UInt64.size := by omega
    rw [Outcome.recount_id]
    exact Run.charge_eq_tally setting.limits hbelow
  have hend := Stepwise.Config.endBy?_recount rfl (Stepwise.leads_eval setting e m []) hcharge
  rw [Outcome.recount_id] at hend
  exact hend

/-- **Where the counter of 64 bits cannot exceed the limit, it starts over.** Evaluation then ends
as under any other limit that is not hit, with the count modulo `UInt64.size`. -/
theorem eval?_wrapped {program : Program} {marker : String} {limits : Limits} {steps : Nat}
    (hlimits : UInt64.size ≤ limits.steps + 1) {e : Expr} {m : Machine} {x : Outcome Literal}
    (heval : eval ⟨program, marker, ⟨steps, limits.depth⟩⟩ e m = x)
    (hsteps : x.machine.steps ≤ steps) :
    eval? ⟨program, marker, limits⟩ e (m.recount (· % UInt64.size)) =
      some (x.recount (· % UInt64.size)) := by
  let other : Setting := ⟨program, marker, ⟨steps, limits.depth⟩⟩
  -- The machine takes nothing but the depth from the limits.
  have hsame : Stepwise.stepBy ⟨program, marker, limits⟩ = Stepwise.stepBy other := rfl
  have hcharge (m' : Machine) (hlt : m'.steps < x.machine.steps) :
      Run.charge limits (m'.recount (· % UInt64.size)) =
        Outcome.recount (· % UInt64.size) (Run.tally other.limits m') := by
    have htally : other.limits.tally m'.steps = .ok () (m'.steps + 1) :=
      if_neg (show ¬ steps < m'.steps + 1 by omega)
    rw [Run.charge_recount hlimits]
    simp only [Run.tally, htally, Outcome.recount]
  have hleads := Stepwise.leads_eval other e m []
  rw [heval] at hleads
  exact Stepwise.Config.endBy?_recount hsame hleads hcharge

end Setting

end CallFolding
