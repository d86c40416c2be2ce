import CallFolding.Proofs.Course
import CallFolding.Proofs.Metered

/-!
Evaluation is bounded. Whatever the program is and whether or not its calls are eligible, evaluating
a call comes to an end, and at every point on the way there are no more activations open than the
limit on depth allows, and no more steps counted than one beyond the limit on steps.

The invariant is about the stack of tasks. Each open activation has a task that closes it, so it is
enough to know that there was room for each of those, and that there still is for each call whose
operands are being evaluated (`Roomy`).
-/

set_option autoImplicit false

namespace CallFolding

namespace Stepwise

variable {limits : Limits}

/-! ## Tasks -/

/-- How many activations are open as long as these tasks are left. -/
def opened : List Task → Nat
  | [] => 0
  | .leave _ :: tasks => opened tasks + 1
  | _ :: tasks => opened tasks

/-- An activation is going to be opened. -/
def Use.NeedsRoom : Use → Prop
  | .body _ _ => True
  | .primitive _ => False

/-- The task is about an activation of its own. -/
def Task.NeedsRoom : Task → Prop
  | .leave _ => True
  | .operand use _ _ => use.NeedsRoom
  | _ => False

/-- Under each task that is about an activation there is room for it. -/
def Roomy (depth : Nat) : List Task → Prop
  | [] => True
  | task :: tasks => (task.NeedsRoom → opened tasks < depth) ∧ Roomy depth tasks

/-- Where there was room for every activation, no more are open than the limit allows. -/
theorem opened_le {depth : Nat} {tasks : List Task} (h : Roomy depth tasks) :
    opened tasks ≤ depth := by
  induction tasks with
  | nil => exact Nat.zero_le _
  | cons task tasks ih =>
    obtain ⟨hroom, htasks⟩ := h
    cases task with
    -- The room under the innermost activation counts those below it already.
    | leave function => exact hroom trivial
    | _ => exact ih htasks

/-! ## States and ends within the limits -/

/-- A state within the limits, with this many activations open. -/
structure Sound (limits : Limits) (n : Nat) (m : Machine) : Prop where
  depth : m.scope.depth = n
  steps : m.steps ≤ limits.steps

/-- An end within the limits, with this many activations open. -/
structure Kept {α : Type} (limits : Limits) (n : Nat) (x : Outcome α) : Prop where
  depth : x.machine.scope.depth = n
  respects : x.Respects limits

section

variable {α β : Type} {n : Nat} {m : Machine} {x : Outcome α}

/-- From a sound state a value is an end within the limits. -/
theorem Sound.value (h : Sound limits n m) (a : α) : Kept limits n (.ok a m) :=
  ⟨h.depth, .value a h.steps⟩

theorem Sound.exit (h : Sound limits n m) {x : Exit} (hx : x.Quotes limits) :
    Kept limits n (.error x m : Outcome α) :=
  ⟨h.depth, .exit hx h.steps⟩

/-- So is the end of any run that keeps its activations and its steps. -/
theorem Sound.run (h : Sound limits n m) {r : Run α} (hsteady : r.Steady)
    (hmetered : r.Metered limits) : Kept limits n (r m) :=
  ⟨(hsteady m).depth_eq.trans h.depth, hmetered m h.steps⟩

namespace Kept

/-- What goes on after a value goes on in a sound state. -/
theorem sound_of_ok {a : α} (h : Kept limits n (.ok a m)) : Sound limits n m :=
  ⟨h.depth, h.respects.steps_of_ok⟩

/-- Exits do not depend on the result that is asked for. -/
theorem of_error {exit : Exit} (h : Kept limits n (.error exit m : Outcome α)) :
    Kept limits n (.error exit m : Outcome β) :=
  ⟨h.depth, h.respects.of_error⟩

/-- An end within the limits, and then another. -/
theorem andThen (h : Kept limits n x) {f : α → Run β}
    (hf : ∀ a m, Sound limits n m → Kept limits n (f a m)) : Kept limits n (x.andThen f) := by
  cases x with
  | ok a m => exact hf a m h.sound_of_ok
  | error exit m => exact h.of_error

/-- Closing a frame closes no activation. -/
theorem closeFrame (h : Kept limits n x) : Kept limits n (x.close .popFrame) := by
  refine ⟨?_, h.respects.close _⟩
  cases hpop : x.machine.scope.popFrame with
  | error cause =>
    rw [Outcome.closeFrame_of_error hpop]
    exact h.depth
  | ok scope =>
    rw [Outcome.closeFrame_of_ok hpop, Outcome.machine_withScope, ← h.depth]
    exact congrArg Array.size (Scope.activations_of_popFrame hpop)

/-- There is an activation to close, and one less after that. -/
theorem closeActivation (h : Kept limits (n + 1) x) :
    Kept limits n (x.close .popActivation) := by
  refine ⟨?_, h.respects.close _⟩
  obtain ⟨scope, hpop, hdepth⟩ := Scope.popActivation_of_depth h.depth
  rw [Outcome.closeActivation_of_ok hpop, Outcome.machine_withScope]
  exact hdepth

/-- Taking a jump leaves an end within the limits. -/
theorem endOfPass {x : Outcome Literal} (h : Kept limits n x) (id : LoopId) :
    Kept limits n (Run.endOfPass id x) := by
  refine ⟨?_, h.respects.endOfPass id⟩
  rw [Run.machine_endOfPass]
  exact h.depth

theorem endOfCall {x : Outcome Literal} (h : Kept limits n x) (function : Function) :
    Kept limits n (Run.endOfCall function x) := by
  refine ⟨?_, h.respects.endOfCall function⟩
  rw [Run.machine_endOfCall]
  exact h.depth

end Kept

/-- Opening a frame opens no activation. -/
theorem Sound.framed (h : Sound limits n m) : Sound limits n m.framed :=
  ⟨h.depth, h.steps⟩

/-- Operations neither open anything nor count. -/
theorem Sound.applyPrimitive (h : Sound limits n m) (function : Function)
    (values : List Literal) : Kept limits n (Setting.applyPrimitive function values m) := by
  unfold Setting.applyPrimitive
  cases dispatch function.name (Setting.operands function values) with
  | ok value => exact h.value value
  | error error =>
    exact h.exit (Exit.quotes_of_not_isLimit (Exit.not_isLimit_ofOperation error) limits)

/-- Asking for a truth value does nothing else. -/
theorem Sound.truth (h : Sound limits n m) (value : Literal) :
    Kept limits n (Run.truth value m) := by
  unfold Run.truth
  cases value.boolean? with
  | some b => exact h.value b
  | none => exact h.exit trivial

/-- Counting a step may be what ends the run, but it does not go further beyond the limit. -/
theorem Sound.count (h : Sound limits n m) (through : Bool) :
    Kept limits n (Run.count limits through m) := by
  refine h.run (Run.steady_count limits through) ?_
  cases through with
  | false => exact .value false
  | true => exact (Run.Metered.tally limits).bind fun _ => .value true

end

theorem metered_bindOperands (operands : List (String × Literal)) :
    (Setting.bindOperands operands).Metered limits := by
  induction operands with
  | nil => exact .value ()
  | cons operand rest ih => exact (Run.Metered.define operand.1 operand.2).bind fun _ => ih

/-! ## Points within the limits -/

/-- The point is within the limits, with this many activations open. -/
def Control.Within (limits : Limits) (n : Nat) : Control → Prop
  | .start _ m => Sound limits n m
  | .stop x => Kept limits n x

/-- A point of an evaluation that keeps to its limits. -/
structure Bounded (limits : Limits) (c : Config) : Prop where
  tasks : Roomy limits.depth c.tasks
  control : c.control.Within limits (opened c.tasks)

section

variable {tasks : List Task} (htasks : Roomy limits.depth tasks)

include htasks

/-- After a value things go on from a state within the limits; an exit only goes further out. -/
theorem bounded_onValue {α : Type} {x : Outcome α} {next : α → Machine → Config}
    (hx : Kept limits (opened tasks) x)
    (hnext : ∀ a m, Sound limits (opened tasks) m → Bounded limits (next a m)) :
    Bounded limits (onValue tasks x next) := by
  cases x with
  | ok a m => exact hnext a m hx.sound_of_ok
  | error exit m => exact ⟨htasks, hx.of_error⟩

section

variable {m : Machine} (hm : Sound limits (opened tasks) m)

include hm

/-- A part starts, and a task that closes no activation waits for it. -/
theorem bounded_wait (e : Expr) {task : Task} (htask : opened (task :: tasks) = opened tasks)
    (hroom : task.NeedsRoom → opened tasks < limits.depth) :
    Bounded limits ⟨.start e m, task :: tasks⟩ := by
  refine ⟨⟨hroom, htasks⟩, ?_⟩
  rw [htask]
  exact hm

theorem bounded_statements (last : Literal) (es : List Expr) :
    Bounded limits (statementsFrom m tasks last es) := by
  cases es with
  | nil => exact ⟨htasks, hm.value last⟩
  | cons e es => exact bounded_wait htasks hm e rfl False.elim

theorem bounded_arms (arms : List (Expr × Expr)) : Bounded limits (armsFrom m tasks arms) := by
  cases arms with
  | nil => exact ⟨htasks, hm.value Literal.unit⟩
  | cons arm arms => exact bounded_wait htasks hm arm.1 rfl False.elim

/-- The task that closes the activation is there from the start, and there was room for it. -/
theorem bounded_body (hroom : opened tasks < limits.depth) (function : Function) (body : Expr)
    (values : List Literal) : Bounded limits (bodyFrom m tasks function body values) := by
  have hleave : Roomy limits.depth (.leave function :: tasks) := ⟨fun _ => hroom, htasks⟩
  have hactivated : Sound limits (opened (.leave function :: tasks)) m.activated := by
    refine ⟨?_, hm.steps⟩
    rw [Scope.depth_pushActivation, hm.depth]
    rfl
  refine bounded_onValue hleave (hactivated.run (Setting.steady_bindOperands _) ?_) ?_
  · exact metered_bindOperands _
  · exact fun _ m hm => ⟨hleave, hm⟩

/-- Going on with the operands of a call, or with the call itself once all have values. -/
theorem bounded_operands {use : Use} (hroom : use.NeedsRoom → opened tasks < limits.depth)
    (values : List Literal) (es : List Expr) :
    Bounded limits (operandsFrom m tasks use values es) := by
  cases es with
  | cons e es => exact bounded_wait htasks hm e rfl hroom
  | nil =>
    cases use with
    | body function body => exact bounded_body htasks hm (hroom trivial) function body values
    | primitive function => exact ⟨htasks, hm.applyPrimitive function values⟩

/-- Starting on the operands of an operation, which needs no room. -/
theorem bounded_primitive (function : Function) (es : List Expr) :
    Bounded limits (primitiveFrom m tasks function es) := by
  cases es with
  | nil => exact ⟨htasks, hm.applyPrimitive function []⟩
  | cons e es => exact bounded_wait htasks hm e rfl False.elim

theorem bounded_round (kind : LoopKind) (id : LoopId) (test : Expr) (es : List Expr) :
    Bounded limits (roundFrom m tasks kind id test es) := by
  cases kind with
  | testFirst => exact bounded_wait htasks hm test rfl False.elim
  | testLast =>
    have hpass : Roomy limits.depth (.pass .testLast id test es :: tasks) :=
      ⟨False.elim, htasks⟩
    exact bounded_statements hpass hm.framed .unit es

end

/-- Ending a round of a loop: the next one starts, or the loop is over. -/
theorem bounded_afterRound {x : Outcome Bool} (hx : Kept limits (opened tasks) x) (kind : LoopKind)
    (id : LoopId) (test : Expr) (es : List Expr) :
    Bounded limits (afterRound kind id test es x tasks) := by
  refine bounded_onValue htasks hx fun again m hm => ?_
  cases again with
  | true => exact bounded_round htasks hm kind id test es
  | false => exact ⟨htasks, hm.value Literal.unit⟩

end

/-! ## What a step keeps -/

variable {setting : Setting}

section

variable {tasks : List Task} (htasks : Roomy setting.limits.depth tasks)

include htasks

section

variable {m : Machine} (hm : Sound setting.limits (opened tasks) m)

include hm

/-- A call that is not refused has room for one more activation than are open. -/
theorem bounded_marked (function : Function) (es : List Expr) :
    Bounded setting.limits (markedFrom setting m tasks function es) := by
  unfold markedFrom Limits.enter
  by_cases hfull : setting.limits.room m.scope.depth = 0
  · rw [if_pos hfull]
    exact ⟨htasks, hm.exit (.inr rfl)⟩
  · rw [if_neg hfull]
    -- The state has as many activations open as the tasks will close.
    have hroom : opened tasks < setting.limits.depth := by
      rw [← hm.depth]
      unfold Limits.room at hfull
      omega
    cases function.body with
    | none => exact ⟨htasks, hm.exit trivial⟩
    | some body => exact bounded_operands htasks hm (fun _ => hroom) [] es

/-- Starting a call. Only calls of marked functions open an activation. -/
theorem bounded_call (call : Call) : Bounded setting.limits (callFrom setting m tasks call) := by
  unfold callFrom
  cases setting.program.function? call.callee with
  | none => exact ⟨htasks, hm.exit trivial⟩
  | some function =>
    dsimp only
    by_cases harity : call.operands.length ≠ function.arity
    · rw [if_pos harity]
      exact ⟨htasks, hm.exit trivial⟩
    · rw [if_neg harity]
      cases function.classify setting.marker with
      | marked => exact bounded_marked htasks hm function call.operands
      | primitive => exact bounded_primitive htasks hm function call.operands
      | other => exact ⟨htasks, hm.exit trivial⟩

/-- Starting any expression keeps a point within the limits. -/
theorem bounded_enter (e : Expr) : Bounded setting.limits (enter setting m tasks e) := by
  have hframe : Roomy setting.limits.depth (.frame :: tasks) := ⟨False.elim, htasks⟩
  cases e with
  | const value => exact ⟨htasks, hm.value value⟩
  | read name owner => exact ⟨htasks, hm.run (.read name) (.read name)⟩
  | declare name type init =>
    cases init with
    | none => exact ⟨htasks, hm.exit trivial⟩
    | some init => exact bounded_wait htasks hm init rfl False.elim
  | assign name owner value => exact bounded_wait htasks hm value rfl False.elim
  | call id receiver args => exact bounded_call htasks hm ⟨id, receiver, args⟩
  | block es => exact bounded_statements hframe hm.framed .unit es
  | branch arms => exact bounded_arms hframe hm.framed arms
  | loop kind id label test body =>
    exact bounded_round hframe hm.framed kind id test (Expr.statements body)
  | returnFrom target value => exact bounded_wait htasks hm value rfl False.elim
  | breakLoop target => exact ⟨htasks, hm.exit trivial⟩
  | continueLoop target => exact ⟨htasks, hm.exit trivial⟩

end

end

/-- Going on with any task keeps a point within the limits. -/
theorem bounded_resume {x : Outcome Literal} {task : Task} {tasks : List Task}
    (htasks : Roomy setting.limits.depth (task :: tasks))
    (hx : Kept setting.limits (opened (task :: tasks)) x) :
    Bounded setting.limits (resume setting x tasks task) := by
  obtain ⟨hroom, htasks⟩ := htasks
  cases task with
  | declare name =>
    refine ⟨htasks, Kept.andThen hx fun value m hm => hm.run ?_ ?_⟩
    · exact (Run.Steady.define name value).bind fun _ m => .value value m
    · exact (Run.Metered.define name value).bind fun _ => .value value
  | assign name =>
    refine ⟨htasks, Kept.andThen hx fun value m hm => hm.run ?_ ?_⟩
    · exact (Run.Steady.assign name value).bind fun _ m => .value value m
    · exact (Run.Metered.assign name value).bind fun _ => .value value
  | returnFrom target => exact ⟨htasks, Kept.andThen hx fun value m hm => hm.exit trivial⟩
  | operand use values rest =>
    exact bounded_onValue htasks hx fun value m hm =>
      bounded_operands htasks hm hroom (values ++ [value]) rest
  | first function rest =>
    refine bounded_onValue htasks hx fun value m hm => ?_
    split
    · exact ⟨htasks, hm.value value⟩
    · exact bounded_operands htasks hm False.elim [value] rest
  | leave function => exact ⟨htasks, (Kept.closeActivation hx).endOfCall function⟩
  | frame => exact ⟨htasks, Kept.closeFrame hx⟩
  | statement rest =>
    exact bounded_onValue htasks hx fun value m hm => bounded_statements htasks hm value rest
  | arm result rest =>
    have hcondition := Kept.andThen hx fun value m hm => hm.truth value
    refine bounded_onValue htasks hcondition fun holds m hm => ?_
    cases holds with
    | true => exact ⟨htasks, hm⟩
    | false => exact bounded_arms htasks hm rest
  | test kind id test es =>
    have hcondition := Kept.andThen hx fun value m hm => hm.truth value
    cases kind with
    | testFirst =>
      have hpass : Roomy setting.limits.depth (.pass .testFirst id test es :: tasks) :=
        ⟨False.elim, htasks⟩
      refine bounded_onValue htasks hcondition fun holds m hm => ?_
      cases holds with
      | true => exact bounded_statements hpass hm.framed .unit es
      | false => exact ⟨htasks, hm.value Literal.unit⟩
    | testLast => exact bounded_afterRound htasks hcondition.closeFrame .testLast id test es
  | pass kind id test es =>
    have hpass := Kept.endOfPass hx id
    cases kind with
    | testFirst =>
      have hcounted := Kept.andThen hpass.closeFrame fun through m hm => hm.count through
      exact bounded_afterRound htasks hcounted .testFirst id test es
    | testLast =>
      have hcounted := Kept.andThen hpass fun through m hm => hm.count through
      -- After a pass the count decides: on with the test, or out of the frame of the round.
      simp only [resume, resumeBy]
      split
      · rename_i m heq
        rw [heq] at hcounted
        exact bounded_wait htasks hcounted.sound_of_ok test rfl False.elim
      · rename_i m heq
        rw [heq] at hcounted
        exact bounded_afterRound htasks hcounted.closeFrame .testLast id test es
      · rename_i exit m heq
        rw [heq] at hcounted
        exact bounded_afterRound htasks hcounted.closeFrame .testLast id test es

/-- One step keeps a point within the limits. -/
theorem Bounded.step {c c' : Config} (h : Bounded setting.limits c)
    (hstep : step setting c = some c') : Bounded setting.limits c' := by
  obtain ⟨control, tasks⟩ := c
  obtain ⟨htasks, hcontrol⟩ := h
  cases control with
  | start e m =>
    cases hstep
    exact bounded_enter htasks hcontrol e
  | stop x =>
    cases tasks with
    | nil => cases hstep
    | cons task tasks =>
      cases hstep
      exact bounded_resume htasks hcontrol

theorem Bounded.leads {c c' : Config} (h : Bounded setting.limits c)
    (hleads : Leads setting c c') : Bounded setting.limits c' := by
  induction hleads with
  | refl => exact h
  | tail _ hstep ih => exact ih.step hstep

/-- A point within the limits has no more activations open than the limit on depth. -/
theorem Bounded.depth_le {c : Config} (h : Bounded limits c) :
    c.machine.scope.depth ≤ limits.depth := by
  obtain ⟨control, tasks⟩ := c
  obtain ⟨htasks, hcontrol⟩ := h
  have hdepth : (Config.machine ⟨control, tasks⟩).scope.depth = opened tasks := by
    cases control with
    | start e m => exact Sound.depth hcontrol
    | stop x => exact Kept.depth hcontrol
  rw [hdepth]
  exact opened_le htasks

/-- It has counted at most one step more than the limit on steps. -/
theorem Bounded.steps_le {c : Config} (h : Bounded limits c) :
    c.machine.steps ≤ limits.steps + 1 := by
  obtain ⟨control, tasks⟩ := c
  cases control with
  | start e m => exact Nat.le_succ_of_le (Sound.steps h.control)
  | stop x =>
    rcases (Kept.respects h.control).within with hle | ⟨heq, _⟩
    · exact Nat.le_succ_of_le hle
    · exact Nat.le_of_eq heq

/-! ## Evaluation -/

/-- There is only one way to go on, so whatever lies on the way to a point with nothing left to be
done leads there. -/
theorem Leads.of_leads_stop {c d : Config} {x : Outcome Literal}
    (hstop : Leads setting c ⟨.stop x, []⟩) (h : Leads setting c d) :
    Leads setting d ⟨.stop x, []⟩ := by
  have hunique : Relator.RightUnique fun c c' => Stepwise.step setting c = some c' := by
    intro a b c hb hc
    exact Option.some.inj (hb.symm.trans hc)
  rcases Relation.ReflTransGen.total_of_right_unique hunique h hstop with hd | hd
  · exact hd
  · -- Nothing comes after the stop, so the point is the stop itself.
    rcases Relation.ReflTransGen.cases_head hd with rfl | ⟨_, hstep, _⟩
    · exact .refl
    · cases hstep

/-- A call starts within the limits: nothing is open and nothing counted. -/
theorem bounded_start (setting : Setting) (call : Call) :
    Bounded setting.limits ⟨.start call.expr {}, []⟩ :=
  ⟨trivial, rfl, Nat.zero_le _⟩

/-- **Evaluation is bounded.** The machine that is not told when to stop does stop after a call,
with nothing left to be done and with what the evaluator says. On the way it starts every part that
the evaluator starts, in the same state, and ends it with the same outcome. It stops from every
point it comes to, and at each of them the activations that are open are no more than the limit on
depth, and the steps that are counted at most one more than the limit on steps. -/
theorem bounded_evaluation (setting : Setting) (call : Call) :
    ∃ x : Outcome Literal, setting.evalCallFrom call {} = (x.result, x.machine) ∧
      step setting ⟨.stop x, []⟩ = none ∧ Leads setting ⟨.start call.expr {}, []⟩ ⟨.stop x, []⟩ ∧
      (∀ b, setting.Reaches (setting.start call) b → ∃ tasks,
        Leads setting ⟨.start call.expr {}, []⟩ ⟨.start b.expr b.machine, tasks⟩ ∧
          Leads setting ⟨.start b.expr b.machine, tasks⟩ ⟨.stop (setting.outcome b), tasks⟩) ∧
      ∀ c, Leads setting ⟨.start call.expr {}, []⟩ c →
        Leads setting c ⟨.stop x, []⟩ ∧ c.machine.scope.depth ≤ setting.limits.depth ∧
          c.machine.steps ≤ setting.limits.steps + 1 := by
  have hstop := leads_eval setting call.expr {} []
  refine ⟨setting.eval call.expr {}, setting.evalCallFrom_eq call, rfl, hstop, ?_, ?_⟩
  · intro b hb
    -- What the evaluator comes to is a point of the machine, with some tasks left under it.
    obtain ⟨tasks, hleads⟩ := exists_leads_of_reaches hb
    exact ⟨tasks, hleads, agrees setting b.room b.expr b.machine tasks hb.room_eq⟩
  · intro c hc
    have hbounded := (bounded_start setting call).leads hc
    exact ⟨hstop.of_leads_stop hc, hbounded.depth_le, hbounded.steps_le⟩

end Stepwise

end CallFolding
