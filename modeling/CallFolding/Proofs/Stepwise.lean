import CallFolding.Evaluation.Stepwise
import CallFolding.Proofs.Origin

/-!
The machine that evaluates one step at a time, with an unbounded count of the steps.

Nothing in the machine says that it ever stops: a loop goes on as long as its rounds ask for more.
The evaluator is a function of the tree, given the rounds and the room beforehand. If the machine
counts as the evaluator does it stops, with what the evaluator says (`leads_eval`).
-/

set_option autoImplicit false

namespace CallFolding

namespace Run

/-- Counts a step if a pass went through. -/
abbrev count (limits : Limits) (through : Bool) : Run Bool :=
  countBy (tally limits) through

/-- Counting leaves the variables alone. -/
theorem steady_count (limits : Limits) (through : Bool) : (count limits through).Steady := by
  cases through with
  | false => exact fun m => .value false m
  | true => exact (Steady.tally limits).bind fun _ m => .value true m

/-- A condition is its expression followed by a look at the value. -/
theorem condition_eq (r : Run Literal) (m : Machine) :
    r.condition m = Outcome.andThen (r m) truth :=
  bind_eq_andThen r truth m

/-- A round that tests first, with the pass and its step put together. -/
theorem firstPass_eq (limits : Limits) (id : LoopId) (test : Run Literal)
    (statements : List (Run Literal)) :
    firstPass limits id test statements = (test.condition >>= fun holds =>
      if holds then (pass id statements).inFrame >>= count limits else pure false) := rfl

/-- The step is counted between the pass and the test. -/
theorem passAndTest_eq (limits : Limits) (id : LoopId) (test : Run Literal)
    (statements : List (Run Literal)) :
    passAndTest limits id test statements = ((pass id statements >>= count limits) >>= fun again =>
      if again then test.condition else pure false) := by
  rw [passAndTest, bind_assoc]
  refine congrArg _ (funext fun through => ?_)
  cases through with
  | false => rfl
  | true =>
    simp only [countBy, if_true, bind_assoc, pure_bind]

end Run

namespace Stepwise

/-- The state at this point. -/
def Control.machine : Control → Machine
  | start _ m => m
  | stop x => x.machine

/-- The state that the machine is in. -/
def Config.machine (c : Config) : Machine :=
  c.control.machine

section

variable (setting : Setting)

/-- Goes on with a task after the part it was waiting for has ended. -/
abbrev resume (x : Outcome Literal) (tasks : List Task) (task : Task) : Config :=
  resumeBy (Run.tally setting.limits) x tasks task

/-- One step. There is none if nothing is left to be done. -/
abbrev step (c : Config) : Option Config :=
  stepBy setting (Run.tally setting.limits) c

/-- Steps lead from the first point to the second. -/
def Leads : Config → Config → Prop :=
  Relation.ReflTransGen fun c c' => step setting c = some c'

end

namespace Leads

variable {setting : Setting} {c : Config}

theorem enter {e : Expr} {m : Machine} {tasks : List Task}
    (h : Leads setting (enter setting m tasks e) c) : Leads setting ⟨.start e m, tasks⟩ c :=
  .head rfl h

/-- The step back to a task that waits. -/
theorem resume {x : Outcome Literal} {task : Task} {tasks : List Task}
    (h : Leads setting (resume setting x tasks task) c) :
    Leads setting ⟨.stop x, task :: tasks⟩ c :=
  .head rfl h

end Leads

/-! ## The evaluator's part -/

variable {setting : Setting}

/-- Wherever there is this much room, the machine stops after the expression with what the evaluator
says, and whatever else is left to be done stays as it was. -/
def Agrees (setting : Setting) (room : Nat) (e : Expr) : Prop :=
  ∀ (m : Machine) (tasks : List Task), setting.limits.room m.scope.depth = room →
    Leads setting ⟨.start e m, tasks⟩ ⟨.stop (setting.evalAt room e m), tasks⟩

/-- A part with a task that waits for it. -/
theorem Agrees.resume {room : Nat} {e : Expr} {m : Machine} {task : Task} {tasks : List Task}
    {c : Config} (h : Agrees setting room e) (hm : setting.limits.room m.scope.depth = room)
    (hc : Leads setting (resume setting (setting.evalAt room e m) tasks task) c) :
    Leads setting ⟨.start e m, task :: tasks⟩ c :=
  Relation.ReflTransGen.trans (h m _ hm) hc.resume

/-- A run that ended with a value has left as much room as there was. -/
theorem room_of_ok {α : Type} {r : Run α} {a : α} {m m' : Machine} {room : Nat} (hr : r.Steady)
    (h : r m = .ok a m') (hm : setting.limits.room m.scope.depth = room) :
    setting.limits.room m'.scope.depth = room := by
  have hdepth : m'.scope.depth = m.scope.depth := (hr.keeps_of_ok h).depth_eq
  rw [hdepth, hm]

section

variable {room : Nat} {m : Machine} (tasks : List Task)
  (hm : setting.limits.room m.scope.depth = room)

include hm

/-! ### Sequences and choices -/

/-- Statements are evaluated one after the other, and an exit skips the rest. -/
theorem leads_statements {es : List Expr} (h : ∀ e ∈ es, Agrees setting room e) (last : Literal) :
    Leads setting (statementsFrom m tasks last es)
      ⟨.stop (Run.inOrder last (es.map (setting.evalAt room)) m), tasks⟩ := by
  induction es generalizing m last with
  | nil => exact .refl
  | cons e es ih =>
    refine (h e List.mem_cons_self).resume hm ?_
    rw [List.map_cons, Run.inOrder]
    cases he : setting.evalAt room e m with
    | ok value m' =>
      rw [Run.bind_of_ok he]
      have hm' := room_of_ok (setting.steady_evalAt room e) he hm
      exact ih hm' (fun e he => h e (List.mem_cons_of_mem _ he)) value
    | error exit m' =>
      rw [Run.bind_of_error he]
      exact .refl

/-- Arms are tried one after the other. -/
theorem leads_arms {arms : List (Expr × Expr)}
    (h : ∀ arm ∈ arms, Agrees setting room arm.1 ∧ Agrees setting room arm.2) :
    Leads setting (armsFrom m tasks arms) ⟨.stop (Run.firstTrue
      (arms.map fun arm => (setting.evalAt room arm.1, setting.evalAt room arm.2)) m), tasks⟩ := by
  induction arms generalizing m with
  | nil => exact .refl
  | cons arm arms ih =>
    obtain ⟨test, result⟩ := arm
    obtain ⟨htest, hresult⟩ := h (test, result) List.mem_cons_self
    refine htest.resume hm ?_
    rw [List.map_cons, Run.firstTrue]
    have hsteady := (setting.steady_evalAt room test).condition
    rw [resume, resumeBy, ← Run.condition_eq]
    cases hholds : (setting.evalAt room test).condition m with
    | error exit m' =>
      rw [Run.bind_of_error hholds]
      exact .refl
    | ok holds m' =>
      rw [Run.bind_of_ok hholds]
      have hm' := room_of_ok hsteady hholds hm
      cases holds with
      | true => exact hresult m' tasks hm'
      | false => exact ih hm' fun arm harm => h arm (List.mem_cons_of_mem _ harm)

/-! ### Calls -/

/-- Operands are evaluated one after the other, and then put to use. -/
theorem leads_operands (use : Use) {es : List Expr} (h : ∀ e ∈ es, Agrees setting room e)
    (values : List Literal) :
    Leads setting (operandsFrom m tasks use values es)
      (onValue tasks (Run.values (es.map (setting.evalAt room)) m) fun rest m =>
        useFrom m tasks (values ++ rest) use) := by
  induction es generalizing m values with
  | nil =>
    show Leads setting _ (useFrom m tasks (values ++ []) use)
    rw [List.append_nil]
    exact .refl
  | cons e es ih =>
    refine (h e List.mem_cons_self).resume hm ?_
    rw [List.map_cons, Run.values]
    cases he : setting.evalAt room e m with
    | error exit m' =>
      rw [Run.bind_of_error he]
      exact .refl
    | ok value m' =>
      have hm' := room_of_ok (setting.steady_evalAt room e) he hm
      -- The values so far are passed on to the rest, so they are part of the induction.
      have hrest := ih hm' (fun e he => h e (List.mem_cons_of_mem _ he)) (values ++ [value])
      rw [Run.bind_of_ok he]
      cases hvalues : Run.values (es.map (setting.evalAt room)) m' with
      | error exit m'' =>
        rw [Run.bind_of_error hvalues]
        rwa [hvalues] at hrest
      | ok rest m'' =>
        rw [Run.bind_of_ok hvalues]
        rw [hvalues] at hrest
        simp only [onValue, List.append_assoc, List.singleton_append] at hrest
        exact hrest

/-- What the machine makes of the values, it makes of operands that have them. -/
theorem leads_use (use : Use) {k : List Literal → Run Literal}
    (huse : ∀ (values : List Literal) {m : Machine}, setting.limits.room m.scope.depth = room →
      Leads setting (useFrom m tasks values use) ⟨.stop (k values m), tasks⟩)
    {es : List Expr} (h : ∀ e ∈ es, Agrees setting room e) (values : List Literal) :
    Leads setting (operandsFrom m tasks use values es)
      ⟨.stop ((Run.values (es.map (setting.evalAt room)) >>= fun rest => k (values ++ rest)) m),
        tasks⟩ := by
  refine Relation.ReflTransGen.trans (leads_operands tasks hm use h values) ?_
  cases hvalues : Run.values (es.map (setting.evalAt room)) m with
  | error exit m' =>
    rw [Run.bind_of_error hvalues]
    exact .refl
  | ok rest m' =>
    rw [Run.bind_of_ok hvalues]
    have hsteady := Run.Steady.values (setting.steady_evalAt room) es
    exact huse (values ++ rest) (room_of_ok hsteady hvalues hm)

/-- A primitive operation may be decided by its first operand. -/
theorem leads_primitive (function : Function) {es : List Expr}
    (h : ∀ e ∈ es, Agrees setting room e) :
    Leads setting (primitiveFrom m tasks function es)
      ⟨.stop (Setting.callPrimitive function (es.map (setting.evalAt room)) m), tasks⟩ := by
  cases es with
  | nil => exact .refl
  | cons e es =>
    refine (h e List.mem_cons_self).resume hm ?_
    rw [List.map_cons, Setting.callPrimitive]
    cases he : setting.evalAt room e m with
    | error exit m' =>
      rw [Run.bind_of_error he]
      exact .refl
    | ok value m' =>
      have hm' := room_of_ok (setting.steady_evalAt room e) he hm
      rw [Run.bind_of_ok he, resume, resumeBy, onValue]
      by_cases hdecisive : (Setting.decisive? function).any (value.boolean? == some ·)
      · rw [if_pos hdecisive, if_pos hdecisive]
        exact .refl
      · rw [if_neg hdecisive, if_neg hdecisive]
        exact leads_use tasks hm' (.primitive function) (fun _ _ _ => .refl)
          (fun e he => h e (List.mem_cons_of_mem _ he)) [value]

end

/-- A body is evaluated in an activation of its own, which is closed before anything is caught. -/
theorem leads_body {room : Nat} {m : Machine} (tasks : List Task)
    (hm : setting.limits.room m.scope.depth = room + 1) (function : Function) {body : Expr}
    (hbody : Agrees setting room body) (values : List Literal) :
    Leads setting (bodyFrom m tasks function body values)
      ⟨.stop (Setting.activate function values (setting.evalAt room body) m), tasks⟩ := by
  rw [Setting.activate, Run.catchReturn_eq, Run.inActivation_eq_close, bodyFrom]
  cases hbind : Setting.bindOperands (function.operandNames.zip values) m.activated with
  | error exit m' =>
    rw [Run.bind_of_error hbind]
    exact Leads.resume .refl
  | ok bound m' =>
    rw [Run.bind_of_ok hbind]
    refine hbody.resume ?_ .refl
    -- One more activation is open than before the call.
    have hdepth : m'.scope.depth = m.activated.scope.depth :=
      ((Setting.steady_bindOperands _).keeps_of_ok hbind).depth_eq
    rw [hdepth, Scope.depth_pushActivation]
    unfold Limits.room at hm ⊢
    omega

section

variable {room : Nat} {m : Machine} (tasks : List Task)
  (hm : setting.limits.room m.scope.depth = room)

include hm

/-- A marked function is entered if there is room for it. -/
theorem leads_marked (hbelow : ∀ r, room = r + 1 → ∀ e, Agrees setting r e) (function : Function)
    {es : List Expr} (h : ∀ e ∈ es, Agrees setting room e) :
    Leads setting (markedFrom setting m tasks function es)
      ⟨.stop (setting.callMarked (setting.below room) function (es.map (setting.evalAt room)) m),
        tasks⟩ := by
  unfold markedFrom Limits.enter
  rw [hm]
  -- The machine counts activations where the evaluator counts room, and both are used up together.
  cases room with
  | zero => exact .refl
  | succ room =>
    simp only [Nat.succ_ne_zero, if_false, Setting.callMarked, Setting.below]
    cases function.body with
    | none => exact .refl
    | some body =>
      refine leads_use tasks hm (.body function body)
        (k := fun values => Setting.activate function values (setting.evalAt room body))
        (fun values m' hm' => ?_) h []
      exact leads_body tasks hm' function (hbelow room rfl body) values

/-- A call is decided on as the evaluator does. -/
theorem leads_call (hbelow : ∀ r, room = r + 1 → ∀ e, Agrees setting r e) (call : Call)
    (h : ∀ e ∈ call.operands, Agrees setting room e) :
    Leads setting (callFrom setting m tasks call)
      ⟨.stop (setting.evalAt room call.expr m), tasks⟩ := by
  rw [Setting.evalAt_call]
  unfold callFrom Setting.call
  rw [List.length_map]
  cases setting.program.function? call.callee with
  | none => exact .refl
  | some function =>
    dsimp only
    by_cases harity : call.operands.length ≠ function.arity
    · rw [if_pos harity, if_pos harity]
      exact .refl
    · rw [if_neg harity, if_neg harity]
      cases function.classify setting.marker with
      | marked => exact leads_marked tasks hm hbelow function h
      | primitive => exact leads_primitive tasks hm function h
      | other => exact .refl

/-! ### Loops -/

/-- A round of the machine is a round of the loop. -/
theorem leads_round (kind : LoopKind) (id : LoopId) {test : Expr} (htest : Agrees setting room test)
    {es : List Expr} (hes : ∀ e ∈ es, Agrees setting room e) :
    Leads setting (roundFrom m tasks kind id test es)
      (afterRound kind id test es (Run.round setting.limits kind id (setting.evalAt room test)
        (es.map (setting.evalAt room)) m) tasks) := by
  have hsteady := (setting.steady_evalAt room test).condition
  cases kind with
  | testFirst =>
    refine htest.resume hm ?_
    rw [resume, resumeBy, ← Run.condition_eq, Run.round, Run.firstPass_eq]
    cases hholds : (setting.evalAt room test).condition m with
    | error exit m' =>
      rw [Run.bind_of_error hholds]
      exact .refl
    | ok holds m' =>
      rw [Run.bind_of_ok hholds]
      cases holds with
      | false => exact .refl
      | true =>
        have hm' := room_of_ok hsteady hholds hm
        -- The pass has a frame, which is closed before the step is counted.
        have hpass := leads_statements (m := m'.framed)
          (.pass .testFirst id test es :: tasks) hm' hes .unit
        refine Relation.ReflTransGen.trans hpass (Leads.resume ?_)
        rw [resume, resumeBy, ← Run.pass_eq, ← Run.inFrame_eq_close, ← Run.bind_eq_andThen]
        exact .refl
  | testLast =>
    -- Here the frame is around the test as well.
    have hpass := leads_statements (m := m.framed)
      (.pass .testLast id test es :: tasks) hm hes .unit
    refine Relation.ReflTransGen.trans hpass (Leads.resume ?_)
    have hruns := Run.Steady.inOrder (setting.steady_evalAt room) es .unit
    have hcount := (Run.Steady.pass id hruns).bind (Run.steady_count setting.limits)
    rw [resume, resumeBy, ← Run.pass_eq, ← Run.bind_eq_andThen, Run.round, Run.lastPass,
      Run.inFrame_eq_close, Run.passAndTest_eq]
    cases hpass : (Run.pass id (es.map (setting.evalAt room)) >>= Run.count setting.limits)
        m.framed with
    | error exit m' =>
      rw [Run.bind_of_error hpass]
      exact .refl
    | ok again m' =>
      rw [Run.bind_of_ok hpass]
      cases again with
      | false => exact .refl
      | true =>
        have hm' := room_of_ok hcount hpass hm
        refine htest.resume hm' ?_
        rw [resume, resumeBy, ← Run.condition_eq]
        exact .refl

/-- The induction is on the rounds that could still be made. -/
theorem leads_loop (kind : LoopKind) (id : LoopId) {test : Expr} (htest : Agrees setting room test)
    {es : List Expr} (hes : ∀ e ∈ es, Agrees setting room e) :
    Leads setting (roundFrom m tasks kind id test es)
      ⟨.stop (Run.loop setting.limits (Run.round setting.limits kind id (setting.evalAt room test)
        (es.map (setting.evalAt room))) m), tasks⟩ := by
  have hcharging := setting.charging_round room kind id test es
  induction hn : setting.limits.passes m.steps using Nat.strongRecOn generalizing m with
  | ind n ih =>
    refine Relation.ReflTransGen.trans (leads_round tasks hm kind id htest hes) ?_
    cases hround : Run.round setting.limits kind id (setting.evalAt room test)
        (es.map (setting.evalAt room)) m with
    | error exit m' =>
      rw [Run.loop_of_error hround]
      exact .refl
    | ok again m' =>
      cases again with
      | false =>
        rw [Run.loop_of_false hround]
        exact .refl
      | true =>
        rw [hcharging.loop_of_true hround]
        have hm' := room_of_ok (setting.steady_round room kind id test es) hround hm
        exact ih _ (hn ▸ hcharging.passes_lt hround) hm' rfl

end

/-! ### Expressions -/

/-- What the parts of an expression do the expression does. -/
theorem agrees_of_parts {room : Nat} (e : Expr)
    (hbelow : ∀ r, room = r + 1 → ∀ e, Agrees setting r e)
    (hparts : ∀ e', sizeOf e' < sizeOf e → Agrees setting room e') : Agrees setting room e := by
  intro m tasks hm
  -- The first step looks at the expression. It ends there, or starts on a part and leaves a task.
  refine Leads.enter ?_
  cases e with
  | const value =>
    rw [Setting.evalAt_eq, Setting.evalExpr]
    exact .refl
  | read name owner =>
    rw [Setting.evalAt_eq, Setting.evalExpr]
    exact .refl
  | declare name type init =>
    cases init with
    | none =>
      rw [Setting.evalAt_eq, Setting.evalExpr]
      exact .refl
    | some init =>
      refine (hparts init (Expr.sizeOf_inner rfl)).resume hm ?_
      rw [Setting.evalAt_eq, Setting.evalExpr, ← Setting.evalAt_eq, Run.bind_eq_andThen]
      exact .refl
  | assign name owner value =>
    refine (hparts value (Expr.sizeOf_inner rfl)).resume hm ?_
    rw [Setting.evalAt_eq, Setting.evalExpr, ← Setting.evalAt_eq, Run.bind_eq_andThen]
    exact .refl
  | call id receiver args =>
    refine leads_call tasks hm hbelow ⟨id, receiver, args⟩ fun e he => ?_
    exact hparts e (Call.sizeOf_operand he)
  | block es =>
    rw [Setting.evalAt_block, Run.inFrame_eq_close]
    have hes : ∀ e ∈ es, Agrees setting room e := by
      intro e he
      have hlt := List.sizeOf_lt_of_mem he
      refine hparts e ?_
      rw [Expr.block.sizeOf_spec]
      omega
    have hblock := leads_statements (m := m.framed) (.frame :: tasks) hm hes .unit
    exact Relation.ReflTransGen.trans hblock (Leads.resume .refl)
  | branch arms =>
    rw [Setting.evalAt_branch, Run.inFrame_eq_close]
    have harms : ∀ arm ∈ arms, Agrees setting room arm.1 ∧ Agrees setting room arm.2 := by
      rintro ⟨test, result⟩ harm
      have hlt := List.sizeOf_lt_of_mem harm
      rw [Prod.mk.sizeOf_spec] at hlt
      constructor
      · refine hparts test ?_
        rw [Expr.branch.sizeOf_spec]
        omega
      · refine hparts result ?_
        rw [Expr.branch.sizeOf_spec]
        omega
    have hbranch := leads_arms (m := m.framed) (.frame :: tasks) hm harms
    exact Relation.ReflTransGen.trans hbranch (Leads.resume .refl)
  | loop kind id label test body =>
    rw [Setting.evalAt_loop, Run.inFrame_eq_close]
    have htest : Agrees setting room test := by
      refine hparts test ?_
      rw [Expr.loop.sizeOf_spec]
      omega
    have hes : ∀ e ∈ Expr.statements body, Agrees setting room e := by
      intro e he
      have hlt := Expr.sizeOf_statements he
      refine hparts e ?_
      rw [Expr.loop.sizeOf_spec]
      omega
    have hloop := leads_loop (m := m.framed) (.frame :: tasks) hm kind id htest hes
    exact Relation.ReflTransGen.trans hloop (Leads.resume .refl)
  | returnFrom target value =>
    refine (hparts value (Expr.sizeOf_inner rfl)).resume hm ?_
    rw [Setting.evalAt_eq, Setting.evalExpr, ← Setting.evalAt_eq, Run.bind_eq_andThen]
    exact .refl
  | breakLoop target =>
    rw [Setting.evalAt_eq, Setting.evalExpr]
    exact .refl
  | continueLoop target =>
    rw [Setting.evalAt_eq, Setting.evalExpr]
    exact .refl

/-- The induction is on the room, where bodies of functions have less, and on the size of the
expression. -/
theorem agrees (setting : Setting) (room : Nat) (e : Expr) : Agrees setting room e := by
  induction room using Nat.strongRecOn generalizing e with
  | ind room below =>
    induction hn : sizeOf e using Nat.strongRecOn generalizing e with
    | ind n ih =>
      refine agrees_of_parts e (fun r hr e => ?_) fun e' hlt => ?_
      · exact below r (by omega) e
      · exact ih _ (hn ▸ hlt) e' rfl

/-- **The machine stops, with what the evaluator says.** -/
theorem leads_eval (setting : Setting) (e : Expr) (m : Machine) (tasks : List Task) :
    Leads setting ⟨.start e m, tasks⟩ ⟨.stop (setting.eval e m), tasks⟩ :=
  agrees setting (setting.limits.room m.scope.depth) e m tasks rfl

end Stepwise

end CallFolding
