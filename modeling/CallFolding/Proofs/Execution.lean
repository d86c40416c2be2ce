import CallFolding.Proofs.Context
import CallFolding.Proofs.Nesting
import CallFolding.Proofs.Ordering
import CallFolding.Proofs.Origin
import Mathlib.Algebra.BigOperators.Group.Finset.Basic

/-!
Execution of a body, with the steps it counts.

A body sees the frames of its own activation, so what it does is said in terms of these, whatever
lies below them. `Run.Takes` says it together with the steps: from one activation a run counts so
many steps and ends in another one. The limit is part of it. Where fewer steps are left than the run
needs, it ends with the limit, one step beyond it, and nothing else can be said about the variables
than that all frames can still be closed. In a sequence the steps are added up, and neither side has
to ask whether the other stayed within the limit.

There is one rule for each way to put runs together, and on top of them one for each kind of
expression. A loop is done by its states: `states k` before round `k`, of which there are `rounds`.
-/

set_option autoImplicit false

namespace CallFolding

/-- A mapped result that is a value is the image of one. -/
theorem exists_of_map_eq_ok {ε β γ : Type} {f : β → γ} {x : Except ε β} {c : γ}
    (h : x.map f = .ok c) : ∃ b, x = .ok b ∧ c = f b := by
  cases x with
  | error e => cases h
  | ok b => exact ⟨b, rfl, (Except.ok.inj h).symm⟩

namespace Scope.Activation

variable {α : Type}

/-- How many frames there are above the first one. -/
def height : Activation α → Nat
  | only _ => 0
  | inside _ outer => outer.height + 1

/-- An activation with a frame above its first one. -/
theorem exists_inside {a : Activation α} {n : Nat} (h : a.height = n + 1) :
    ∃ frame outer, a = inside frame outer ∧ outer.height = n := by
  cases a with
  | only frame => cases h
  | inside frame outer => exact ⟨frame, outer, rfl, Nat.succ.inj h⟩

theorem height_of_define {a a' : Activation α} {name : String} {value : α}
    (h : a.define name value = .ok a') : a'.height = a.height := by
  cases a with
  | only frame =>
    obtain ⟨frame', -, rfl⟩ := exists_of_map_eq_ok h
    rfl
  | inside innermost outer =>
    obtain ⟨frame', -, rfl⟩ := exists_of_map_eq_ok h
    rfl

theorem height_of_assign {a a' : Activation α} {name : String} {value : α}
    (h : a.assign name value = .ok a') : a'.height = a.height := by
  induction a generalizing a' with
  | only frame =>
    rw [assign] at h
    split at h <;> cases h
    rfl
  | inside innermost outer ih =>
    rw [assign] at h
    split at h
    · cases h
      rfl
    · obtain ⟨outer', houter, rfl⟩ := exists_of_map_eq_ok h
      rw [height, height, ih houter]

end Scope.Activation

/-- The state in which `a` is the current activation, on top of anything. -/
def Machine.inside (base : Scope Literal) (a : Scope.Activation Literal) (steps : Nat) : Machine :=
  ⟨base.above a.flat, steps⟩

/-- The end `x` in a state. -/
def Outcome.ending {α : Type} (x : Except Exit α) (m : Machine) : Outcome α :=
  match x with
  | .ok a => .ok a m
  | .error exit => .error exit m

/-- A frame is opened on top of the current activation. -/
theorem Machine.framed_inside (base : Scope Literal) (a : Scope.Activation Literal) (steps : Nat) :
    (Machine.inside base a steps).framed = .inside base (.inside .empty a) steps := by
  rw [Machine.framed, Machine.inside, Scope.pushFrame_above, Scope.Activation.pushFrame_flat]
  rfl

/-- A frame above the first one can be closed, however the run in it ended. -/
theorem Outcome.close_ending {α : Type} (x : Except Exit α) (base : Scope Literal)
    (frame : Scope.Frame Literal) (a : Scope.Activation Literal) (steps : Nat) :
    Outcome.close .popFrame (ending x (.inside base (.inside frame a) steps)) =
      ending x (.inside base a steps) := by
  have hpop : (base.above (Scope.Activation.inside frame a).flat).popFrame =
      .ok (base.above a.flat) := by
    rw [(Scope.Activation.inside frame a).anchored_flat.popFrame_above,
      Scope.Activation.popFrame_flat]
    rfl
  cases x with
  | ok v => exact closeFrame_of_ok hpop
  | error e => exact closeFrame_of_ok hpop

/-- An activation is opened on top of whatever there is. -/
theorem Machine.activated_eq (scope : Scope Literal) (steps : Nat) :
    (Machine.mk scope steps).activated = .inside scope (.only .empty) steps := by
  have hpush := Scope.pushActivation_above scope .empty
  rw [Scope.above_empty_right] at hpush
  rw [Machine.activated, hpush]
  rfl

/-- Closing it uncovers that again, however the run in it ended. -/
theorem Outcome.closeActivation_ending {α : Type} (x : Except Exit α) (scope : Scope Literal)
    (a : Scope.Activation Literal) (steps : Nat) :
    Outcome.close .popActivation (ending x (.inside scope a steps)) =
      ending x ⟨scope, steps⟩ := by
  have hpop := Scope.Activation.popActivation_above_flat scope a
  cases x with
  | ok v => exact closeActivation_of_ok hpop
  | error e => exact closeActivation_of_ok hpop

/-- The limit on steps was hit. -/
def Exit.overrun (limits : Limits) : Exit :=
  .failed (.limit (.steps limits.steps))

namespace Run

variable {α β : Type}

/-- From the activation `a`, the run counts this number of steps and ends like `x` in `a'`, or it
hits the limit on the way. -/
structure Takes (limits : Limits) (r : Run α) (a : Scope.Activation Literal) (steps : Nat)
    (x : Except Exit α) (a' : Scope.Activation Literal) : Prop where
  height : a'.height = a.height
  within : ∀ base count, count + steps ≤ limits.steps →
    r (.inside base a count) = Outcome.ending x (.inside base a' (count + steps))
  beyond : ∀ base count, count ≤ limits.steps → limits.steps < count + steps →
    ∃ a'', a''.height = a.height ∧
      r (.inside base a count) = .error (.overrun limits) (.inside base a'' (limits.steps + 1))

/-- The run counts this number of steps, leaves the variables as they are and ends like `x`, or it
hits the limit on the way. -/
structure Costs (limits : Limits) (r : Run α) (steps : Nat) (x : Except Exit α) : Prop where
  within : ∀ scope count, count + steps ≤ limits.steps →
    r ⟨scope, count⟩ = Outcome.ending x ⟨scope, count + steps⟩
  beyond : ∀ scope count, count ≤ limits.steps → limits.steps < count + steps →
    r ⟨scope, count⟩ = .error (.overrun limits) ⟨scope, limits.steps + 1⟩

variable {limits : Limits} {r : Run α} {f : α → Run β} {a a₁ a' : Scope.Activation Literal}
  {k l : Nat} {v : α} {e : Exit} {x : Except Exit α} {y : Except Exit β}

namespace Takes

/-! ## Single runs -/

/-- A run that counts no step does not meet the limit. -/
theorem free (hheight : a'.height = a.height)
    (h : ∀ base count, r (.inside base a count) = Outcome.ending x (.inside base a' count)) :
    Takes limits r a 0 x a' where
  height := hheight
  within base count _ := h base count
  beyond base count hle hlt := by omega

theorem value (a : Scope.Activation Literal) (v : α) :
    Takes limits (pure v) a 0 (.ok v) a :=
  free rfl fun _ _ => rfl

theorem exit (a : Scope.Activation Literal) (e : Exit) :
    Takes limits (throw e : Run α) a 0 (.error e) a :=
  free rfl fun _ _ => rfl

/-- A variable of the activation is read. -/
theorem read {name : String} {value : Literal} (h : a.lookup name = some value) :
    Takes limits (Run.read name) a 0 (.ok value) a := by
  apply free rfl
  intro base count
  have hlookup : (Scope.above base a.flat).lookup name = some value := by
    rw [a.anchored_flat.lookup_above, Scope.Activation.lookup_flat, h]
  simp only [Run.read, Machine.inside, hlookup]
  rfl

/-- A name that is free in the innermost frame is bound there. -/
theorem define {name : String} {value : Literal} (h : a.define name value = .ok a') :
    Takes limits (Run.define name value) a 0 (.ok ()) a' := by
  apply free (Scope.Activation.height_of_define h)
  intro base count
  have hframes : a.flat.frames ≠ #[] := by
    intro hempty
    have hsize := a.size_frames_flat
    rw [hempty] at hsize
    exact Nat.lt_irrefl 0 hsize
  have hdefine : (Scope.above base a.flat).define name value = .ok (Scope.above base a'.flat) := by
    rw [Scope.define_above hframes, Scope.Activation.define_flat, h]
    rfl
  simp only [Run.define_eq, Machine.inside, hdefine]
  rfl

/-- A variable of the activation is assigned to. -/
theorem assign {name : String} {value : Literal} (h : a.assign name value = .ok a') :
    Takes limits (Run.assign name value) a 0 (.ok ()) a' := by
  apply free (Scope.Activation.height_of_assign h)
  intro base count
  have hassign : (Scope.above base a.flat).assign name value = .ok (Scope.above base a'.flat) := by
    rw [a.anchored_flat.assign_above, Scope.Activation.assign_flat, h]
    rfl
  simp only [Run.assign_eq, Machine.inside, hassign]
  rfl

/-- A step counts for one, and is the one that hits the limit where none is left. -/
theorem tally (a : Scope.Activation Literal) :
    Takes limits (Run.tally limits) a 1 (.ok ()) a where
  height := rfl
  within base count h := by
    have hcharge : limits.tally count = .ok () (count + 1) := if_neg (by omega)
    simp only [Run.tally, Machine.inside, hcharge]
    rfl
  beyond base count hle hlt := by
    refine ⟨a, rfl, ?_⟩
    obtain rfl : count = limits.steps := by omega
    have hcharge : limits.tally limits.steps = .error (.steps limits.steps) (limits.steps + 1) :=
      if_pos hlt
    simp only [Run.tally, Machine.inside, hcharge]
    rfl

/-! ## Sequences -/

/-- The steps of two runs are added up. -/
theorem bind (hr : Takes limits r a k (.ok v) a₁) (hf : Takes limits (f v) a₁ l y a') :
    Takes limits (r >>= f) a (k + l) y a' where
  height := hf.height.trans hr.height
  within base count h := by
    have hfirst := hr.within base count (by omega)
    rw [bind_of_ok hfirst, hf.within base (count + k) (by omega), Nat.add_assoc]
  beyond base count hle hlt := by
    -- The steps run out in the first run or in the second.
    by_cases hk : count + k ≤ limits.steps
    · obtain ⟨a'', hheight, hsecond⟩ := hf.beyond base (count + k) hk (by omega)
      have hfirst := hr.within base count hk
      exact ⟨a'', hheight.trans hr.height, by rw [bind_of_ok hfirst, hsecond]⟩
    · obtain ⟨a'', hheight, hfirst⟩ := hr.beyond base count hle (by omega)
      exact ⟨a'', hheight, bind_of_error hfirst⟩

/-- An exit of the first run ends both. -/
theorem bind_exit (hr : Takes limits r a k (.error e) a') :
    Takes limits (r >>= f) a k (.error e) a' where
  height := hr.height
  within base count h := bind_of_error (hr.within base count h)
  beyond base count hle hlt := by
    obtain ⟨a'', hheight, hfirst⟩ := hr.beyond base count hle hlt
    exact ⟨a'', hheight, bind_of_error hfirst⟩

theorem bind_zero (hr : Takes limits r a k (.ok v) a₁) (hf : Takes limits (f v) a₁ 0 y a') :
    Takes limits (r >>= f) a k y a' :=
  hr.bind hf

/-- A first run without steps adds none. -/
theorem zero_bind (hr : Takes limits r a 0 (.ok v) a₁) (hf : Takes limits (f v) a₁ k y a') :
    Takes limits (r >>= f) a k y a' := by
  have h := hr.bind hf
  rw [Nat.zero_add] at h
  exact h

/-- A single operand is evaluated as it is. -/
theorem values_single {run : Run Literal} {value : Literal}
    (h : Takes limits run a k (.ok value) a') : Takes limits (values [run]) a k (.ok [value]) a' :=
  h.bind_zero (.bind_zero (.value a' []) (.value a' [value]))

/-- A condition takes the steps of what it tests. -/
theorem condition {test : Run Literal} {b : Bool}
    (h : Takes limits test a k (.ok (.boolean b)) a') :
    Takes limits (Run.condition test) a k (.ok b) a' :=
  h.bind_zero (.value a' b)

/-! ## Frames -/

/-- What a run leaves in its frame is dropped, and the rest is kept. -/
theorem inFrame {frame : Scope.Frame Literal}
    (h : Takes limits r (.inside .empty a) k x (.inside frame a')) :
    Takes limits (Run.inFrame r) a k x a' where
  height := Nat.succ.inj h.height
  within base count hcount := by
    rw [inFrame_eq_close, Machine.framed_inside, h.within base count hcount,
      Outcome.close_ending]
  beyond base count hle hlt := by
    obtain ⟨a'', hheight, hrun⟩ := h.beyond base count hle hlt
    -- The limit was hit with the frame still open; its height says that it is there to be closed.
    obtain ⟨frame', outer, rfl, houter⟩ := Scope.Activation.exists_inside hheight
    refine ⟨outer, houter, ?_⟩
    rw [inFrame_eq_close, Machine.framed_inside, hrun]
    exact Outcome.close_ending (.error (.overrun limits)) base frame' outer (limits.steps + 1)

/-! ## Loops -/

/-- A pass that comes to its end takes the steps of its statements. -/
theorem pass {runs : List (Run Literal)} {value : Literal} (id : LoopId)
    (h : Takes limits (inOrder .unit runs) a k (.ok value) a') :
    Takes limits (Run.pass id runs) a k (.ok true) a' where
  height := h.height
  within base count hcount := by
    rw [pass_eq, h.within base count hcount]
    rfl
  beyond base count hle hlt := by
    obtain ⟨a'', hheight, hrun⟩ := h.beyond base count hle hlt
    exact ⟨a'', hheight, by rw [pass_eq, hrun]; rfl⟩

/-- A round with a pass through the body counts one step more than the pass. -/
theorem firstPass {test : Run Literal} {runs : List (Run Literal)} {value : Literal}
    {frame : Scope.Frame Literal} (id : LoopId)
    (htest : Takes limits test a 0 (.ok (.boolean true)) a)
    (hruns : Takes limits (inOrder .unit runs) (.inside .empty a) k (.ok value)
      (.inside frame a')) :
    Takes limits (Run.firstPass limits id test runs) a (k + 1) (.ok true) a' := by
  have hcharged : Takes limits (do Run.tally limits; pure true : Run Bool) a' 1 (.ok true) a' :=
    (tally a').bind_zero (.value a' true)
  unfold Run.firstPass
  apply htest.condition.zero_bind
  exact (hruns.pass id).inFrame.bind hcharged

/-- A round that finds its condition false is the last one. -/
theorem firstPass_of_false {test : Run Literal} (runs : List (Run Literal)) (id : LoopId)
    (htest : Takes limits test a 0 (.ok (.boolean false)) a) :
    Takes limits (Run.firstPass limits id test runs) a 0 (.ok false) a := by
  unfold Run.firstPass
  apply htest.condition.zero_bind
  exact .value a false

/-- A round of a loop that tests last counts its step between the pass and the test. -/
theorem lastPass {test : Run Literal} {runs : List (Run Literal)} {value : Literal}
    {frame : Scope.Frame Literal} {b : Bool} (id : LoopId)
    (hruns : Takes limits (inOrder .unit runs) (.inside .empty a) k (.ok value) (.inside frame a'))
    (htest : Takes limits test (.inside frame a') 0 (.ok (.boolean b)) (.inside frame a')) :
    Takes limits (Run.lastPass limits id test runs) a (k + 1) (.ok b) a' := by
  have hcharged : Takes limits (do Run.tally limits; Run.condition test : Run Bool)
      (.inside frame a') 1 (.ok b) (.inside frame a') :=
    (tally _).bind_zero htest.condition
  unfold Run.lastPass Run.passAndTest
  apply inFrame
  exact (hruns.pass id).bind hcharged

/-- A loop counts the steps of the rounds that ask for more and those of the last one. -/
theorem loop {round : Run Bool} (hcharging : Charging limits round) (rounds : Nat)
    (states : Nat → Scope.Activation Literal) (steps : Nat → Nat) {last : Nat}
    (hround : ∀ i < rounds,
      Takes limits round (states i) (steps i) (.ok true) (states (i + 1)))
    (hlast : Takes limits round (states rounds) last (.ok false) a') :
    Takes limits (Run.loop limits round) (states 0) ((∑ i ∈ Finset.range rounds, steps i) + last)
      (.ok .unit) a' := by
  -- The rounds after the first are those of the same loop, with the states counted from the second.
  induction rounds generalizing states steps with
  | zero =>
    rw [Finset.sum_range_zero, Nat.zero_add, hcharging.loop_eq]
    apply hlast.bind_zero
    exact .value _ Literal.unit
  | succ rounds ih =>
    have hfirst := hround 0 (Nat.succ_pos rounds)
    have hrest := ih (fun i => states (i + 1)) (fun i => steps (i + 1))
      (fun i hi => hround (i + 1) (Nat.succ_lt_succ hi)) hlast
    rw [Finset.sum_range_succ', Nat.add_right_comm, Nat.add_comm, hcharging.loop_eq]
    exact hfirst.bind hrest

/-! ## Activations -/

/-- Operands are bound one above the other. -/
theorem bindOperands {bindings : List (String × Literal)} (operands : List (String × Literal))
    (frame : Scope.Frame Literal) (hbindings : bindings = operands.reverse ++ frame.bindings)
    (hdistinct : (bindings.map Prod.fst).Nodup) :
    Takes limits (Setting.bindOperands operands) (.only frame) 0 (.ok ())
      (.only ⟨bindings, hdistinct⟩) := by
  induction operands generalizing frame with
  | nil =>
    subst hbindings
    exact .value _ ()
  | cons operand rest ih =>
    rw [List.reverse_cons, List.append_assoc, List.singleton_append] at hbindings
    have hhead : ((operand :: frame.bindings).map Prod.fst).Nodup := by
      rw [hbindings, List.map_append] at hdistinct
      exact hdistinct.of_append_right
    -- The names of all operands are distinct, so each of them is free when its turn comes.
    have hnew : operand.1 ∉ frame.names := (List.nodup_cons.mp hhead).1
    have hdefine : (Scope.Activation.only frame).define operand.1 operand.2 =
        .ok (.only ⟨operand :: frame.bindings, hhead⟩) := by
      rw [Scope.Activation.define, Scope.Frame.define, dif_neg hnew]
      rfl
    exact (define hdefine).zero_bind (ih ⟨operand :: frame.bindings, hhead⟩ hbindings)

end Takes

namespace Costs

theorem exit (e : Exit) : Costs limits (throw e : Run α) 0 (.error e) where
  within _ _ _ := rfl
  beyond scope count hle hlt := by omega

/-- A run in an activation of its own costs its steps and leaves no variables. -/
theorem inActivation (h : Takes limits r (.only .empty) k x a') :
    Costs limits (Run.inActivation r) k x where
  within scope count hcount := by
    rw [inActivation_eq_close, Machine.activated_eq, h.within scope count hcount,
      Outcome.closeActivation_ending]
  beyond scope count hle hlt := by
    obtain ⟨a'', -, hrun⟩ := h.beyond scope count hle hlt
    rw [inActivation_eq_close, Machine.activated_eq, hrun]
    exact Outcome.closeActivation_ending (.error (.overrun limits)) scope a'' (limits.steps + 1)

/-- A call costs what its body costs, and ends as it takes the end of the body. -/
theorem catchReturn {run : Run Literal} {function : Function} {x y : Except Exit Literal}
    (h : Costs limits run k x)
    (hend : ∀ m, endOfCall function (Outcome.ending x m) = Outcome.ending y m) :
    Costs limits (Setting.catchReturn function run) k y where
  within scope count hcount := by
    rw [catchReturn_eq, h.within scope count hcount, hend]
  beyond scope count hle hlt := by
    rw [catchReturn_eq, h.beyond scope count hle hlt]
    rfl

/-- What leaves no trace can be done in any activation. -/
theorem takes (h : Costs limits r k x) (a : Scope.Activation Literal) : Takes limits r a k x a where
  height := rfl
  within base count hcount := h.within (base.above a.flat) count hcount
  beyond base count hle hlt := ⟨a, rfl, h.beyond (base.above a.flat) count hle hlt⟩

end Costs

end Run

/-! ## Expressions -/

namespace Setting

/-- Evaluating the expression in the activation `a` counts this number of steps and ends like `x`
in `a'`, or it hits the limit on the way. -/
abbrev Takes (setting : Setting) (room : Nat) (e : Expr) (a : Scope.Activation Literal)
    (steps : Nat) (x : Except Exit Literal) (a' : Scope.Activation Literal) : Prop :=
  Run.Takes setting.limits (setting.evalAt room e) a steps x a'

/-- The same for statements, one after the other. -/
abbrev TakesEach (setting : Setting) (room : Nat) (es : List Expr) (a : Scope.Activation Literal)
    (steps : Nat) (x : Except Exit Literal) (a' : Scope.Activation Literal) : Prop :=
  ∀ last, Run.Takes setting.limits (Run.inOrder last (es.map (setting.evalAt room))) a steps x a'

variable {setting : Setting} {room : Nat} {a a₁ a₂ a' : Scope.Activation Literal} {k l : Nat}
  {value : Literal} {x : Except Exit Literal} {exit : Exit} {e : Expr} {es : List Expr}

theorem takes_const (value : Literal) (a : Scope.Activation Literal) :
    setting.Takes room (.const value) a 0 (.ok value) a := by
  rw [Takes, evalAt_eq, evalExpr]
  exact .value a value

theorem takes_read {name : String} (owner : FunctionId) (h : a.lookup name = some value) :
    setting.Takes room (.read name owner) a 0 (.ok value) a := by
  rw [Takes, evalAt_eq, evalExpr]
  exact .read h

/-- A declaration evaluates its initial value and binds it. -/
theorem takes_declare {name : String} (type : Ty) (hinit : setting.Takes room e a k (.ok value) a₁)
    (hdefine : a₁.define name value = .ok a') :
    setting.Takes room (.declare name type (some e)) a k (.ok value) a' := by
  rw [Takes, evalAt_eq, evalExpr, ← evalAt_eq]
  apply hinit.bind_zero
  exact (Run.Takes.define hdefine).bind_zero (.value a' value)

/-- An assignment evaluates its value and stores it. -/
theorem takes_assign {name : String} (owner : FunctionId)
    (hvalue : setting.Takes room e a k (.ok value) a₁)
    (hassign : a₁.assign name value = .ok a') :
    setting.Takes room (.assign name owner e) a k (.ok value) a' := by
  rw [Takes, evalAt_eq, evalExpr, ← evalAt_eq]
  apply hvalue.bind_zero
  exact (Run.Takes.assign hassign).bind_zero (.value a' value)

/-- A return evaluates its value and leaves with it. -/
theorem takes_returnFrom (target : FunctionId) (h : setting.Takes room e a k (.ok value) a') :
    setting.Takes room (.returnFrom target e) a k (.error (.returned target value)) a' := by
  rw [Takes, evalAt_eq, evalExpr, ← evalAt_eq]
  exact h.bind_zero (.exit a' _)

/-- A return whose value cannot be evaluated is none. -/
theorem takes_returnFrom_exit (target : FunctionId)
    (h : setting.Takes room e a k (.error exit) a') :
    setting.Takes room (.returnFrom target e) a k (.error exit) a' := by
  rw [Takes, evalAt_eq, evalExpr, ← evalAt_eq]
  exact h.bind_exit

/-! ## Statements and branches -/

/-- A statement with a value is followed by the others. -/
theorem takesEach_cons (h : setting.Takes room e a k (.ok value) a₁)
    (hrest : setting.TakesEach room es a₁ l x a') :
    setting.TakesEach room (e :: es) a (k + l) x a' :=
  fun _ => h.bind (hrest value)

/-- A statement without steps adds none. -/
theorem takesEach_cons_zero (h : setting.Takes room e a 0 (.ok value) a₁)
    (hrest : setting.TakesEach room es a₁ l x a') : setting.TakesEach room (e :: es) a l x a' :=
  fun _ => h.zero_bind (hrest value)

/-- The last statement decides how all of them end. -/
theorem takesEach_single (h : setting.Takes room e a k x a') :
    setting.TakesEach room [e] a k x a' := by
  intro last
  cases x with
  | ok value => exact h.bind_zero (.value a' value)
  | error exit => exact h.bind_exit

/-- After an exit the other statements are skipped. -/
theorem takesEach_exit (h : setting.Takes room e a k (.error exit) a') (es : List Expr) :
    setting.TakesEach room (e :: es) a k (.error exit) a' :=
  fun _ => h.bind_exit

/-- A block runs its statements in a frame of its own. -/
theorem takes_block {frame : Scope.Frame Literal}
    (h : setting.TakesEach room es (.inside .empty a) k x (.inside frame a')) :
    setting.Takes room (.block es) a k x a' := by
  rw [Takes, evalAt_block]
  exact (h .unit).inFrame

/-- A branch takes its first arm if the condition is true. -/
theorem takes_branch {test : Expr} {frame : Scope.Frame Literal} (arms : List (Expr × Expr))
    (htest : setting.Takes room test (.inside .empty a) 0 (.ok (.boolean true)) (.inside .empty a))
    (h : setting.Takes room e (.inside .empty a) k x (.inside frame a')) :
    setting.Takes room (.branch ((test, e) :: arms)) a k x a' := by
  rw [Takes, evalAt_branch]
  exact (htest.condition.zero_bind h).inFrame

/-- A branch without an arm to take has no value of its own. -/
theorem takes_branch_of_false {test : Expr} (e : Expr)
    (htest : setting.Takes room test (.inside .empty a) 0 (.ok (.boolean false))
      (.inside .empty a)) :
    setting.Takes room (.branch [(test, e)]) a 0 (.ok .unit) a := by
  rw [Takes, evalAt_branch]
  exact (htest.condition.zero_bind (.value _ Literal.unit)).inFrame

/-! ## Loops -/

/-- A loop that makes `rounds` rounds counts a step for each of them and those of its passes. -/
theorem takes_loop {test : Expr} {body : Option Expr} (id : LoopId) (label : Option String)
    (rounds : Nat) (states : Nat → Scope.Activation Literal) (steps : Nat → Nat)
    (htest : ∀ i ≤ rounds, setting.Takes room test (.inside .empty (states i)) 0
      (.ok (.boolean (decide (i < rounds)))) (.inside .empty (states i)))
    (hpass : ∀ i < rounds, ∃ value frame, setting.TakesEach room (Expr.statements body)
      (.inside .empty (.inside .empty (states i))) (steps i) (.ok value)
      (.inside frame (.inside .empty (states (i + 1))))) :
    setting.Takes room (.loop .testFirst id label test body) (states 0)
      (∑ i ∈ Finset.range rounds, (steps i + 1)) (.ok .unit) (states rounds) := by
  rw [Takes, evalAt_loop]
  have hcharging := setting.charging_round room .testFirst id test (Expr.statements body)
  -- The loop has a frame of its own around the frames of its passes.
  have hloop := Run.Takes.loop hcharging rounds (fun i => .inside .empty (states i))
    (fun i => steps i + 1)
    (by
      intro i hi
      obtain ⟨value, frame, hstatements⟩ := hpass i hi
      have hholds := htest i (Nat.le_of_lt hi)
      rw [decide_eq_true hi] at hholds
      exact hholds.firstPass id (hstatements .unit))
    (by
      have hfails := htest rounds (Nat.le_refl rounds)
      rw [decide_eq_false (Nat.lt_irrefl rounds)] at hfails
      exact hfails.firstPass_of_false _ id)
  exact hloop.inFrame

/-- A loop that tests last and is over after round `rounds` counts a step for this one too. -/
theorem takes_loop_testLast {test : Expr} {body : Option Expr} (id : LoopId)
    (label : Option String) (rounds : Nat) (states : Nat → Scope.Activation Literal)
    (steps : Nat → Nat)
    (hround : ∀ i ≤ rounds, ∃ value frame,
      setting.TakesEach room (Expr.statements body) (.inside .empty (.inside .empty (states i)))
        (steps i) (.ok value) (.inside frame (.inside .empty (states (i + 1)))) ∧
      setting.Takes room test (.inside frame (.inside .empty (states (i + 1)))) 0
        (.ok (.boolean (decide (i < rounds)))) (.inside frame (.inside .empty (states (i + 1))))) :
    setting.Takes room (.loop .testLast id label test body) (states 0)
      (∑ i ∈ Finset.range (rounds + 1), (steps i + 1)) (.ok .unit) (states (rounds + 1)) := by
  rw [Takes, evalAt_loop, Finset.sum_range_succ]
  have hcharging := setting.charging_round room .testLast id test (Expr.statements body)
  have hloop := Run.Takes.loop hcharging rounds (fun i => .inside .empty (states i))
    (fun i => steps i + 1)
    (by
      intro i hi
      obtain ⟨value, frame, hstatements, htest⟩ := hround i (Nat.le_of_lt hi)
      rw [decide_eq_true hi] at htest
      exact (hstatements .unit).lastPass id htest)
    (by
      obtain ⟨value, frame, hstatements, htest⟩ := hround rounds (Nat.le_refl rounds)
      rw [decide_eq_false (Nat.lt_irrefl rounds)] at htest
      exact (hstatements .unit).lastPass id htest)
  exact hloop.inFrame

end Setting

/-! ## Integers -/

namespace Literal

/-- The integer of 32 bits that stands for `n`. -/
def num (n : Int) : Literal :=
  IntegralKind.int.literal n

/-- An integer of 32 bits stands for itself. -/
theorem num_toInt (v : Int32) : num v.toInt = .int v :=
  congrArg int (Int32.ofInt_toInt v)

/-- Every integer has a representative. -/
theorem isResidue_num (n : Int) : (num n).IsResidue .int n :=
  IntegralKind.int.isResidue_literal n

end Literal

/-- The operation on representatives gives a representative of the exact result. -/
theorem dispatch_num (op : Arith) {m n r : Int} (hop : op ≠ .div ∧ op ≠ .rem)
    (hexact : op.IsExact m n r) :
    dispatch op.name [⟨.int, .num m⟩, ⟨.int, .num n⟩] = .ok (.num r) := by
  have hm : Operand.IsInteger ⟨.int, .num m⟩ .int (Int32.ofInt m).toInt := ⟨rfl, rfl⟩
  have hn : Operand.IsInteger ⟨.int, .num n⟩ .int (Int32.ofInt n).toInt := ⟨rfl, rfl⟩
  rw [dispatch_integers op.ofName?_name hm hn, if_pos rfl]
  -- The operation is done on representatives, and reduction respects it.
  cases op with
  | plus =>
    have hsum : Int32.ofInt ((Int32.ofInt m).toInt + (Int32.ofInt n).toInt) = Int32.ofInt r := by
      rw [hexact, Int32.ofInt_add, Int32.ofInt_toInt, Int32.ofInt_toInt, Int32.ofInt_add]
    exact congrArg (fun v => Except.ok (Literal.int v)) hsum
  | minus =>
    have hdifference :
        Int32.ofInt ((Int32.ofInt m).toInt - (Int32.ofInt n).toInt) = Int32.ofInt r := by
      rw [hexact, Int32.ofInt_sub, Int32.ofInt_toInt, Int32.ofInt_toInt, Int32.ofInt_sub]
    exact congrArg (fun v => Except.ok (Literal.int v)) hdifference
  | times =>
    have hproduct :
        Int32.ofInt ((Int32.ofInt m).toInt * (Int32.ofInt n).toInt) = Int32.ofInt r := by
      rw [hexact, Int32.ofInt_mul, Int32.ofInt_toInt, Int32.ofInt_toInt, Int32.ofInt_mul]
    exact congrArg (fun v => Except.ok (Literal.int v)) hproduct
  | div => exact absurd rfl hop.1
  | rem => exact absurd rfl hop.2

/-- Order tests look at the values themselves, so these have to be in range. -/
theorem dispatch_test {m n : Int} (hm : (Window.signed 32).Holds m)
    (hn : (Window.signed 32).Holds n) (test : Comparison) :
    dispatch test.name [⟨.int, .num m⟩, ⟨.int, .num n⟩] =
      .ok (.boolean (test.holds (compare m n))) := by
  have hm' : (Literal.num m).integral? = some (.int, m) := IntegralKind.integral?_literal rfl hm
  have hn' : (Literal.num n).integral? = some (.int, n) := IntegralKind.integral?_literal rfl hn
  exact ((compares_integral hm' hn' rfl).dispatch ⟨rfl, rfl⟩ ⟨rfl, rfl⟩ test).2

/-- The order test `<` on integers in range. -/
theorem dispatch_less {m n : Int} (hm : (Window.signed 32).Holds m)
    (hn : (Window.signed 32).Holds n) :
    dispatch "less" [⟨.int, .num m⟩, ⟨.int, .num n⟩] = .ok (.boolean (decide (m < n))) := by
  have hholds : Comparison.less.holds (compare m n) = decide (m < n) := by
    rw [Comparison.holds, Bool.eq_iff_iff, beq_iff_eq, decide_eq_true_eq, compare_lt_iff_lt]
  rw [← hholds]
  exact dispatch_test hm hn .less

/-- The order test `≤` on integers in range. -/
theorem dispatch_lessOrEqual {m n : Int} (hm : (Window.signed 32).Holds m)
    (hn : (Window.signed 32).Holds n) :
    dispatch "lessOrEqual" [⟨.int, .num m⟩, ⟨.int, .num n⟩] = .ok (.boolean (decide (m ≤ n))) := by
  have hholds : Comparison.lessOrEqual.holds (compare m n) = decide (m ≤ n) := by
    rw [Comparison.holds, Bool.eq_iff_iff, bne_iff_ne, ne_eq, decide_eq_true_eq,
      compare_gt_iff_gt, not_lt]
  rw [← hholds]
  exact dispatch_test hm hn .lessOrEqual

namespace Setting

variable {setting : Setting} {room : Nat} {a a₁ a₂ a' : Scope.Activation Literal} {k l : Nat}
  {value : Literal} {x : Except Exit Literal} {exit : Exit} {e : Expr} {es : List Expr}

/-! ## Operations on two operands of one type -/

/-- A primitive operation on two operands of the type has this number and name. -/
def Combines (setting : Setting) (id : FunctionId) (name : String) (type : Ty := .int) : Prop :=
  ∃ function, setting.program.function? id = some function ∧
    function.classify setting.marker = .primitive ∧ function.arity = 2 ∧
    decisive? function = none ∧ function.name = name ∧
    ∀ v w, operands function [v, w] = [⟨type, v⟩, ⟨type, w⟩]

variable {id : FunctionId} {name : String} {type : Ty} {function : Function}
  {receiver : Option Expr} {args : List Expr} {left right : Expr} {v w : Literal}

namespace Combines

/-- The operands are evaluated from left to right, and then the operation is applied. -/
theorem exists_evalAt_eq (h : setting.Combines id name type)
    (hoperands : receiver.toList ++ args = [left, right]) (room : Nat) :
    ∃ operate : List Literal → Run Literal,
      (∀ v w value a, dispatch name [⟨type, v⟩, ⟨type, w⟩] = .ok value →
        Run.Takes setting.limits (operate [v, w]) a 0 (.ok value) a) ∧
      setting.evalAt room (.call id receiver args) = (do
        let v ← setting.evalAt room left
        let values ← Run.values [setting.evalAt room right]
        operate (v :: values)) := by
  obtain ⟨function, hfound, hprimitive, harity, hplain, rfl, htypes⟩ := h
  refine ⟨applyPrimitive function, ?_, ?_⟩
  · intro v w value a hresult
    rw [applyPrimitive, htypes, hresult]
    exact .value a value
  · have happlies : setting.Applies ⟨id, receiver, args⟩ function :=
      ⟨hfound, by rw [harity, Call.operands, hoperands]; rfl, hprimitive⟩
    have hcall := setting.evalAt_of_applies happlies room
    rw [Call.operands, hoperands, List.map_cons, callPrimitive, hplain] at hcall
    exact hcall

/-- The operation on two operands that have values. -/
theorem takes (h : setting.Combines id name type)
    (hoperands : receiver.toList ++ args = [left, right])
    (hleft : setting.Takes room left a k (.ok v) a₁)
    (hright : setting.Takes room right a₁ l (.ok w) a')
    (hresult : dispatch name [⟨type, v⟩, ⟨type, w⟩] = .ok value) :
    setting.Takes room (.call id receiver args) a (k + l) (.ok value) a' := by
  obtain ⟨operate, hoperate, heq⟩ := h.exists_evalAt_eq hoperands room
  rw [Takes, heq]
  exact hleft.bind (hright.values_single.bind_zero (hoperate v w value a' hresult))

/-- An exit of the left operand is that of the operation. -/
theorem takes_exit_left (h : setting.Combines id name type)
    (hoperands : receiver.toList ++ args = [left, right])
    (hleft : setting.Takes room left a k (.error exit) a') :
    setting.Takes room (.call id receiver args) a k (.error exit) a' := by
  obtain ⟨operate, -, heq⟩ := h.exists_evalAt_eq hoperands room
  rw [Takes, heq]
  exact hleft.bind_exit

/-- An exit of the right operand comes after the steps of the left one. -/
theorem takes_exit_right (h : setting.Combines id name type)
    (hoperands : receiver.toList ++ args = [left, right])
    (hleft : setting.Takes room left a k (.ok v) a₁)
    (hright : setting.Takes room right a₁ l (.error exit) a') :
    setting.Takes room (.call id receiver args) a (k + l) (.error exit) a' := by
  obtain ⟨operate, -, heq⟩ := h.exists_evalAt_eq hoperands room
  rw [Takes, heq]
  exact hleft.bind hright.bind_exit.bind_exit

end Combines

/-! ## Calls of functions with a body -/

/-- The body starts in an activation that holds the operands and nothing else. -/
theorem costs_activate {body : Expr} {values : List Literal} {bindings : List (String × Literal)}
    {y : Except Exit Literal}
    (hbindings : bindings = (function.operandNames.zip values).reverse)
    {hdistinct : (bindings.map Prod.fst).Nodup}
    (hbody : setting.Takes room body (.only ⟨bindings, hdistinct⟩) k x a')
    (hend : ∀ m, Run.endOfCall function (Outcome.ending x m) = Outcome.ending y m) :
    Run.Costs setting.limits (activate function values (setting.evalAt room body)) k y := by
  rw [← List.append_nil (List.reverse _)] at hbindings
  have hrun : Run.Takes setting.limits (do
      bindOperands (function.operandNames.zip values)
      setting.evalAt room body) (.only .empty) k x a' :=
    .zero_bind (.bindOperands _ .empty hbindings hdistinct) hbody
  exact (Run.Costs.inActivation hrun).catchReturn hend

/-- A function of one operand is called where there is room for it. -/
theorem takes_call {body operand : Expr}
    (henters : setting.Enters ⟨id, none, [operand]⟩ function body)
    (hoperand : setting.Takes (room + 1) operand a k (.ok value) a')
    (hbody : Run.Costs setting.limits (activate function [value] (setting.evalAt room body)) l x) :
    setting.Takes (room + 1) (.call id none [operand]) a (k + l) x a' := by
  show Run.Takes _ (setting.evalAt (room + 1) (Call.expr ⟨id, none, [operand]⟩)) _ _ _ _
  rw [setting.evalAt_of_enters henters]
  exact hoperand.values_single.bind (hbody.takes a')

/-- Without room a call is refused before its operands are evaluated. -/
theorem costs_call_zero {call : Call} {body : Expr} (henters : setting.Enters call function body) :
    Run.Costs setting.limits (setting.evalAt 0 call.expr) 0
      (.error (.failed (.limit (.depth setting.limits.depth)))) := by
  rw [setting.evalAt_zero_of_enters henters]
  exact .exit _

/-! ## Calls on their own -/

/-- A call on constants costs what its body costs. -/
theorem costs_call {call : Call} {body : Expr} {values : List Literal}
    (henters : setting.Enters call function body) (hconst : call.operands = values.map .const)
    (hbody : Run.Costs setting.limits (activate function values (setting.evalAt room body)) k x) :
    Run.Costs setting.limits (setting.evalAt (room + 1) call.expr) k x := by
  have hcall : setting.evalAt (room + 1) call.expr =
      activate function values (setting.evalAt room body) := by
    funext m
    rw [setting.evalAt_of_enters henters, hconst,
      Run.bind_of_ok (setting.values_const (room + 1) values m)]
  rw [hcall]
  exact hbody

/-- What a call of known cost ends with: its result, or the limit one step further. -/
theorem evalCallFrom_of_costs {call : Call}
    (h : Run.Costs setting.limits (setting.evalAt (setting.limits.room 0) call.expr) k x) :
    setting.evalCallFrom call {} =
      if k ≤ setting.limits.steps then (Outcome.result (Outcome.ending x {}), { steps := k })
      else
        (.error (.limit (.steps setting.limits.steps)), { steps := setting.limits.steps + 1 }) := by
  have hstart : ({} : Machine) = ⟨.empty, 0⟩ := rfl
  rw [evalCallFrom_eq, hstart]
  by_cases hk : k ≤ setting.limits.steps
  · rw [if_pos hk, h.within .empty 0 (by omega), Nat.zero_add]
    cases x <;> rfl
  · rw [if_neg hk, h.beyond .empty 0 (Nat.zero_le _) (by omega)]
    rfl

/-- Evaluated on its own, the call has the residue of `n` as its value if it is within the limits,
and is stopped by `limit` if it is not. So many steps are counted, and no variable is left. -/
def Settles (setting : Setting) (call : Call) (within : Prop) [Decidable within] (n : Int)
    (limit : LimitExceeded) (steps : Nat) : Prop :=
  if within then
    ∃ value : Literal, setting.evalCallFrom call {} = (.ok value, { steps := steps }) ∧
      value.IsResidue .int n
  else setting.evalCallFrom call {} = (.error (.limit limit), { steps := steps })

end Setting

/-- The call of the first function with this name, on constants. -/
def Program.callOf? (program : Program) (name : String) (values : List Literal) : Option Call :=
  (program.find? name).map fun function => ⟨function.id, none, values.map .const⟩

end CallFolding
