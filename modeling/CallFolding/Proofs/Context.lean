import CallFolding.Proofs.Constant
import CallFolding.Proofs.Origin

/-!
A call does not depend on where it is made. Called with constants, a marked function does the same
in every state: it ends as it would end on its own with the limits that are left there, counts as
many steps, and leaves the variables as they were.

The two evaluations are compared by a contrast that excuses nothing (`Contrast.embedded`). Where no
activation is open, a contrast says nothing about failures for want of one. But constants need no
variables and the body has an activation of its own, so this never comes up (`Match.of_agree`).

As in `CallFolding.Proofs.Threshold`, steps are counted without a bound.
-/

set_option autoImplicit false

namespace CallFolding

/-- The same end, up to the limit that a message quotes, whatever states are left. -/
inductive Outcome.Alike {α : Type} : Outcome α → Outcome α → Prop
  | value (a : α) (m m' : Machine) : Alike (.ok a m) (.ok a m')
  | exit {x x' : Exit} (m m' : Machine) : Contrast.Like x x' → Alike (.error x m) (.error x' m')

namespace Contrast

/-- An evaluation on its own, with the limits that are left in the state `m`, and one in that
state. -/
def embedded (program : Program) (marker : String) (limits : Limits) (m : Machine) : Contrast where
  left := ⟨program, marker, ⟨limits.steps - m.steps, limits.depth - m.scope.depth⟩⟩
  right := ⟨program, marker, limits⟩
  base := m.scope
  near a b := b = a + m.steps
  beyond _ := False
  lenientSteps := False
  lenientDepth := False
  near_succ h := by omega
  beyond_mono _ h := h
  fits hab _ ha := by
    dsimp only at ha ⊢
    omega
  strict _ a b hab _ ha := by
    dsimp only at ha ⊢
    omega

/-- Two runs end alike, in corresponding states. -/
inductive Match (c : Contrast) {α : Type} : Outcome α → Outcome α → Prop
  | value (a : α) {m m' : Machine} : c.Near m m' → Match c (.ok a m) (.ok a m')
  | exit {x x' : Exit} {m m' : Machine} : Like x x' → c.Near m m' →
      Match c (.error x m) (.error x' m')

namespace Match

variable {c : Contrast} {α : Type} {x x' : Outcome α}

theorem alike (h : c.Match x x') : x.Alike x' := by
  cases h with
  | value a _ => exact .value a _ _
  | exit hlike _ => exact .exit _ _ hlike

theorem near (h : c.Match x x') : c.Near x.machine x'.machine := by
  cases h with
  | value _ hnear => exact hnear
  | exit _ hnear => exact hnear

/-- Inside an activation, and with nothing excused, agreement has no exceptions. -/
theorem of_agree (h : c.Agree x x') (hlenient : ∀ cause, ¬ c.Lenient cause)
    (hbeyond : ∀ n, ¬ c.beyond n) (hopen : x.machine.scope.depth ≠ 0) : c.Match x x' := by
  cases h with
  | value a hnear => exact .value a hnear
  | exit hlike hnear => exact .exit hlike hnear
  | excused _ hexcused =>
    rcases hexcused with ⟨cause, _, _, hl⟩ | hb
    · exact absurd hl (hlenient cause)
    · exact absurd hb (hbeyond _)
  | stray hd _ => exact absurd hd hopen

/-- Corresponding states in which other things are open correspond as well. -/
theorem withScope (h : c.Match x x') {s : Scope Literal} (hs : s.Rooted) :
    c.Match (x.withScope s) (x'.withScope (c.base.above s)) := by
  cases h with
  | value a hnear => exact .value a (hnear.with_scope hs)
  | exit hlike hnear => exact .exit hlike (hnear.with_scope hs)

/-- A call takes the same returns on both sides, and lets failures pass. -/
theorem endOfCall (function : Function) {x x' : Outcome Literal} (h : c.Match x x') :
    c.Match (Run.endOfCall function x) (Run.endOfCall function x') := by
  cases h with
  | value a hnear =>
    simp only [Run.endOfCall]
    split
    · exact .value a hnear
    · exact .exit (.same _) hnear
  | @exit exit _ m m' hlike hnear =>
    cases hlike with
    | steps a b => exact .exit (.steps a b) hnear
    | depth a b => exact .exit (.depth a b) hnear
    | same =>
      cases exit with
      | returned target value =>
        simp only [Run.endOfCall]
        split
        · exact .value value hnear
        · exact .exit (.same _) hnear
      | broke target => exact .exit (.same _) hnear
      | continued target => exact .exit (.same _) hnear
      | failed cause => exact .exit (.same _) hnear

/-- An activation is opened on both sides, so what its body does is compared without exceptions. -/
theorem activate (hlenient : ∀ cause, ¬ c.Lenient cause) (hbeyond : ∀ n, ¬ c.beyond n)
    (function : Function) (values : List Literal) {body body' : Run Literal}
    (hbody : c.Sim body body') {m m' : Machine} (hnear : c.Near m m') :
    c.Match (Setting.activate function values body m)
      (Setting.activate function values body' m') := by
  have hsim := (c.relation.bindOperands (function.operandNames.zip values)).bind fun _ => hbody
  rw [Setting.activate_eq hbody.left, Setting.activate_eq hbody.right, hnear.scope]
  refine (Match.withScope (of_agree (hsim.agree hnear.activated) hlenient hbeyond ?_)
    hnear.rooted).endOfCall function
  -- The run leaves the activations that were open when it started, among them its own.
  rw [(hsim.left m.activated).depth_eq, Scope.depth_pushActivation]
  exact Nat.succ_ne_zero _

end Match

end Contrast

namespace Setting

/-- Constants have their values in every state, and change nothing. -/
theorem values_const (setting : Setting) (room : Nat) (values : List Literal) (m : Machine) :
    Run.values ((values.map Expr.const).map (setting.evalAt room)) m = .ok values m := by
  induction values with
  | nil => rfl
  | cons value values ih =>
    have hfirst : setting.evalAt room (.const value) m = .ok value m := by
      rw [evalAt_eq, evalExpr]
      rfl
    simp only [List.map_cons, Run.values]
    rw [Run.bind_of_ok hfirst, Run.bind_of_ok ih]
    rfl

/-- An activation leaves the variables of the caller as they were. -/
theorem scope_activate {run : Run Literal} (hrun : run.Steady) (function : Function)
    (values : List Literal) (m : Machine) :
    (Outcome.machine (activate function values run m)).scope = m.scope := by
  rw [activate_eq hrun, Run.machine_endOfCall, Outcome.machine_withScope]

/-- The call of a marked function with constants is refused at once, or it runs the body. Which of
the two depends on the number of operands, the room and the body, and not on limits or states. -/
theorem evalAt_of_constants {program : Program} {marker : String} {call : Call}
    {function : Function} {values : List Literal}
    (hfound : program.function? call.callee = some function)
    (hmarked : function.classify marker = .marked)
    (hconst : call.operands = values.map .const) (room : Nat) :
    (∃ exit : Limits → Exit, (∀ limits limits', Contrast.Like (exit limits) (exit limits')) ∧
      ∀ limits m, evalAt ⟨program, marker, limits⟩ room call.expr m = .error (exit limits) m) ∨
    ∃ room' body, room = room' + 1 ∧ ∀ limits m, evalAt ⟨program, marker, limits⟩ room call.expr m =
      activate function values (evalAt ⟨program, marker, limits⟩ room' body) m := by
  simp only [evalAt_call, hconst, Setting.call, hfound, List.length_map]
  -- What is refused is refused before anything is looked at in the state.
  by_cases harity : values.length ≠ function.arity
  · simp only [if_pos harity]
    exact .inl ⟨fun _ => _, fun _ _ => .same _, fun _ _ => rfl⟩
  · simp only [if_neg harity, hmarked]
    cases room with
    | zero => exact .inl ⟨fun limits => _, fun limits limits' => .depth limits.depth limits'.depth,
        fun _ _ => rfl⟩
    | succ room =>
      cases hbody : function.body with
      | none =>
        simp only [callMarked, below, hbody]
        exact .inl ⟨fun _ => _, fun _ _ => .same _, fun _ _ => rfl⟩
      | some body =>
        simp only [callMarked, below, hbody]
        refine .inr ⟨room, body, rfl, fun limits m => ?_⟩
        rw [Run.bind_of_ok (values_const _ _ values m)]

/-- **A call does not depend on where it is made.** In any state, the call of a marked function with
constants ends as on its own with the limits that are left: with the same value or exit, up to the
limit that a message quotes. It counts as many steps, and leaves the variables as they were. -/
theorem eval_alike_alone (program : Program) (marker : String) (limits : Limits) (m : Machine)
    (call : Call) {function : Function} (hfound : program.function? call.callee = some function)
    (hmarked : function.classify marker = .marked) {values : List Literal}
    (hconst : call.operands = values.map .const) :
    let alone := eval ⟨program, marker, ⟨limits.steps - m.steps, limits.depth - m.scope.depth⟩⟩
      call.expr {}
    let here := eval ⟨program, marker, limits⟩ call.expr m
    Outcome.Alike alone here ∧
      (Outcome.machine here).steps = m.steps + (Outcome.machine alone).steps ∧
      (Outcome.machine here).scope = m.scope := by
  intro alone here
  -- In both states there is room for as many more activations.
  rcases evalAt_of_constants hfound hmarked hconst (limits.depth - m.scope.depth) with
    ⟨exit, hlike, heq⟩ | ⟨room, body, -, heq⟩
  · have halone : alone = .error (exit _) {} := heq _ {}
    have hhere : here = .error (exit limits) m := heq limits m
    rw [halone, hhere]
    exact ⟨.exit _ _ (hlike _ _), rfl, rfl⟩
  · let c := Contrast.embedded program marker limits m
    have halone : alone = activate function values (c.left.evalAt room body) {} := heq _ {}
    have hhere : here = activate function values (c.right.evalAt room body) m := heq limits m
    have hnear : c.Near {} m :=
      ⟨(Scope.above_empty_right _).symm, (Nat.zero_add _).symm, Scope.rooted_empty⟩
    have hlenient : ∀ cause, ¬ c.Lenient cause := by
      intro cause
      cases cause <;> exact id
    have hbody := c.sim_evalAt rfl rfl ⟨Nat.le_refl room, fun _ => rfl⟩ body
    have hmatch := Contrast.Match.activate hlenient (fun _ h => h) function values hbody hnear
    rw [← halone, ← hhere] at hmatch
    have hsteps : (Outcome.machine here).steps = (Outcome.machine alone).steps + m.steps :=
      hmatch.near.steps
    refine ⟨hmatch.alike, by omega, ?_⟩
    rw [hhere]
    exact scope_activate hbody.right function values m

end Setting

end CallFolding
