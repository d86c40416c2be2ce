import CallFolding.Proofs.Contrast

/-!
Constant calls. A call that has a value on its own has that value everywhere: whatever variables
there are, and however many steps are counted, it ends with the same value and leaves the variables
as they were, or runs into a limit (`isConstant_of_evalCall`). So constant calls can be replaced by
their values, in expressions and in the bodies of functions, and every evaluation that does not run
into a limit ends as before (`isConstant_of_replaced`, `evalCall_of_replaced`).
-/

set_option autoImplicit false

namespace CallFolding

namespace Setting

/-- Under any limits and in any state, the call has this value and no other effect, or runs into a
limit. -/
def IsConstant (program : Program) (marker : String) (call : Call) (value : Literal) : Prop :=
  ∀ (limits : Limits) (room : Nat) (m : Machine), m.scope.Rooted →
    (∃ m', evalAt ⟨program, marker, limits⟩ room call.expr m = .ok value m' ∧ m'.scope = m.scope) ∨
      ∃ cause m', evalAt ⟨program, marker, limits⟩ room call.expr m =
        .error (.failed (.limit cause)) m'

end Setting

namespace Contrast

/-- Evaluations in one state, where the right one has the greater limits. -/
def relaxed (left right : Setting) (h : left.limits.steps ≤ right.limits.steps) : Contrast where
  left := left
  right := right
  base := .empty
  near a b := a = b
  beyond _ := False
  lenientSteps := True
  lenientDepth := True
  near_succ h := congrArg (· + 1) h
  beyond_mono _ h := h
  fits hab _ ha := by omega
  strict h := absurd trivial h

/-- Evaluations in one state under any two limits, compared up to a number of steps that the right
one may take. -/
def counted (left right : Setting) (count : Nat) (h : count ≤ right.limits.steps) : Contrast where
  left := left
  right := right
  base := .empty
  near a b := a = b
  beyond n := count < n
  lenientSteps := True
  lenientDepth := True
  near_succ h := congrArg (· + 1) h
  beyond_mono hab ha := Nat.lt_of_lt_of_le ha hab
  fits hab hbeyond _ := by omega
  strict h := absurd trivial h

/-- Evaluations in one state, where the right one may take more steps. -/
def fewerSteps (left right : Setting) (h : left.limits.steps ≤ right.limits.steps) : Contrast :=
  { relaxed left right h with lenientDepth := False }

/-- Evaluations in one state, where the right one may take as many steps and may have more room. -/
def lessRoom (left right : Setting) (h : left.limits.steps = right.limits.steps) : Contrast :=
  { relaxed left right (Nat.le_of_eq h) with
    lenientSteps := False
    strict := by
      intro _ a b hab _ ha
      change a = b at hab
      change right.limits.steps ≤ b
      change left.limits.steps ≤ a at ha
      omega }

/-- An evaluation on its own and one in the state `m`, where the right one has greater limits. -/
def lifted (left right : Setting) (m : Machine)
    (h : left.limits.steps + m.steps ≤ right.limits.steps) : Contrast where
  left := left
  right := right
  base := m.scope
  near a b := b = a + m.steps
  beyond _ := False
  lenientSteps := True
  lenientDepth := True
  near_succ h := by omega
  beyond_mono _ h := h
  fits hab _ ha := by omega
  strict h := absurd trivial h

/-- Evaluations under the same limits, where the right one takes no more steps. -/
def shortened (left right : Setting) (h : right.limits = left.limits) : Contrast where
  left := left
  right := right
  base := .empty
  near a b := b ≤ a
  beyond _ := False
  lenientSteps := True
  lenientDepth := True
  near_succ h := Nat.succ_le_succ h
  beyond_mono _ h := h
  fits hab _ ha := by
    rw [h]
    omega
  strict h := absurd trivial h

variable {c : Contrast} {α : Type}

/-- A left run that ends with a value is never excused if all steps are compared. -/
theorem Agree.of_ok (hbeyond : ∀ n, ¬ c.beyond n) {a : α} {m : Machine} {x' : Outcome α}
    (h : c.Agree (.ok a m) x') : ∃ m', x' = .ok a m' ∧ c.Near m m' := by
  generalize hx : (.ok a m : Outcome α) = x at h
  cases h with
  | value b hnear =>
    cases hx
    exact ⟨_, rfl, hnear⟩
  | exit _ _ => cases hx
  | excused _ hexc =>
    subst hx
    rcases hexc with ⟨_, _, heq, _⟩ | h
    · cases heq
    · exact absurd h (hbeyond _)
  | stray _ _ => cases hx

/-- Over the same base, a right run that ends with a value tells how the left one ends, unless that
one runs into a limit. -/
theorem Agree.of_right_ok (hbeyond : ∀ n, ¬ c.beyond n) (hb : c.base = .empty) {a : α}
    {m' : Machine} {x : Outcome α} (h : c.Agree x (.ok a m')) :
    (∃ m, x = .ok a m ∧ c.Near m m') ∨ ∃ cause m, x = .error (.failed (.limit cause)) m := by
  generalize hx' : (.ok a m' : Outcome α) = x' at h
  cases h with
  | value b hnear =>
    cases hx'
    exact .inl ⟨_, rfl, hnear⟩
  | exit _ _ => cases hx'
  | excused _ hexc =>
    rcases hexc with ⟨cause, m, rfl, _⟩ | h
    · exact .inr ⟨cause, m, rfl⟩
    · exact absurd h (hbeyond _)
  | stray _ hstray =>
    obtain ⟨_, _, heq, _⟩ := hstray hb
    subst hx'
    cases heq

/-- Over the same base, a right run into a limit means that the left one ran into a limit too. -/
theorem Agree.of_right_limit (hbeyond : ∀ n, ¬ c.beyond n) (hb : c.base = .empty)
    {cause' : LimitExceeded} {m' : Machine} {x : Outcome α}
    (h : c.Agree x (.error (.failed (.limit cause')) m')) :
    ∃ cause m, x = .error (.failed (.limit cause)) m := by
  generalize hx' : (.error (.failed (.limit cause')) m' : Outcome α) = x' at h
  cases h with
  | value _ _ => cases hx'
  | exit hlike _ =>
    cases hx'
    cases hlike with
    | same => exact ⟨_, _, rfl⟩
    | steps a b => exact ⟨_, _, rfl⟩
    | depth a b => exact ⟨_, _, rfl⟩
  | excused _ hexc =>
    rcases hexc with ⟨cause, m, rfl, _⟩ | h
    · exact ⟨cause, m, rfl⟩
    · exact absurd h (hbeyond _)
  | stray _ hstray =>
    obtain ⟨_, _, heq, _⟩ := hstray hb
    subst hx'
    cases heq

/-- Over the same base, two runs have the same result, unless the left one runs into a limit. -/
theorem Agree.result_eq (hbeyond : ∀ n, ¬ c.beyond n) (hb : c.base = .empty)
    {x x' : Outcome Literal} (h : c.Agree x x')
    (hlimit : ∀ cause, x.result ≠ .error (.limit cause)) : x'.result = x.result := by
  cases h with
  | value _ _ => rfl
  | exit hlike _ =>
    cases hlike with
    | same => rfl
    | steps a b => exact absurd rfl (hlimit _)
    | depth a b => exact absurd rfl (hlimit _)
  | excused _ hexc =>
    rcases hexc with ⟨cause, m, rfl, _⟩ | h
    · exact absurd rfl (hlimit cause)
    · exact absurd h (hbeyond _)
  | stray _ hstray =>
    obtain ⟨rfl, _, rfl, _⟩ := hstray hb
    rfl

/-- Evaluating one expression in two settings that differ in their limits only. -/
theorem sim_evalAt (c : Contrast) (hmarker : c.right.marker = c.left.marker)
    (hprogram : c.right.program = c.left.program) {a b : Nat} (hroom : c.Roomy a b) (e : Expr) :
    c.Sim (c.left.evalAt a e) (c.right.evalAt b e) := by
  have hcompatible : c.relation.Compatible fun _ _ => False :=
    ⟨hmarker, hprogram ▸ .refl _ _, fun h => h.elim⟩
  exact c.relation.evalAt hcompatible hroom (.refl _ e)

end Contrast

namespace Setting

variable {program : Program} {marker : String}

/-- What an expression does on its own it does in every state, if there are as many more steps and
activations to go. -/
theorem evalAt_lifted {limits limits' : Limits} {room room' : Nat} {e : Expr} {value : Literal}
    {m₀ : Machine} (m : Machine) (hsteps : limits.steps + m.steps ≤ limits'.steps)
    (hroom : room ≤ room') (h : evalAt ⟨program, marker, limits⟩ room e {} = .ok value m₀) :
    ∃ m', evalAt ⟨program, marker, limits'⟩ room' e m = .ok value m' ∧ m'.scope = m.scope := by
  let c := Contrast.lifted ⟨program, marker, limits⟩ ⟨program, marker, limits'⟩ m hsteps
  have hnear : c.Near {} m :=
    ⟨(Scope.above_empty_right _).symm, (Nat.zero_add _).symm, Scope.rooted_empty⟩
  have hagree := (c.sim_evalAt rfl rfl ⟨hroom, absurd trivial⟩ e).agree hnear
  have hkept := steady_evalAt ⟨program, marker, limits⟩ room e {}
  have hleft : c.left.evalAt room e {} = .ok value m₀ := h
  rw [hleft] at hagree
  rw [h] at hkept
  obtain ⟨m', hright, hnear'⟩ := hagree.of_ok fun _ h => h
  refine ⟨m', hright, ?_⟩
  -- On its own, nothing is left behind.
  have hempty : m₀.scope = .empty := (hkept.bare Scope.bare_empty).resolve_left not_false
  rw [hnear'.scope, hempty, Scope.above_empty_right]
  rfl

/-- With fewer steps and activations to go, an expression does the same or runs into a limit. -/
theorem evalAt_of_relaxed {limits limits' : Limits} {room room' : Nat} {e : Expr}
    {value : Literal} {m m' : Machine} (hm : m.scope.Rooted) (hsteps : limits.steps ≤ limits'.steps)
    (hroom : room ≤ room') (h : evalAt ⟨program, marker, limits'⟩ room' e m = .ok value m') :
    (∃ m₁, evalAt ⟨program, marker, limits⟩ room e m = .ok value m₁ ∧ m₁.scope = m'.scope) ∨
      ∃ cause m₁,
        evalAt ⟨program, marker, limits⟩ room e m = .error (.failed (.limit cause)) m₁ := by
  let c := Contrast.relaxed ⟨program, marker, limits⟩ ⟨program, marker, limits'⟩ hsteps
  have hnear : c.Near m m := ⟨(Scope.above_empty_left _).symm, rfl, hm⟩
  have hagree := (c.sim_evalAt rfl rfl ⟨hroom, absurd trivial⟩ e).agree hnear
  have hright : c.right.evalAt room' e m = .ok value m' := h
  rw [hright] at hagree
  refine (hagree.of_right_ok (fun _ h => h) rfl).imp_left ?_
  rintro ⟨m₁, hleft, hnear₁⟩
  exact ⟨m₁, hleft, (hnear₁.scope_eq rfl).symm⟩

/-- **A call that has a value on its own is constant.** Its evaluation on its own and the one that
is asked about are both compared with a third, which starts where the latter does and has limits
that are large enough for the former. -/
theorem isConstant_of_evalCall {limits : Limits} {call : Call} {value : Literal}
    (h : evalCall ⟨program, marker, limits⟩ call = .ok value) :
    IsConstant program marker call value := by
  intro limits' room m hm
  obtain ⟨m₀, hfresh⟩ := evalCall_eq_ok h
  -- Enough for the steps that were counted before the call, and for all that are allowed here.
  let wide : Limits := { limits with steps := limits.steps + m.steps + limits'.steps }
  have hsteps : limits.steps + m.steps ≤ wide.steps := Nat.le_add_right _ _
  have hroom : limits.room 0 ≤ limits.room 0 + room := Nat.le_add_right _ _
  obtain ⟨m₁, hwide, hm₁⟩ := evalAt_lifted m hsteps hroom hfresh
  have hsteps' : limits'.steps ≤ wide.steps := Nat.le_add_left _ _
  have hrelaxed := evalAt_of_relaxed hm hsteps' (Nat.le_add_left room _) hwide
  rwa [hm₁] at hrelaxed

/-! ## Replacing constant calls -/

/-- Constant calls and their values end alike. -/
theorem compatible_isConstant {program' : Program} (limits : Limits)
    (h : program.Replaced (IsConstant program marker) program') :
    RunRelation.Compatible
      (Contrast.shortened ⟨program, marker, limits⟩ ⟨program', marker, limits⟩ rfl).relation
      (IsConstant program marker) where
  marker := rfl
  program := h
  swap {call value} hconst room := by
    refine ⟨steady_evalAt _ room _, fun m => .value value m, fun {m m'} hnear => ?_⟩
    have hsteps := (steady_evalAt ⟨program, marker, limits⟩ room call.expr m).steps
    change Contrast.Agree _ (evalAt ⟨program, marker, limits⟩ room call.expr m) (.ok value m')
    -- The value takes no step. The call takes any number of them, or runs into a limit.
    rcases hconst limits room m hnear.rooted with ⟨m₁, hleft, hscope⟩ | ⟨cause, m₁, hleft⟩
    · rw [hleft] at hsteps ⊢
      refine .value value ⟨?_, Nat.le_trans hnear.steps hsteps, ?_⟩
      · rw [hscope, hnear.scope]
      · rw [hscope]
        exact hnear.rooted
    · rw [hleft]
      refine .excused _ (.inl ⟨cause, m₁, rfl, ?_⟩)
      cases cause <;> trivial

/-- Replacing constant calls in a program and an expression keeps what is evaluated. -/
theorem agree_of_replaced {program' : Program} (limits : Limits) (room : Nat) {e e' : Expr}
    (h : program.Replaced (IsConstant program marker) program')
    (he : Replaced (IsConstant program marker) e e') (m : Machine) (hm : m.scope.Rooted) :
    (Contrast.shortened ⟨program, marker, limits⟩ ⟨program', marker, limits⟩ rfl).Agree
      (evalAt ⟨program, marker, limits⟩ room e m) (evalAt ⟨program', marker, limits⟩ room e' m) :=
  have hsim := RunRelation.evalAt _ (compatible_isConstant limits h)
    ⟨Nat.le_refl room, absurd trivial⟩ he
  hsim.agree ⟨(Scope.above_empty_left _).symm, Nat.le_refl _, hm⟩

/-- A call is constant if it becomes constant when constant calls in its operands are replaced. -/
theorem isConstant_of_replaced {call call' : Call} {value : Literal}
    (h : Replaced (IsConstant program marker) call.expr call'.expr)
    (hconst : IsConstant program marker call' value) : IsConstant program marker call value := by
  intro limits room m hm
  have hagree := agree_of_replaced limits room (.refl _ program) h m hm
  -- The call with its operands replaced takes no more steps, so if it runs into a limit the other
  -- does.
  rcases hconst limits room m hm with ⟨m', hright, hscope⟩ | ⟨cause, m', hright⟩
  · rw [hright] at hagree
    refine (hagree.of_right_ok (fun _ h => h) rfl).imp_left ?_
    rintro ⟨m₁, hleft, hnear⟩
    exact ⟨m₁, hleft, (hnear.scope_eq rfl).symm.trans hscope⟩
  · rw [hright] at hagree
    exact .inr (hagree.of_right_limit (fun _ h => h) rfl)

/-- **Replacing constant calls keeps the result** of every evaluation that does not run into a
limit. -/
theorem evalCall_of_replaced {program' : Program} (limits : Limits) (call : Call)
    (h : program.Replaced (IsConstant program marker) program')
    (hlimit : ∀ cause, evalCall ⟨program, marker, limits⟩ call ≠ .error (.limit cause)) :
    evalCall ⟨program', marker, limits⟩ call = evalCall ⟨program, marker, limits⟩ call := by
  rw [evalCall_eq] at hlimit
  rw [evalCall_eq, evalCall_eq]
  have hagree := agree_of_replaced limits (limits.room 0) h (.refl _ call.expr) {}
    Scope.rooted_empty
  exact hagree.result_eq (fun _ h => h) rfl hlimit

end Setting

end CallFolding
