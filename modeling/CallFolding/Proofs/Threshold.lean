import CallFolding.Proofs.Constant
import CallFolding.Proofs.Metered

/-!
Limits only cut evaluation off. An evaluation that was not cut off takes some number of steps. With
that many steps or more, and no less room, it is the same evaluation; with fewer steps it is cut off
by just the limit on steps, and with less room it is the same or cut off by just the limit on depth.
The one way to be cut off and end otherwise is to fail to close a frame outside of all activations,
so such failures count as cut off too.

Steps are counted without a bound here. What this says about a counter of 64 bits is in
`CallFolding.Proofs.Wraparound`.
-/

set_option autoImplicit false

namespace CallFolding

/-- A limit was hit, or a frame could not be closed. -/
def Exit.IsCut : Exit → Prop
  | .failed (.limit _) => True
  | .failed (.defect (.pop _)) => True
  | _ => False

namespace Outcome

variable {α : Type}

def IsCut : Outcome α → Prop
  | .ok _ _ => False
  | .error exit _ => exit.IsCut

theorem not_isCut {x : Outcome Literal} (hlimit : ∀ cause, x.result ≠ .error (.limit cause))
    (hpop : ∀ cause, x.result ≠ .error (.defect (.pop cause))) : ¬ x.IsCut := by
  intro h
  cases x with
  | ok value m => exact h
  | error exit m =>
    cases exit with
    | failed failure =>
      cases failure with
      | limit cause => exact hlimit cause rfl
      | fault cause => exact h
      | defect cause =>
        cases cause with
        | pop cause => exact hpop cause rfl
        | _ => exact h
    | _ => exact h

end Outcome

theorem Exit.IsOverrun.isCut {limits : Limits} {x : Exit} (h : x.IsOverrun limits) : x.IsCut := by
  cases x with
  | failed failure =>
    cases failure with
    | limit cause => trivial
    | fault cause => exact h
    | defect cause =>
      cases cause with
      | pop cause => trivial
      | _ => exact h
  | _ => exact h

/-- An evaluation that was not cut off has counted no more steps than it may. -/
theorem Outcome.Respects.steps_le {α : Type} {limits : Limits} {x : Outcome α}
    (h : x.Respects limits) (hx : ¬ x.IsCut) : x.machine.steps ≤ limits.steps := by
  cases x with
  | ok a m => exact h.steps_of_ok
  | error exit m => exact h.steps_of_error fun hover => hx hover.isCut

namespace Contrast

section

variable {c : Contrast} {α : Type} {x x' : Outcome α}

/-- With nothing below and the same counts, corresponding states are equal. -/
theorem Near.machine_eq {m m' : Machine} (h : c.Near m m') (hb : c.base = .empty)
    (hnear : ∀ {a b : Nat}, c.near a b → a = b) : m' = m := by
  obtain ⟨scope, steps⟩ := m
  obtain ⟨scope', steps'⟩ := m'
  have hscope : scope' = scope := h.scope_eq hb
  have hsteps : steps = steps' := hnear h.steps
  rw [hscope, hsteps]

variable (h : c.Agree x x') (hb : c.base = .empty) (hnear : ∀ {a b : Nat}, c.near a b → a = b)

include h hb hnear

/-- A left run that was not cut off, nor went beyond what is compared, is equal to the right one. -/
theorem Agree.eq_of_left (hx : ¬ x.IsCut) (hbeyond : ¬ c.beyond x.machine.steps) : x' = x := by
  cases h with
  | value a hm => rw [hm.machine_eq hb hnear]
  | exit hlike hm =>
    rw [hm.machine_eq hb hnear]
    cases hlike with
    | same => rfl
    | steps a b => exact absurd trivial hx
    | depth a b => exact absurd trivial hx
  | excused _ hexc =>
    rcases hexc with ⟨cause, m, rfl, _⟩ | h
    · exact absurd trivial hx
    · exact absurd h hbeyond
  -- With nothing below, a stray failure is one of closing a frame, and that counts as cut off.
  | stray _ hstray =>
    obtain ⟨rfl, _⟩ := hstray hb
    exact absurd trivial hx

/-- If the right run was not cut off, the left one is equal to it or hit a limit that the right one
need not respect. -/
theorem Agree.eq_of_right (hx : ¬ x'.IsCut) (hbeyond : ∀ n, ¬ c.beyond n) :
    x = x' ∨ ∃ cause m, x = .error (.failed (.limit cause)) m ∧ c.Lenient cause := by
  cases h with
  | value a hm =>
    rw [hm.machine_eq hb hnear]
    exact .inl rfl
  | exit hlike hm =>
    rw [hm.machine_eq hb hnear]
    cases hlike with
    | same => exact .inl rfl
    | steps a b => exact absurd trivial hx
    | depth a b => exact absurd trivial hx
  | excused _ hexc => exact .inr (hexc.resolve_right (hbeyond _))
  | stray _ hstray =>
    obtain ⟨_, _, rfl, _⟩ := hstray hb
    exact absurd trivial hx

end

/-- Evaluating an expression on its own in two settings that differ in their limits only. -/
theorem agree_alone (c : Contrast) (hmarker : c.right.marker = c.left.marker)
    (hprogram : c.right.program = c.left.program) (hb : c.base = .empty) (hnear : c.near 0 0)
    {a b : Nat} (hroom : c.Roomy a b) (e : Expr) :
    c.Agree (c.left.evalAt a e {}) (c.right.evalAt b e {}) := by
  refine (c.sim_evalAt hmarker hprogram hroom e).agree ⟨?_, hnear, Scope.rooted_empty⟩
  rw [hb, Scope.above_empty_left]

end Contrast

namespace Setting

variable {program : Program} {marker : String}

section

variable {limits : Limits} {call : Call} {x : Outcome Literal}

/-- With as many steps as it takes, and no less room, the evaluation is the same. -/
theorem evalAt_of_steps_le (h : evalAt ⟨program, marker, limits⟩ (limits.room 0) call.expr {} = x)
    (hx : ¬ x.IsCut) {limits' : Limits} (hsteps : x.machine.steps ≤ limits'.steps)
    (hdepth : limits.depth ≤ limits'.depth) :
    evalAt ⟨program, marker, limits'⟩ (limits'.room 0) call.expr {} = x := by
  let c := Contrast.counted ⟨program, marker, limits⟩ ⟨program, marker, limits'⟩ _ hsteps
  have hagree : c.Agree (evalAt ⟨program, marker, limits⟩ (limits.room 0) call.expr {})
      (evalAt ⟨program, marker, limits'⟩ (limits'.room 0) call.expr {}) :=
    c.agree_alone rfl rfl rfl rfl ⟨hdepth, absurd trivial⟩ call.expr
  rw [h] at hagree
  exact hagree.eq_of_left rfl id hx (Nat.lt_irrefl _)

/-- With fewer steps than it takes, the evaluation is cut off by the limit on steps. -/
theorem evalAt_of_steps_lt (h : evalAt ⟨program, marker, limits⟩ (limits.room 0) call.expr {} = x)
    (hx : ¬ x.IsCut) {steps : Nat} (hsteps : steps < x.machine.steps) :
    ∃ m, evalAt ⟨program, marker, ⟨steps, limits.depth⟩⟩ (limits.room 0) call.expr {} =
      .error (.failed (.limit (.steps steps))) m := by
  have hmetered := metered_evalAt ⟨program, marker, ⟨steps, limits.depth⟩⟩ (limits.room 0)
    call.expr {} (Nat.zero_le _)
  -- The evaluation was not cut off, so it took no more steps than it may.
  have hwithin := (metered_evalAt ⟨program, marker, limits⟩ (limits.room 0) call.expr {}
    (Nat.zero_le _)).steps_le (by rw [h]; exact hx)
  rw [h] at hwithin
  have hle : steps ≤ limits.steps := Nat.le_of_lt (Nat.lt_of_lt_of_le hsteps hwithin)
  let c := Contrast.fewerSteps ⟨program, marker, ⟨steps, limits.depth⟩⟩
    ⟨program, marker, limits⟩ hle
  have hagree : c.Agree
      (evalAt ⟨program, marker, ⟨steps, limits.depth⟩⟩ (limits.room 0) call.expr {})
      (evalAt ⟨program, marker, limits⟩ (limits.room 0) call.expr {}) :=
    c.agree_alone rfl rfl rfl rfl ⟨Nat.le_refl _, fun _ => rfl⟩ call.expr
  rw [h] at hagree
  rcases hagree.eq_of_right rfl id hx (fun _ h => h) with heq | ⟨cause, m, heq, hlenient⟩
  · -- The same evaluation would have to make do with fewer steps than it takes.
    rw [heq] at hmetered
    have hfew := hmetered.steps_le hx
    exact absurd hsteps (Nat.not_lt.mpr hfew)
  · rw [heq] at hmetered
    rcases hmetered.quotes _ _ rfl with rfl | rfl
    · exact ⟨m, heq⟩
    · exact hlenient.elim

/-- With less room, the evaluation is the same or cut off by the limit on depth. -/
theorem evalAt_of_depth_lt (h : evalAt ⟨program, marker, limits⟩ (limits.room 0) call.expr {} = x)
    (hx : ¬ x.IsCut) {depth : Nat} (hdepth : depth < limits.depth) :
    evalAt ⟨program, marker, ⟨limits.steps, depth⟩⟩ depth call.expr {} = x ∨
      ∃ m, evalAt ⟨program, marker, ⟨limits.steps, depth⟩⟩ depth call.expr {} =
        .error (.failed (.limit (.depth depth))) m := by
  have hmetered := metered_evalAt ⟨program, marker, ⟨limits.steps, depth⟩⟩ depth call.expr {}
    (Nat.zero_le _)
  let c := Contrast.lessRoom ⟨program, marker, ⟨limits.steps, depth⟩⟩ ⟨program, marker, limits⟩ rfl
  have hagree : c.Agree (evalAt ⟨program, marker, ⟨limits.steps, depth⟩⟩ depth call.expr {})
      (evalAt ⟨program, marker, limits⟩ (limits.room 0) call.expr {}) :=
    c.agree_alone rfl rfl rfl rfl ⟨Nat.le_of_lt hdepth, absurd trivial⟩ call.expr
  rw [h] at hagree
  refine (hagree.eq_of_right rfl id hx (fun _ h => h)).imp_right ?_
  rintro ⟨cause, m, heq, hlenient⟩
  rw [heq] at hmetered
  -- Both sides may take as many steps, so only the limit on depth can be hit on the left alone.
  rcases hmetered.quotes _ _ rfl with rfl | rfl
  · exact hlenient.elim
  · exact ⟨m, heq⟩

end

/-- **Limits only cut evaluation off, at an exact threshold.** A call that ends otherwise than by a
limit or a frame that cannot be closed takes some number of steps. It ends like that under all
limits with as many steps and no less room; under a limit with fewer steps it ends with just that
limit, and with less room it ends as before or with just that limit. -/
theorem evalCallFrom_limits (program : Program) (marker : String) (limits : Limits) (call : Call)
    {result : Except Failure Literal} {m : Machine}
    (h : evalCallFrom ⟨program, marker, limits⟩ call {} = (result, m))
    (hlimit : ∀ cause, result ≠ .error (.limit cause))
    (hpop : ∀ cause, result ≠ .error (.defect (.pop cause))) :
    m.steps ≤ limits.steps ∧
    (∀ limits' : Limits, m.steps ≤ limits'.steps → limits.depth ≤ limits'.depth →
      evalCallFrom ⟨program, marker, limits'⟩ call {} = (result, m)) ∧
    (∀ steps, steps < m.steps →
      evalCall ⟨program, marker, ⟨steps, limits.depth⟩⟩ call = .error (.limit (.steps steps))) ∧
    ∀ depth, depth < limits.depth →
      evalCallFrom ⟨program, marker, ⟨limits.steps, depth⟩⟩ call {} = (result, m) ∨
        evalCall ⟨program, marker, ⟨limits.steps, depth⟩⟩ call =
          .error (.limit (.depth depth)) := by
  rw [evalCallFrom_eq] at h
  generalize hx : evalAt ⟨program, marker, limits⟩ (limits.room 0) call.expr {} = x at h
  obtain ⟨rfl, rfl⟩ := Prod.mk.inj h
  -- From here on the result only matters in that it is not one of being cut off.
  have hcut : ¬ Outcome.IsCut x := Outcome.not_isCut hlimit hpop
  refine ⟨?_, ?_, ?_, ?_⟩
  · rw [← hx] at hcut ⊢
    exact (metered_evalAt ⟨program, marker, limits⟩ _ _ _ (Nat.zero_le _)).steps_le hcut
  · intro limits' hsteps hdepth
    rw [evalCallFrom_eq]
    change (Outcome.result (evalAt _ (limits'.room 0) _ _),
      Outcome.machine (evalAt _ (limits'.room 0) _ _)) = _
    rw [evalAt_of_steps_le hx hcut hsteps hdepth]
  · intro steps hsteps
    obtain ⟨m, heq⟩ := evalAt_of_steps_lt hx hcut hsteps
    rw [evalCall_eq]
    change Outcome.result (evalAt _ (limits.room 0) _ _) = _
    rw [heq]
    rfl
  · intro depth hdepth
    rw [evalCallFrom_eq, evalCall_eq]
    change (Outcome.result (evalAt _ depth _ _), Outcome.machine (evalAt _ depth _ _)) = _ ∨
      Outcome.result (evalAt _ depth _ _) = _
    rcases evalAt_of_depth_lt hx hcut hdepth with heq | ⟨m, heq⟩
    · exact .inl (by rw [heq])
    · exact .inr (by rw [heq]; rfl)

end Setting

end CallFolding
