import CallFolding.Proofs.Vetted
import CallFolding.Program.Builder

/-!
Outside of all activations. The operands of a call are evaluated where the call stands, and for a
call on its own that is outside of all activations. A frame can be opened there but not closed, and
without a frame no variable can be bound. Eligibility does not ask where an operand will be
evaluated. So the evaluation of an eligible call can fail for want of an activation, and it does if
and only if it comes to a block, branch or loop, or to binding a variable, outside of all bodies.
-/

set_option autoImplicit false

namespace CallFolding

theorem Site.not_catches_failed (site : Site) (cause : Failure) :
    ¬ site.Catches (.failed cause) := by
  cases site <;> exact not_false

/-- A failure for want of an activation is one of closing or of binding. -/
theorem exists_defect_of_isUnscoped {x : Exit} (h : x.IsUnscoped) :
    ∃ cause, x = .failed (.defect cause) ∧
      ((∃ pop, cause = .pop pop) ∨ cause = .bind .noScope) := by
  cases x with
  | failed failure =>
    cases failure with
    | defect cause =>
      refine ⟨cause, rfl, ?_⟩
      cases cause with
      | pop pop => exact .inl ⟨pop, rfl⟩
      | bind error =>
        cases error with
        | noScope => exact .inr rfl
        | _ => exact h.elim
      | _ => exact h.elim
    | _ => exact h.elim
  | _ => exact h.elim

namespace Setting

variable {setting : Setting}

/-- A declaration whose initializer has a value, so that the variable comes to be bound. -/
def Binds (setting : Setting) (b : Moment) : Prop :=
  ∃ name type init value m, b.expr = .declare name type (some init) ∧
    setting.evalAt b.room init b.machine = .ok value m

/-! ## Failures for want of an activation -/

/-- Such a failure of a part is one of the whole. -/
theorem Next.isUnscoped {a b : Moment} (h : setting.Next a b) (ha : a.IsPlaced)
    (hb : Outcome.IsUnscoped (setting.outcome b)) : Outcome.IsUnscoped (setting.outcome a) := by
  cases hx : setting.outcome b with
  | ok value m =>
    rw [hx] at hb
    exact hb.elim
  | error x m =>
    rw [hx] at hb
    have huncaught : Uncaught x a b := by
      intro site _
      cases x with
      | failed cause => exact site.not_catches_failed cause
      | _ => exact hb.elim
    -- Where the whole does not end as its part does, it fails to close a frame of its own.
    rcases h.outcome_eq ha hx huncaught with ⟨m', heq⟩ | ⟨hd, hscoped⟩
    · rw [heq]
      exact hb
    · obtain ⟨m', heq⟩ := setting.outcome_of_isScoped a hscoped hd
      rw [heq]
      trivial

/-- If something in the course of an evaluation fails for want of an activation, the evaluation
does. -/
theorem Reaches.isUnscoped {a b : Moment} (h : setting.Reaches a b) (ha : a.IsPlaced)
    (hb : Outcome.IsUnscoped (setting.outcome b)) : Outcome.IsUnscoped (setting.outcome a) := by
  induction h with
  | refl => exact hb
  | tail hreach hnext ih => exact ih (hnext.isUnscoped (Reaches.isPlaced hreach ha) hb)

/-- How a call on its own fails that way. -/
theorem isUnscoped_start_iff (call : Call) :
    Outcome.IsUnscoped (setting.outcome (setting.start call)) ↔
      (∃ cause, setting.evalCall call = .error (.defect (.pop cause))) ∨
        setting.evalCall call = .error (.defect (.bind .noScope)) := by
  constructor
  · intro h
    have hcall : setting.evalCall call = Outcome.result (setting.outcome (setting.start call)) :=
      setting.evalCall_eq call
    rw [hcall]
    cases hx : setting.outcome (setting.start call) with
    | ok value m =>
      rw [hx] at h
      exact h.elim
    | error x m =>
      rw [hx] at h
      obtain ⟨cause, rfl, hcause⟩ := exists_defect_of_isUnscoped h
      rcases hcause with ⟨cause, rfl⟩ | rfl
      · exact .inl ⟨cause, rfl⟩
      · exact .inr rfl
  · intro h
    obtain ⟨cause, hcall, hcause⟩ : ∃ cause : Defect,
        setting.evalCall call = .error (.defect cause) ∧ cause.IsUnscoped := by
      rcases h with ⟨cause, h⟩ | h
      · exact ⟨_, h, trivial⟩
      · exact ⟨_, h, trivial⟩
    -- Jumps and returns that leave a call are defects of other kinds.
    obtain ⟨x, m, hx, hescape⟩ := evalCall_eq_error hcall
    rw [hx]
    cases x with
    | failed failure =>
      cases hescape
      exact hcause
    | _ =>
      cases hescape
      exact hcause.elim

/-! ## Where nothing is open -/

/-- A step that opens nothing leaves nothing open. -/
theorem Next.scope_eq {a b : Moment} (h : setting.Next a b) (ha : a.machine.scope.Bare)
    (hscoped : ¬ a.expr.IsScoped) (hb : Site.bodies b.sites = Site.bodies a.sites) :
    b.machine.scope = a.machine.scope := by
  have hrun := setting.steady_evalAt
  cases h with
  | inner sites room m _ => rfl
  | operand sites _ hturn => exact ((hturn.keeps (hrun _)).bare ha).resolve_left not_false
  | body sites _ _ _ =>
    simp only [Site.bodies] at hb
    omega
  | firstOperand sites room m _ _ => rfl
  | otherOperand sites _ _ hfirst _ hturn =>
    have hkept := ((hrun _ _).keeps_of_ok hfirst).trans (hturn.keeps (hrun _))
    exact (hkept.bare ha).resolve_left not_false
  | statement sites _ => exact absurd trivial hscoped
  | arm sites _ => exact absurd trivial hscoped
  | round sites label _ _ => exact absurd trivial hscoped

/-- Outside of all bodies nothing is open, unless a block, branch or loop opened it. -/
theorem Reaches.bare_or_isScoped {a b : Moment} (h : setting.Reaches a b)
    (ha : a.machine.scope.Bare) (hb : Site.bodies b.sites = 0) :
    b.machine.scope.Bare ∨
      ∃ c, setting.Reaches a c ∧ Site.bodies c.sites = 0 ∧ c.expr.IsScoped := by
  induction h with
  | refl => exact .inl ha
  | @tail c d hreach hnext ih =>
    have hle := hnext.bodies_le
    have hc : Site.bodies c.sites = 0 := by omega
    by_cases hscoped : c.expr.IsScoped
    · exact .inr ⟨c, hreach, hc, hscoped⟩
    · refine (ih hc).imp_left fun hbare => ?_
      rw [hnext.scope_eq hbare hscoped (by omega)]
      exact hbare

/-- Where no frame is open, a variable cannot be bound. -/
theorem outcome_of_binds {b : Moment} (h : setting.Binds b) (hb : b.machine.scope.Bare) :
    Outcome.IsUnscoped (setting.outcome b) := by
  obtain ⟨name, type, init, value, m, hexpr, hinit⟩ := h
  have hkept := (setting.steady_evalAt b.room init).keeps_of_ok hinit
  have hscope : m.scope = b.machine.scope := (hkept.bare hb).resolve_left not_false
  have hdefine : Run.define name value m = .error (.failed (.defect (.bind .noScope))) m := by
    simp only [Run.define_eq, Scope.define, hscope, hb.2]
    rfl
  unfold outcome
  rw [hexpr, evalAt_eq, evalExpr, ← evalAt_eq, Run.bind_of_ok hinit, Run.bind_of_error hdefine]
  trivial

/-! ## Eligible calls -/

/-- **When eligible calls keep to their scopes.** The evaluation of an eligible call never fails to
close a frame or to find one to bind in, if and only if outside of all bodies it comes to no block,
branch or loop and binds no variable. -/
theorem evalCall_scoped_iff (setting : Setting) {call : Call}
    (hnumbered : setting.program.IsNumbered)
    (h : Eligibility.check setting.program setting.marker call = .ok ()) :
    ((∀ cause, setting.evalCall call ≠ .error (.defect (.pop cause))) ∧
      setting.evalCall call ≠ .error (.defect (.bind .noScope))) ↔
    ∀ b, setting.Reaches (setting.start call) b → Site.bodies b.sites = 0 →
      ¬ b.expr.IsScoped ∧ ¬ setting.Binds b := by
  have hplaced := setting.isPlaced_start call
  constructor
  · rintro ⟨hpop, hbind⟩ b hreach hb
    have hstart : ¬ Outcome.IsUnscoped (setting.outcome (setting.start call)) := by
      rw [isUnscoped_start_iff]
      rintro (⟨cause, heq⟩ | heq)
      · exact hpop cause heq
      · exact hbind heq
    -- A frame that is opened outside of all bodies cannot be closed there.
    have hscoped : ∀ c, setting.Reaches (setting.start call) c →
        Site.bodies c.sites = 0 → ¬ c.expr.IsScoped := by
      intro c hc hbodies hexpr
      have hd := (hc.isPlaced hplaced).depth.trans hbodies
      obtain ⟨m, heq⟩ := setting.outcome_of_isScoped c hexpr hd
      refine hstart (hc.isUnscoped hplaced ?_)
      rw [heq]
      trivial
    refine ⟨hscoped b hreach hb, fun hbinds => ?_⟩
    rcases hreach.bare_or_isScoped Scope.bare_empty hb with hbare | ⟨c, hc, hbodies, hexpr⟩
    · exact hstart (hreach.isUnscoped hplaced (outcome_of_binds hbinds hbare))
    · exact hscoped c hc hbodies hexpr
  · intro hreached
    refine ⟨fun cause heq => ?_, fun heq => ?_⟩
    · obtain ⟨b, hreach, hd, hscoped⟩ :=
        exists_raises_of_evalCall heq not_false (fun _ => nofun) (fun _ => nofun)
      have hb := (hreach.isPlaced hplaced).depth.symm.trans hd
      exact (hreached b hreach hb).1 hscoped
    · obtain ⟨b, hreach, hd, hraises⟩ :=
        exists_raises_of_evalCall heq not_false (fun _ => nofun) (fun _ => nofun)
      have hb := (hreach.isPlaced hplaced).depth.symm.trans hd
      rcases hraises with hbinds | ⟨name, owner, value, hexpr⟩
      · exact (hreached b hreach hb).2 hbinds
      · -- Outside of all bodies there is no function that the variable could belong to.
        obtain ⟨known, _, hfits⟩ := exists_fits_of_check hnumbered h
        have hfit := hfits b hreach
        rw [hexpr] at hfit
        exact nomatch (Site.owner_of_bodies_eq_zero b.sites hb).symm.trans hfit.1

/-- `evalF` returns its argument. -/
def identity : Program :=
  Prod.snd <| Build.run do
    let function ← Build.declare "evalF" [("x", .int)] .int
    Build.define function (.block [.returnFrom function (.read "x" function)])

/-- A call of `evalF` with a block for its operand is eligible, and its evaluation fails to close
the frame of the block. -/
theorem evalCall_identity_block :
    Eligibility.check identity "eval" ⟨⟨0⟩, none, [.block [.int 1]]⟩ = .ok () ∧
      evalCall ⟨identity, "eval", {}⟩ ⟨⟨0⟩, none, [.block [.int 1]]⟩ =
        .error (.defect (.pop .noActivation)) := by
  decide +kernel

/-- With a constant for its operand the call has a value, so nothing outside of all bodies is a
block, branch or loop or binds a variable. -/
theorem evalCall_scoped_iff_identity :
    identity.IsNumbered ∧ Eligibility.check identity "eval" ⟨⟨0⟩, none, [.int 1]⟩ = .ok () ∧
      ∀ b, Reaches ⟨identity, "eval", {}⟩ (start ⟨identity, "eval", {}⟩ ⟨⟨0⟩, none, [.int 1]⟩) b →
        Site.bodies b.sites = 0 → ¬ b.expr.IsScoped ∧ ¬ Binds ⟨identity, "eval", {}⟩ b := by
  have hnumbered : identity.IsNumbered := by decide +kernel
  have hcheck : Eligibility.check identity "eval" ⟨⟨0⟩, none, [.int 1]⟩ = .ok () := by
    decide +kernel
  have hvalue : evalCall ⟨identity, "eval", {}⟩ ⟨⟨0⟩, none, [.int 1]⟩ = .ok (.int 1) := by
    decide +kernel
  refine ⟨hnumbered, hcheck, ?_⟩
  apply (evalCall_scoped_iff ⟨identity, "eval", {}⟩ hnumbered hcheck).mp
  rw [hvalue]
  exact ⟨fun _ => nofun, nofun⟩

end Setting

end CallFolding
