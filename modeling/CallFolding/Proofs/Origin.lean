import CallFolding.Proofs.Moment

/-!
Where exits come from and where they go.

One step at a time: if an evaluation exits, then a part of it exited in the same way and the
evaluation did not take the exit, or the evaluation raises the exit itself
(`explains_of_error`). The other way round, an evaluation exits like its part unless it takes the
exit (`Next.outcome_eq`). Where no activation is open there is one exception: blocks, branches and
loops fail there in a way of their own.

Over the whole course: every exit has an origin, an evaluation that raises it and from which nothing
took it on its way (`exists_origin`).
-/

set_option autoImplicit false

namespace CallFolding

namespace Setting

variable {setting : Setting} {x : Exit}

/-! ## Calls -/

section

variable {function : Function} {values : List Literal} {run : Run Literal} {m m' : Machine}

/-- A return that is meant for the function becomes the value of the call. -/
theorem endOfCall_of_catches (h : (Site.body function.id).Catches x) (m : Machine) :
    ∃ value, Run.endOfCall function (.error x m) = .ok value m := by
  cases x with
  | returned target value => exact ⟨value, if_pos h⟩
  | broke target => exact h.elim
  | continued target => exact h.elim
  | failed cause => exact h.elim

theorem endOfCall_of_not_catches (h : ¬ (Site.body function.id).Catches x) (m : Machine) :
    Run.endOfCall function (.error x m) = .error x m := by
  cases x with
  | returned target value => exact if_neg h
  | broke target => rfl
  | continued target => rfl
  | failed cause => rfl

/-- What a call makes of its body: the operands are bound, the body runs, the old scope is put back.
-/
theorem activate_eq (hrun : run.Steady) (m : Machine) :
    activate function values run m = Run.endOfCall function (Outcome.withScope
      ((do bindOperands (function.operandNames.zip values); run) m.activated) m.scope) := by
  rw [activate, Run.catchReturn_eq,
    ((steady_bindOperands _).bind fun _ => hrun).inActivation_eq]

/-- An exit of the body that the call does not take is the exit of the call. -/
theorem activate_of_error (hrun : run.Steady) {m₁ : Machine}
    (hbind : bindOperands (function.operandNames.zip values) m.activated = .ok () m₁)
    (h : run m₁ = .error x m') (hcatch : ¬ (Site.body function.id).Catches x) :
    ∃ m'', activate function values run m = .error x m'' := by
  rw [activate_eq hrun, Run.bind_of_ok hbind, h]
  exact ⟨_, endOfCall_of_not_catches hcatch _⟩

/-- Introducing a variable fails as a failure to bind. -/
theorem define_eq_error {name : String} {value : Literal}
    (h : Run.define name value m = .error x m') : ∃ cause, x = .failed (.defect (.bind cause)) := by
  rw [Run.define_eq] at h
  split at h <;> cases h
  exact ⟨_, rfl⟩

theorem assign_eq_error {name : String} {value : Literal}
    (h : Run.assign name value m = .error x m') : ∃ cause, x = .failed (.defect (.bind cause)) := by
  rw [Run.assign_eq] at h
  split at h <;> cases h
  exact ⟨_, rfl⟩

/-- Inside an activation there is always a frame to bind in. -/
theorem bindOperands_eq_error {operands : List (String × Literal)} (hm : m.scope.Anchored)
    (h : bindOperands operands m = .error x m') : x.IsIncidental := by
  induction operands generalizing m with
  | nil => cases h
  | cons operand rest ih =>
    rcases Run.bind_eq_error.mp h with h | ⟨_, m₁, hdefine, h⟩
    -- A steady run does not fail for want of a frame, which leaves the reasons that are incidental.
    · have hkept := (Run.Steady.define operand.1 operand.2 m).inScope hm
      rw [h] at hkept
      obtain ⟨cause, rfl⟩ := define_eq_error h
      cases cause with
      | noScope => exact absurd trivial hkept
      | _ => trivial
    · exact ih ((Run.Steady.define _ _).anchored_of_ok hdefine hm) h

/-- The other way round: a call exits because its body does, or for a reason of its own. -/
theorem activate_eq_error (hrun : run.Steady)
    (h : activate function values run m = .error x m') :
    (∃ m₁ m₂, bindOperands (function.operandNames.zip values) m.activated = .ok () m₁ ∧
      run m₁ = .error x m₂ ∧ ¬ (Site.body function.id).Catches x) ∨ x.IsIncidental := by
  rw [activate_eq hrun] at h
  cases hbody : (do bindOperands (function.operandNames.zip values); run : Run Literal)
      m.activated with
  | ok value m₁ =>
    -- A body that comes to its end can only miss a return.
    rw [hbody, Outcome.withScope_ok] at h
    simp only [Run.endOfCall] at h
    split at h <;> cases h
    exact .inr trivial
  | error exit m₁ =>
    rw [hbody, Outcome.withScope_error] at h
    by_cases hcatch : (Site.body function.id).Catches exit
    · obtain ⟨value, heq⟩ := endOfCall_of_catches hcatch { m₁ with scope := m.scope }
      rw [heq] at h
      cases h
    · rw [endOfCall_of_not_catches hcatch] at h
      cases h
      rcases Run.bind_eq_error.mp hbody with hbind | ⟨_, m₂, hbind, hexit⟩
      · exact .inr (bindOperands_eq_error (Scope.anchored_pushActivation _) hbind)
      · exact .inl ⟨m₂, m₁, hbind, hexit, hcatch⟩

/-- Operations fail for reasons of their own. -/
theorem applyPrimitive_eq_error (h : applyPrimitive function values m = .error x m') :
    x.IsIncidental := by
  unfold applyPrimitive at h
  cases hdispatch : dispatch function.name (operands function values) with
  | ok value =>
    rw [hdispatch] at h
    cases h
  | error error =>
    rw [hdispatch] at h
    cases h
    cases error <;> trivial

end

section

variable {function : Function} {run : Expr → Run Literal} {m m' : Machine} {e : Expr}
  {es : List Expr}

/-- The exit of the first operand is that of the operation. -/
theorem callPrimitive_of_first (h : run e m = .error x m') :
    callPrimitive function ((e :: es).map run) m = .error x m' :=
  Run.bind_of_error h

/-- So is the exit of another, if the first left the operation open. -/
theorem callPrimitive_of_other {e' : Expr} {value : Literal} {m₁ m₂ : Machine}
    (hfirst : run e m = .ok value m₁)
    (hopen : ¬ (decisive? function).any (value.boolean? == some ·))
    (hturn : Run.InTurn run es m₁ e' m₂) (h : run e' m₂ = .error x m') :
    callPrimitive function ((e :: es).map run) m = .error x m' := by
  rw [List.map_cons, callPrimitive, Run.bind_of_ok hfirst, if_neg hopen]
  exact Run.bind_of_error (Run.values_eq_error.mpr ⟨e', m₂, hturn, h⟩)

/-- The other way round: the exit is that of an operand, or the operation failed. -/
theorem callPrimitive_eq_error (h : callPrimitive function ((e :: es).map run) m = .error x m') :
    run e m = .error x m' ∨
      (∃ value m₁ e' m₂, run e m = .ok value m₁ ∧
        ¬ (decisive? function).any (value.boolean? == some ·) ∧
        Run.InTurn run es m₁ e' m₂ ∧ run e' m₂ = .error x m') ∨ x.IsIncidental := by
  rcases Run.bind_eq_error.mp h with h | ⟨value, m₁, hfirst, h⟩
  · exact .inl h
  · right
    split at h
    · cases h
    · rename_i hopen
      rcases Run.bind_eq_error.mp h with h | ⟨_, _, _, h⟩
      · obtain ⟨e', m₂, hturn, h⟩ := Run.values_eq_error.mp h
        exact .inl ⟨value, m₁, e', m₂, hfirst, hopen, hturn, h⟩
      · exact .inr (applyPrimitive_eq_error h)

end

/-! ## Frames and loops -/

/-- A round of a loop that asks for more has counted a step. -/
theorem charging_round (room : Nat) (kind : LoopKind) (id : LoopId) (test : Expr)
    (es : List Expr) : Run.Charging setting.limits (Run.round setting.limits kind id
      (setting.evalAt room test) (es.map (setting.evalAt room))) := by
  have htest := setting.steady_evalAt room test
  have hes := Run.Steady.inOrder (setting.steady_evalAt room) es .unit
  cases kind with
  | testFirst => exact Run.charging_firstPass id htest hes
  | testLast => exact Run.charging_lastPass id htest hes

/-- Blocks, branches and loops run in a frame of their own. -/
theorem exists_inFrame (setting : Setting) {e : Expr} (h : e.IsScoped) (room : Nat) :
    ∃ r : Run Literal, r.Steady ∧ setting.evalAt room e = r.inFrame := by
  have hrun := setting.steady_evalAt room
  cases e with
  | block es => exact ⟨_, .inOrder hrun es _, setting.evalAt_block room es⟩
  | branch arms => exact ⟨_, .firstTrue hrun arms, setting.evalAt_branch room arms⟩
  | loop kind id label test body =>
    exact ⟨_, (setting.steady_round room kind id test _).loop setting.limits,
      setting.evalAt_loop room kind id label test body⟩
  | _ => exact h.elim

/-- Where no activation is open, their frame cannot be closed. -/
theorem outcome_of_isScoped (setting : Setting) (a : Moment) (h : a.expr.IsScoped)
    (hd : a.machine.scope.depth = 0) :
    ∃ m, setting.outcome a = .error (.failed (.defect (.pop .noActivation))) m := by
  obtain ⟨r, hr, heq⟩ := setting.exists_inFrame h a.room
  exact ⟨_, (congrFun heq a.machine).trans (hr.inFrame_of_depth_zero hd)⟩

/-- A declaration, an assignment and a return begin with what they contain. -/
theorem exists_bind_of_inner (setting : Setting) {e e' : Expr} (h : e.inner? = some e')
    (room : Nat) :
    ∃ f, setting.evalAt room e = setting.evalAt room e' >>= f := by
  rw [evalAt_eq]
  cases e with
  | declare name type init =>
    cases h
    exact ⟨_, by rw [evalExpr]⟩
  | assign name owner value =>
    cases h
    exact ⟨_, by rw [evalExpr]⟩
  | returnFrom target value =>
    cases h
    exact ⟨_, by rw [evalExpr]⟩
  | _ => cases h

/-! ## One step -/

/-- The step leads into nothing that takes the exit. -/
def Uncaught (x : Exit) (a b : Moment) : Prop :=
  ∀ site, b.sites = site :: a.sites → ¬ site.Catches x

/-- **An evaluation exits like its part**, unless it takes the exit, or cannot close its frame. -/
theorem Next.outcome_eq {a b : Moment} (h : setting.Next a b) (ha : a.IsPlaced) {m : Machine}
    (hb : setting.outcome b = .error x m) (hcatch : Uncaught x a b) :
    (∃ m', setting.outcome a = .error x m') ∨
      a.machine.scope.depth = 0 ∧ a.expr.IsScoped := by
  have hrun := setting.steady_evalAt
  by_cases hscoped : a.machine.scope.depth = 0 ∧ a.expr.IsScoped
  · exact .inr hscoped
  left
  -- Only what opens a frame needs an activation to close it in.
  have hanchored : a.expr.IsScoped → a.machine.scope.Anchored :=
    fun hs => ha.rooted.anchored fun hd => hscoped ⟨hd, hs⟩
  unfold outcome at hb ⊢
  cases h with
  | inner sites room m₀ hinner =>
    obtain ⟨f, heq⟩ := setting.exists_bind_of_inner hinner room
    refine ⟨m, ?_⟩
    rw [heq]
    exact Run.bind_of_error hb
  | operand sites henters hturn =>
    refine ⟨m, ?_⟩
    rw [evalAt_of_enters setting henters]
    exact Run.bind_of_error (Run.values_eq_error.mpr ⟨_, _, hturn, hb⟩)
  | body sites henters hvalues hbind =>
    rw [evalAt_of_enters setting henters, Run.bind_of_ok hvalues]
    exact activate_of_error (hrun _ _) hbind hb (hcatch _ rfl)
  | firstOperand sites room m₀ happlies hoperands =>
    refine ⟨m, ?_⟩
    rw [evalAt_of_applies setting happlies, hoperands]
    exact callPrimitive_of_first hb
  | otherOperand sites happlies hoperands hfirst hopen hturn =>
    refine ⟨m, ?_⟩
    rw [evalAt_of_applies setting happlies, hoperands]
    exact callPrimitive_of_other hfirst hopen hturn hb
  | statement sites hturn =>
    rw [evalAt_block]
    exact ((Run.Steady.inOrder (hrun _) _ _).inFrame_eq_error (hanchored trivial)).mpr
      ⟨m, Run.inOrder_eq_error.mpr ⟨_, _, hturn, hb⟩⟩
  | arm sites hturn =>
    rw [evalAt_branch]
    exact ((Run.Steady.firstTrue (hrun _) _).inFrame_eq_error (hanchored trivial)).mpr
      ⟨m, Run.firstTrue_of_inArms hturn hb⟩
  | round sites label hrounds hturn =>
    have hsteady := setting.steady_round
    have hframed := (hanchored trivial).pushFrame
    -- The rounds before this one have left the activation as it was.
    have hm₁ := ((hrounds.keeps (hsteady _ _ _ _ _)).continues hframed).anchored hframed
    obtain ⟨m', hround⟩ := Run.round_of_inRound (hrun _) hm₁ hturn hb (hcatch _ rfl)
    rw [evalAt_loop]
    exact (((hsteady _ _ _ _ _).loop setting.limits).inFrame_eq_error (hanchored trivial)).mpr
      ⟨m', (charging_round _ _ _ _ _).loop_eq_error.mpr ⟨_, hrounds, hround⟩⟩

/-! ## What an evaluation raises itself -/

/-- What is known of an evaluation that raises this exit itself, apart from incidental failures. -/
def Raises (setting : Setting) (a : Moment) : Exit → Prop
  | .returned target _ => ∃ value, a.expr = .returnFrom target value
  | .broke target => a.expr = .breakLoop target
  | .continued target => a.expr = .continueLoop target
  | .failed (.defect (.missingInitializer _)) => ∃ name type, a.expr = .declare name type none
  | .failed (.defect (.pop _)) => a.machine.scope.depth = 0 ∧ a.expr.IsScoped
  | .failed (.defect (.bind .noScope)) => a.machine.scope.depth = 0 ∧
    ((∃ name type init value m, a.expr = .declare name type (some init) ∧
      setting.evalAt a.room init a.machine = .ok value m) ∨
        ∃ name owner value, a.expr = .assign name owner value)
  | .failed (.defect cause) =>
    cause.IsRefusal ∧ ∃ call, a.expr = call.expr ∧ ¬ setting.Supports call
  | _ => False

/-- The exit comes from a part of the evaluation, is incidental, or is raised by the evaluation
itself. -/
def Explains (setting : Setting) (a : Moment) (x : Exit) : Prop :=
  (∃ b m, setting.Next a b ∧ setting.outcome b = .error x m ∧ Uncaught x a b) ∨
    x.IsIncidental ∨ setting.Raises a x

/-- A step that stays at its site passes nothing that could take an exit. -/
theorem uncaught_of_sites_eq {a b : Moment} (h : b.sites = a.sites) : Uncaught x a b := by
  intro site hsite
  rw [h] at hsite
  exact absurd hsite.symm (List.cons_ne_self site a.sites)

/-- An exit that is passed on within one site is explained by the part it comes from. -/
theorem Explains.of_next {a b : Moment} {m : Machine} (h : setting.Next a b)
    (hb : setting.outcome b = .error x m) (hsites : b.sites = a.sites) : setting.Explains a x :=
  .inl ⟨b, m, h, hb, uncaught_of_sites_eq hsites⟩

section

variable {sites : List Site} {room : Nat} {m m' : Machine}

/-- Exits of a call: from an operand or the body, for a reason of its own, or because it is refused.
-/
theorem explains_call (call : Call) (h : setting.evalAt room call.expr m = .error x m') :
    setting.Explains ⟨sites, room, call.expr, m⟩ x := by
  have hrun := setting.steady_evalAt
  by_cases hsupports : setting.Supports call
  · rcases hsupports with ⟨function, body, henters⟩ | ⟨function, happlies⟩
    · cases room with
      | zero =>
        -- Without room the call runs into a limit before its operands are evaluated.
        rw [evalAt_zero_of_enters setting henters] at h
        cases h
        exact .inr (.inl trivial)
      | succ room =>
        rw [evalAt_of_enters setting henters] at h
        rcases Run.bind_eq_error.mp h with h | ⟨values, m₁, hvalues, h⟩
        · obtain ⟨e, m₁, hturn, he⟩ := Run.values_eq_error.mp h
          exact .of_next (.operand sites henters hturn) he rfl
        · rcases activate_eq_error (hrun room body) h with ⟨m₂, m₃, hbind, hbody, hcatch⟩ | h
          · refine .inl ⟨_, m₃, .body sites henters hvalues hbind, hbody, fun site hsite => ?_⟩
            cases hsite
            exact hcatch
          · exact .inr (.inl h)
    · rw [evalAt_of_applies setting happlies] at h
      cases hoperands : call.operands with
      | nil =>
        -- With no operands there is no part, and the operation itself must have failed.
        rw [hoperands] at h
        exact .inr (.inl (applyPrimitive_eq_error h))
      | cons e es =>
        rw [hoperands] at h
        rcases callPrimitive_eq_error h with he | ⟨value, m₁, e', m₂, hfirst, hopen, hturn, he⟩ | h
        · exact .of_next (.firstOperand sites room m happlies hoperands) he rfl
        · exact .of_next (.otherOperand sites happlies hoperands hfirst hopen hturn) he rfl
        · exact .inr (.inl h)
  -- What is not supported is refused without looking at the operands, if not for want of room.
  · rcases evalAt_of_not_supports setting hsupports room with heq | ⟨cause, hcause, heq⟩
    · rw [heq] at h
      cases h
      exact .inr (.inl trivial)
    · rw [heq] at h
      cases h
      cases cause with
      | unknownFunction _ | unsupportedCallee _ | missingBody _ | arityMismatch _ _ _ =>
        exact .inr (.inr ⟨hcause, call, rfl, hsupports⟩)
      | _ => exact hcause.elim

/-- Exits of what runs in a frame of its own. -/
theorem explains_scoped {e : Expr} (hscoped : e.IsScoped) (hm : m.scope.Rooted)
    (h : setting.evalAt room e m = .error x m') : setting.Explains ⟨sites, room, e, m⟩ x := by
  have hrun := setting.steady_evalAt
  by_cases hd : m.scope.depth = 0
  · -- Whatever happened in the frame, what is left is that it cannot be closed.
    obtain ⟨m₁, hout⟩ := setting.outcome_of_isScoped ⟨sites, room, e, m⟩ hscoped hd
    cases hout.symm.trans h
    exact .inr (.inr ⟨hd, hscoped⟩)
  · have ha := hm.anchored hd
    cases e with
    | block es =>
      rw [evalAt_block] at h
      obtain ⟨m₁, h⟩ := ((Run.Steady.inOrder (hrun room) es _).inFrame_eq_error ha).mp ⟨m', h⟩
      obtain ⟨e, m₂, hturn, he⟩ := Run.inOrder_eq_error.mp h
      exact .of_next (.statement sites hturn) he rfl
    | branch arms =>
      rw [evalAt_branch] at h
      obtain ⟨m₁, h⟩ := ((Run.Steady.firstTrue (hrun room) arms).inFrame_eq_error ha).mp ⟨m', h⟩
      rcases Run.firstTrue_eq_error h with ⟨e, m₂, hturn, he⟩ | h
      · exact .of_next (.arm sites hturn) he rfl
      · exact .inr (.inl h)
    | loop kind id label test body =>
      have hsteady := setting.steady_round room kind id test (Expr.statements body)
      rw [evalAt_loop] at h
      obtain ⟨m₁, h⟩ := ((hsteady.loop setting.limits).inFrame_eq_error ha).mp ⟨m', h⟩
      -- The exit is that of one round, and the rounds before it asked for more.
      obtain ⟨m₂, hrounds, h⟩ := (charging_round room kind id test _).loop_eq_error.mp h
      have hm₂ := ((hrounds.keeps hsteady).continues ha.pushFrame).anchored ha.pushFrame
      rcases Run.round_eq_error (hrun room) hm₂ h with ⟨site, e, m₃, m₄, hturn, he, hcatch⟩ | h
      · refine .inl ⟨_, m₄, .round sites label hrounds hturn, he, fun site' hsite => ?_⟩
        cases hsite
        exact hcatch
      · exact .inr (.inl h)
    | _ => exact hscoped.elim

/-- An evaluation that finds nothing to bind in is outside of all activations. -/
theorem depth_eq_zero_of_noScope {e : Expr} (hm : m.scope.Rooted)
    (h : setting.evalAt room e m = .error (.failed (.defect (.bind .noScope))) m') :
    m.scope.depth = 0 := by
  by_contra hd
  have hkept := (setting.steady_evalAt room e m).inScope (hm.anchored hd)
  rw [h] at hkept
  exact hkept trivial

/-- Exits of a declaration with an initial value. -/
theorem explains_declare {name : String} {type : Ty} {init : Expr} (hm : m.scope.Rooted)
    (h : setting.evalAt room (.declare name type (some init)) m = .error x m') :
    setting.Explains ⟨sites, room, .declare name type (some init), m⟩ x := by
  -- What the declaration as a whole ends with tells whether an activation is open.
  have hrun := h
  rw [evalAt_eq, evalExpr, ← evalAt_eq] at h
  rcases Run.bind_eq_error.mp h with h | ⟨value, m₁, hinit, h⟩
  · exact .of_next (.inner sites room m rfl) h rfl
  · rcases Run.bind_eq_error.mp h with h | ⟨_, _, _, h⟩
    · obtain ⟨cause, rfl⟩ := define_eq_error h
      cases cause with
      | noScope =>
        exact .inr (.inr ⟨depth_eq_zero_of_noScope hm hrun,
          .inl ⟨name, type, init, value, m₁, rfl, hinit⟩⟩)
      | _ => exact .inr (.inl trivial)
    · cases h

theorem explains_assign {name : String} {owner : FunctionId} {value : Expr} (hm : m.scope.Rooted)
    (h : setting.evalAt room (.assign name owner value) m = .error x m') :
    setting.Explains ⟨sites, room, .assign name owner value, m⟩ x := by
  have hrun := h
  rw [evalAt_eq, evalExpr, ← evalAt_eq] at h
  rcases Run.bind_eq_error.mp h with h | ⟨result, m₁, hvalue, h⟩
  · exact .of_next (.inner sites room m rfl) h rfl
  · rcases Run.bind_eq_error.mp h with h | ⟨_, _, _, h⟩
    · obtain ⟨cause, rfl⟩ := assign_eq_error h
      cases cause with
      | noScope =>
        exact .inr (.inr ⟨depth_eq_zero_of_noScope hm hrun, .inr ⟨name, owner, value, rfl⟩⟩)
      | _ => exact .inr (.inl trivial)
    · cases h

end

/-- **One step back.** Every exit of an evaluation comes from one of its parts, is incidental, or is
raised by the evaluation itself. -/
theorem explains_of_error {a : Moment} (ha : a.IsPlaced) {m : Machine}
    (h : setting.outcome a = .error x m) : setting.Explains a x := by
  obtain ⟨sites, room, e, m₀⟩ := a
  unfold outcome at h
  -- Leaves raise their exits themselves, and everything else takes them from its parts or adds its
  -- own.
  cases e with
  | const value =>
    rw [evalAt_eq, evalExpr] at h
    cases h
  | read name owner =>
    rw [evalAt_eq, evalExpr] at h
    unfold Run.read at h
    split at h <;> cases h
    exact .inr (.inl trivial)
  | declare name type init =>
    cases init with
    | none =>
      rw [evalAt_eq, evalExpr] at h
      cases h
      exact .inr (.inr ⟨name, type, rfl⟩)
    | some init => exact explains_declare ha.rooted h
  | assign name owner value => exact explains_assign ha.rooted h
  | call id receiver args => exact explains_call ⟨id, receiver, args⟩ h
  | block es => exact explains_scoped trivial ha.rooted h
  | branch arms => exact explains_scoped trivial ha.rooted h
  | loop kind id label test body => exact explains_scoped trivial ha.rooted h
  | returnFrom target value =>
    rw [evalAt_eq, evalExpr, ← evalAt_eq] at h
    rcases Run.bind_eq_error.mp h with h | ⟨result, m₁, _, h⟩
    · exact .of_next (.inner sites room m₀ rfl) h rfl
    · cases h
      exact .inr (.inr ⟨value, rfl⟩)
  | breakLoop target =>
    rw [evalAt_eq, evalExpr] at h
    cases h
    exact .inr (.inr rfl)
  | continueLoop target =>
    rw [evalAt_eq, evalExpr] at h
    cases h
    exact .inr (.inr rfl)

/-! ## The whole course -/

/-- The second evaluation is a part of the first that exits like this, and nothing takes the exit
between the two. -/
structure Carries (setting : Setting) (x : Exit) (a b : Moment) : Prop where
  next : setting.Next a b
  exits : ∃ m, setting.outcome b = .error x m
  uncaught : Uncaught x a b

/-- **Every exit has an origin**, unless it is incidental. The induction is on the room and, for
each room, on the size of the expression. -/
theorem exists_origin {a : Moment} (ha : a.IsPlaced) {m : Machine}
    (h : setting.outcome a = .error x m) (hx : ¬ x.IsIncidental) :
    ∃ b, Relation.ReflTransGen (setting.Carries x) a b ∧ setting.Raises b x := by
  -- The part is smaller, or has less room, so its own exit has an origin.
  rcases explains_of_error ha h with ⟨b, m', hnext, hb, huncaught⟩ | hincidental | hraises
  · obtain ⟨c, hpath, hraises⟩ := exists_origin (hnext.isPlaced ha) hb hx
    exact ⟨c, .head ⟨hnext, ⟨m', hb⟩, huncaught⟩ hpath, hraises⟩
  · exact absurd hincidental hx
  · exact ⟨a, .refl, hraises⟩
termination_by (a.room, sizeOf a.expr)
decreasing_by
  rcases hnext.lt with hlt | ⟨heq, hlt⟩
  · exact .left _ _ hlt
  · rw [heq]
    exact .right _ hlt

/-- What carries an exit is part of the course of the evaluation. -/
theorem reaches_of_carries {a b : Moment} (h : Relation.ReflTransGen (setting.Carries x) a b) :
    setting.Reaches a b := by
  induction h with
  | refl => exact .refl
  | tail _ hcarries ih => exact ih.tail hcarries.next

/-- The whole course stays where its sites say. -/
theorem Reaches.isPlaced {a b : Moment} (h : setting.Reaches a b) (ha : a.IsPlaced) :
    b.IsPlaced := by
  induction h with
  | refl => exact ha
  | tail _ hnext ih => exact hnext.isPlaced ih

/-- Bodies that were entered are not left as long as the course goes on. -/
theorem Reaches.bodies_le {a b : Moment} (h : setting.Reaches a b) :
    Site.bodies a.sites ≤ Site.bodies b.sites := by
  induction h with
  | refl => exact Nat.le_refl _
  | tail _ hnext ih => exact Nat.le_trans ih hnext.bodies_le

/-- A call on its own starts outside of everything. -/
theorem isPlaced_start (setting : Setting) (call : Call) : (setting.start call).IsPlaced :=
  ⟨Scope.rooted_empty, rfl⟩

/-! ## Calls evaluated on their own -/

/-- A call fails exactly like the exit that nothing took. -/
theorem evalCall_eq_error {call : Call} {failure : Failure}
    (h : setting.evalCall call = .error failure) :
    ∃ x m, setting.outcome (setting.start call) = .error x m ∧ escape x = failure := by
  rw [evalCall_eq] at h
  change Outcome.result (setting.outcome (setting.start call)) = _ at h
  cases hx : setting.outcome (setting.start call) with
  | ok value m =>
    rw [hx] at h
    cases h
  | error x m =>
    rw [hx] at h
    cases h
    exact ⟨x, m, rfl, rfl⟩

/-- A defect that a call ends with was raised in its course, unless it is a name for an exit that
nothing took. -/
theorem exists_raises_of_evalCall {call : Call} {cause : Defect}
    (h : setting.evalCall call = .error (.defect cause)) (hcause : ¬ cause.IsIncidental)
    (hreturn : ∀ target, cause ≠ .escapedReturn target)
    (hjump : ∀ target, cause ≠ .escapedJump target) :
    ∃ b, setting.Reaches (setting.start call) b ∧ setting.Raises b (.failed (.defect cause)) := by
  obtain ⟨x, m, hx, hescape⟩ := evalCall_eq_error h
  cases x with
  | failed failure =>
    cases hescape
    obtain ⟨b, hpath, hraises⟩ := exists_origin (isPlaced_start setting call) hx hcause
    exact ⟨b, reaches_of_carries hpath, hraises⟩
  | returned target value =>
    cases hescape
    exact absurd rfl (hreturn target)
  | broke target =>
    cases hescape
    exact absurd rfl (hjump target)
  | continued target =>
    cases hescape
    exact absurd rfl (hjump target)

end Setting

end CallFolding
