import CallFolding.Proofs.Loop

/-!
Two evaluations side by side.

The same code can be evaluated under other limits, from another count of steps, and with other
things below it on the stack. A `Contrast` says how two such evaluations differ, and `Agree` what
they still have in common: they end alike, unless the left one is excused. It is excused when it ran
into a limit that the right one need not respect, or took more steps than are compared.

Where no activation is open the two may differ in one more way. Nothing can be looked up or closed
there, so a left run that has nothing below it fails where the right one finds the variables and
frames of `base`. Such a failure is a stray one, and says nothing about the right side. If nothing
is below the right side either, both fail to close their frames, and only what they did before that
may differ.
-/

set_option autoImplicit false

namespace CallFolding

/-- How two evaluations of the same code differ. -/
structure Contrast where
  left : Setting
  right : Setting
  /-- What the right run has below everything that the left run has. -/
  base : Scope Literal
  /-- Which counts of steps go together. -/
  near : Nat → Nat → Prop
  /-- From which count on a left run is not compared any more. -/
  beyond : Nat → Prop
  /-- Whether the right run may go on where the left one has no more steps. -/
  lenientSteps : Prop
  /-- Whether the right run may go on where the left one has no more room. -/
  lenientDepth : Prop
  near_succ : ∀ {a b : Nat}, near a b → near (a + 1) (b + 1)
  beyond_mono : ∀ {a b : Nat}, a ≤ b → beyond a → beyond b
  fits : ∀ {a b : Nat}, near a b → ¬ beyond (a + 1) → a < left.limits.steps → b < right.limits.steps
  strict : ¬ lenientSteps → ∀ {a b : Nat}, near a b → ¬ beyond (a + 1) →
    left.limits.steps ≤ a → right.limits.steps ≤ b

namespace Contrast

variable (c : Contrast)

/-- Corresponding states: the right one has `base` below, and nothing else is different. -/
structure Near (m m' : Machine) : Prop where
  scope : m'.scope = c.base.above m.scope
  steps : c.near m.steps m'.steps
  rooted : m.scope.Rooted

/-- Corresponding exits: the same, up to the limit that a message quotes. -/
inductive Like : Exit → Exit → Prop
  | same (x : Exit) : Like x x
  | steps (a b : Nat) : Like (.failed (.limit (.steps a))) (.failed (.limit (.steps b)))
  | depth (a b : Nat) : Like (.failed (.limit (.depth a))) (.failed (.limit (.depth b)))

/-- Whether hitting this limit on the left says nothing about the right. -/
def Lenient : LimitExceeded → Prop
  | .steps _ => c.lenientSteps
  | .depth _ => c.lenientDepth

/-- The left run ended in a way that says nothing about the right one. -/
def Excused {α : Type} (x : Outcome α) : Prop :=
  (∃ cause m, x = .error (.failed (.limit cause)) m ∧ c.Lenient cause) ∨ c.beyond x.machine.steps

end Contrast

/-- The run failed because there was no activation whose frame could be closed. -/
def Outcome.IsUnclosable {α : Type} (x : Outcome α) : Prop :=
  ∃ m, x = .error (.failed (.defect (.pop .noActivation))) m ∧ m.scope.depth = 0

namespace Contrast

variable (c : Contrast)

/-- What the ends of two runs have in common that started in corresponding states. -/
inductive Agree {α : Type} : Outcome α → Outcome α → Prop
  | value (a : α) {m m' : Machine} : c.Near m m' → Agree (.ok a m) (.ok a m')
  | exit {x x' : Exit} {m m' : Machine} : Like x x' → c.Near m m' →
      Agree (.error x m) (.error x' m')
  | excused {x : Outcome α} (x' : Outcome α) : c.Excused x → Agree x x'
  | stray {cause : Failure} {m : Machine} {x' : Outcome α} : m.scope.depth = 0 →
    (c.base = .empty → cause = .defect (.pop .noActivation) ∧ x'.IsUnclosable) →
      Agree (.error (.failed cause) m) x'

/-- Two steady runs that end alike wherever they start alike. -/
structure Sim {α : Type} (r r' : Run α) : Prop where
  left : r.Steady
  right : r'.Steady
  agree : ∀ {m m' : Machine}, c.Near m m' → c.Agree (r m) (r' m')

variable {c} {α β : Type}

/-- Corresponding states still correspond with new variables on both sides. -/
theorem Near.with_scope {m m' : Machine} (h : c.Near m m') {s : Scope Literal} (hs : s.Rooted) :
    c.Near { m with scope := s } { m' with scope := c.base.above s } :=
  ⟨rfl, h.steps, hs⟩

theorem Near.framed {m m' : Machine} (h : c.Near m m') (ha : m.scope.Anchored) :
    c.Near m.framed m'.framed where
  scope := by
    show m'.scope.pushFrame = c.base.above m.scope.pushFrame
    rw [h.scope, Scope.pushFrame_above]
  steps := h.steps
  rooted := ha.pushFrame.rooted

theorem Near.activated {m m' : Machine} (h : c.Near m m') : c.Near m.activated m'.activated where
  scope := by
    show m'.scope.pushActivation = c.base.above m.scope.pushActivation
    rw [h.scope, Scope.pushActivation_above]
  steps := h.steps
  rooted := (Scope.anchored_pushActivation m.scope).rooted

/-- With nothing below on the right, corresponding states have the same variables. -/
theorem Near.scope_eq {m m' : Machine} (h : c.Near m m') (hb : c.base = .empty) :
    m'.scope = m.scope := by
  rw [h.scope, hb, Scope.above_empty_left]

/-- Excuses do not depend on the result that is asked for. -/
theorem Excused.of_error {exit : Exit} {m : Machine} (h : c.Excused (.error exit m : Outcome α)) :
    c.Excused (.error exit m : Outcome β) := by
  rcases h with ⟨cause, m₁, heq, hl⟩ | h
  · cases heq
    exact .inl ⟨cause, m, rfl, hl⟩
  · exact .inr h

/-- An excused run stays excused whatever is done after it. -/
theorem Excused.bind {r : Run α} {f : α → Run β} {m : Machine} (h : c.Excused (r m))
    (hf : ∀ a, (f a).Steady) : c.Excused ((r >>= f) m) := by
  cases hr : r m with
  | ok a m₁ =>
    rw [Run.bind_of_ok hr]
    rw [hr] at h
    rcases h with ⟨_, _, heq, _⟩ | h
    · cases heq
    · exact .inr (c.beyond_mono (hf a m₁).steps h)
  | error exit m₁ =>
    rw [Run.bind_of_error hr]
    rw [hr] at h
    exact h.of_error

/-- The variables do not matter for an excuse. -/
theorem Excused.withScope {x : Outcome α} (h : c.Excused x) (scope : Scope Literal) :
    c.Excused (x.withScope scope) := by
  rcases h with ⟨cause, m, rfl, hl⟩ | h
  · exact .inl ⟨cause, { m with scope }, rfl, hl⟩
  · right
    rw [Outcome.machine_withScope]
    exact h

namespace Sim

/-! ## Values, exits and sequences -/

theorem value (a : α) : c.Sim (pure a : Run α) (pure a) :=
  ⟨fun m => .value a m, fun m => .value a m, fun h => .value a h⟩

theorem exit (x : Exit) (hx : ¬ x.IsUnscoped) : c.Sim (throw x : Run α) (throw x) :=
  ⟨fun m => .exit hx m, fun m => .exit hx m, fun h => .exit (.same x) h⟩

/-- One run after the other. What is excused or stray on the left ends both runs. -/
theorem bind {r r' : Run α} {f f' : α → Run β} (h : c.Sim r r') (hf : ∀ a, c.Sim (f a) (f' a)) :
    c.Sim (r >>= f) (r' >>= f') where
  left := h.left.bind fun a => (hf a).left
  right := h.right.bind fun a => (hf a).right
  agree {m m'} hnear := by
    -- Only where both first runs have values does it come to the second ones.
    have hagree := h.agree hnear
    generalize hx : r m = x at hagree
    generalize hx' : r' m' = x' at hagree
    cases hagree with
    | value a hnear₁ =>
      rw [Run.bind_of_ok hx, Run.bind_of_ok hx']
      exact (hf a).agree hnear₁
    | exit hlike hnear₁ =>
      rw [Run.bind_of_error hx, Run.bind_of_error hx']
      exact .exit hlike hnear₁
    | excused _ hexc =>
      rw [← hx] at hexc
      exact .excused _ (hexc.bind fun a => (hf a).left)
    | stray hd hstray =>
      rw [Run.bind_of_error hx]
      refine .stray hd fun hb => ?_
      obtain ⟨hcause, m₁, rfl, hd'⟩ := hstray hb
      exact ⟨hcause, m₁, Run.bind_of_error hx', hd'⟩

/-! ## Variables and steps

With nothing below on the right, both sides see the same variables. Otherwise the left side has an
activation, where the two scopes do the same, or it has none, and then its failure is a stray
one. -/

/-- An operation on variables that does the same to both scopes. -/
private theorem agree_update (op : Scope Literal → Except BindError (Scope Literal))
    {m m' : Machine} (hnear : c.Near m m')
    (hop : op (c.base.above m.scope) = (op m.scope).map c.base.above)
    (hrooted : ∀ s, op m.scope = .ok s → s.Rooted) :
    c.Agree
      (match op m.scope with
        | .ok scope => .ok () { m with scope }
        | .error cause => .error (.failed (.defect (.bind cause))) m)
      (match op m'.scope with
        | .ok scope => .ok () { m' with scope }
        | .error cause => .error (.failed (.defect (.bind cause))) m') := by
  rw [hnear.scope, hop]
  cases h : op m.scope with
  | ok s => exact .value () (hnear.with_scope (hrooted s h))
  | error cause => exact .exit (.same _) hnear

/-- With nothing below, every operation is the same on both sides. -/
private theorem map_above_of_empty (hb : c.base = .empty)
    (op : Scope Literal → Except BindError (Scope Literal)) (s : Scope Literal) :
    op (c.base.above s) = (op s).map c.base.above := by
  rw [hb, Scope.above_empty_left]
  cases op s with
  | ok t => rw [Except.map, Scope.above_empty_left]
  | error cause => rfl

/-- New names. Only the innermost frame is looked at. -/
theorem define (name : String) (value : Literal) :
    c.Sim (Run.define name value) (Run.define name value) where
  left := .define name value
  right := .define name value
  agree {m m'} hnear := by
    have hrooted : ∀ s, m.scope.define name value = .ok s → s.Rooted :=
      fun s hs => (Scope.Continues.of_define hs).rooted hnear.rooted
    rw [Run.define_eq, Run.define_eq]
    by_cases hf : m.scope.frames = #[]
    · by_cases hb : c.base = .empty
      · exact agree_update (·.define name value) hnear
          (map_above_of_empty hb (·.define name value) _) hrooted
      · have hleft : m.scope.define name value = .error .noScope := by simp [Scope.define, hf]
        simp only [hleft]
        exact .stray (hnear.rooted.depth_eq_zero hf) fun h => absurd h hb
    · exact agree_update (·.define name value) hnear (Scope.define_above hf name value) hrooted

/-- Assignments. Only the current activation is looked at. -/
theorem assign (name : String) (value : Literal) :
    c.Sim (Run.assign name value) (Run.assign name value) where
  left := .assign name value
  right := .assign name value
  agree {m m'} hnear := by
    have hrooted : ∀ s, m.scope.assign name value = .ok s → s.Rooted :=
      fun s hs => (Scope.Continues.of_assign hs).rooted hnear.rooted
    rw [Run.assign_eq, Run.assign_eq]
    by_cases hd : m.scope.depth = 0
    · by_cases hb : c.base = .empty
      · exact agree_update (·.assign name value) hnear
          (map_above_of_empty hb (·.assign name value) _) hrooted
      · have hleft : m.scope.assign name value = .error .noScope := by
          simp only [Scope.assign, Scope.activationStart?_of_depth_zero hd]
        simp only [hleft]
        exact .stray hd fun h => absurd h hb
    · exact agree_update (·.assign name value) hnear
        ((hnear.rooted.anchored hd).assign_above name value) hrooted

theorem read (name : String) : c.Sim (Run.read name) (Run.read name) where
  left := .read name
  right := .read name
  agree {m m'} hnear := by
    unfold Run.read
    by_cases hsame : m'.scope.lookup name = m.scope.lookup name
    · rw [hsame]
      cases m.scope.lookup name with
      | some value => exact .value value hnear
      | none => exact .exit (.same _) hnear
    · -- The right side sees a variable of `base`, so the left side has no activation.
      have hb : c.base ≠ .empty := fun hb => hsame (by rw [hnear.scope_eq hb])
      have hd : m.scope.depth = 0 := by
        by_contra hd
        exact hsame (by rw [hnear.scope, (hnear.rooted.anchored hd).lookup_above])
      have hleft : m.scope.lookup name = none := by
        simp only [Scope.lookup, Scope.position?, Scope.activationStart?_of_depth_zero hd,
          Option.bind_none]
      rw [hleft]
      exact .stray hd fun h => absurd h hb

/-- Counting a step. The two counts go together, so the limits are compared as well. -/
theorem tally : c.Sim (Run.tally c.left.limits) (Run.tally c.right.limits) where
  left := .tally c.left.limits
  right := .tally c.right.limits
  agree {m m'} hnear := by
    have hsucc : c.Near { m with steps := m.steps + 1 } { m' with steps := m'.steps + 1 } :=
      ⟨hnear.scope, c.near_succ hnear.steps, hnear.rooted⟩
    unfold Run.tally Limits.tally
    -- The step is counted before it is compared with the limit, so a refusal counts it too.
    by_cases hbeyond : c.beyond (m.steps + 1)
    · refine .excused _ (.inr ?_)
      split <;> rename_i h <;> split at h <;> cases h <;> exact hbeyond
    · by_cases hleft : c.left.limits.steps < m.steps + 1
      · rw [if_pos hleft]
        by_cases hl : c.lenientSteps
        · exact .excused _ (.inl ⟨_, _, rfl, hl⟩)
        · have hright := c.strict hl hnear.steps hbeyond (by omega)
          rw [if_pos (by omega)]
          exact .exit (.steps _ _) hsucc
      · have hright := c.fits hnear.steps hbeyond (by omega)
        rw [if_neg hleft, if_neg (by omega)]
        exact .value () hsucc

/-! ## Frames and activations -/

theorem inFrame {r r' : Run α} (h : c.Sim r r') : c.Sim r.inFrame r'.inFrame where
  left := h.left.inFrame
  right := h.right.inFrame
  agree {m m'} hnear := by
    by_cases hd : m.scope.depth = 0
    · -- The left side cannot close its frame, and with nothing below the right one cannot either.
      rw [h.left.inFrame_of_depth_zero hd]
      refine .stray ((h.left m.framed).depth_eq.trans hd) fun hb => ⟨rfl, ?_⟩
      have hd' : m'.scope.depth = 0 := by rw [hnear.scope_eq hb]; exact hd
      exact ⟨_, h.right.inFrame_of_depth_zero hd', (h.right m'.framed).depth_eq.trans hd'⟩
    · have ha := hnear.rooted.anchored hd
      obtain ⟨t, hpop, hc, hleft⟩ := h.left.inFrame_of_anchored ha
      have hkept := h.left m.framed
      have hanchored := (hkept.continues ha.pushFrame).anchored ha.pushFrame
      have hrooted : t.Rooted := (hc.anchored ha).rooted
      have hagree := h.agree (hnear.framed ha)
      rw [hleft]
      generalize r m.framed = x at hagree hpop hkept hanchored
      generalize hx' : r' m'.framed = x' at hagree
      -- The right side closes its frame as the left one does.
      have hright : c.Near (Outcome.machine x) (Outcome.machine x') →
          r'.inFrame m' = Outcome.withScope x' (c.base.above t) := by
        intro hnear₁
        rw [← hx']
        refine Run.inFrame_of_popFrame ?_
        rw [hx', hnear₁.scope, hanchored.popFrame_above, hpop]
        rfl
      cases hagree with
      | value a hnear₁ =>
        rw [hright hnear₁]
        exact .value a (hnear₁.with_scope hrooted)
      | exit hlike hnear₁ =>
        rw [hright hnear₁]
        exact .exit hlike (hnear₁.with_scope hrooted)
      | excused _ hexc => exact .excused _ (hexc.withScope t)
      | stray hd₁ _ => exact absurd (hkept.depth_eq.symm.trans hd₁) hd

/-- The callee starts from corresponding states, and leaves both callers as they were. -/
theorem inActivation {r r' : Run α} (h : c.Sim r r') : c.Sim r.inActivation r'.inActivation where
  left := h.left.inActivation
  right := h.right.inActivation
  agree {m m'} hnear := by
    have hkept := h.left m.activated
    have hagree := h.agree hnear.activated
    have hclosed : ∀ {m₁ m₁' : Machine}, c.Near m₁ m₁' →
        c.Near { m₁ with scope := m.scope } { m₁' with scope := m'.scope } :=
      fun hnear₁ => ⟨hnear.scope, hnear₁.steps, hnear.rooted⟩
    rw [h.left.inActivation_eq, h.right.inActivation_eq]
    generalize r m.activated = x at hagree hkept
    generalize r' m'.activated = x' at hagree
    cases hagree with
    | value a hnear₁ => exact .value a (hclosed hnear₁)
    | exit hlike hnear₁ => exact .exit hlike (hclosed hnear₁)
    | excused _ hexc => exact .excused _ (hexc.withScope m.scope)
    | stray hd₁ _ =>
      -- Inside an activation no failure is stray.
      have hdepth := hkept.depth_eq
      rw [Outcome.machine_error, hd₁, Scope.depth_pushActivation] at hdepth
      omega

/-! ## Exits that are taken -/

/-- Taking some exits as values, in the same state and without touching failures. -/
private theorem agree_handle {f : Outcome α → Outcome β} (hm : ∀ x, (f x).machine = x.machine)
    (hfail : ∀ cause m, f (.error (.failed cause) m) = .error (.failed cause) m)
    (hnear : ∀ {m m' : Machine}, c.Near m m' → (∀ a, c.Agree (f (.ok a m)) (f (.ok a m'))) ∧
      ∀ x, c.Agree (f (.error x m)) (f (.error x m')))
    {x x' : Outcome α} (h : c.Agree x x') : c.Agree (f x) (f x') := by
  cases h with
  | value a h => exact (hnear h).1 a
  | exit hlike h =>
    cases hlike with
    | same => exact (hnear h).2 _
    | steps a b =>
      rw [hfail, hfail]
      exact .exit (.steps a b) h
    | depth a b =>
      rw [hfail, hfail]
      exact .exit (.depth a b) h
  -- What excuses a run is a failure or its count of steps, and both are still there.
  | excused _ hexc =>
    refine .excused _ ?_
    rcases hexc with ⟨cause, m, rfl, hl⟩ | hbeyond
    · exact .inl ⟨cause, m, hfail _ _, hl⟩
    · exact .inr (by rw [hm]; exact hbeyond)
  | stray hd hstray =>
    rw [hfail]
    refine .stray hd fun hb => ?_
    obtain ⟨hcause, m, rfl, hd'⟩ := hstray hb
    exact ⟨hcause, m, hfail _ _, hd'⟩

/-- Jumps that end a pass are the same on both sides. -/
theorem pass (id : LoopId) {runs runs' : List (Run Literal)}
    (h : c.Sim (Run.inOrder .unit runs) (Run.inOrder .unit runs')) :
    c.Sim (Run.pass id runs) (Run.pass id runs') where
  left := .pass id h.left
  right := .pass id h.right
  agree hnear := by
    rw [Run.pass_eq, Run.pass_eq]
    refine agree_handle (Run.machine_endOfPass id) (fun _ _ => rfl) (fun hm => ?_) (h.agree hnear)
    refine ⟨fun a => .value true hm, fun exit => ?_⟩
    -- A jump to this loop ends the pass on both sides, and every other exit goes through it.
    cases exit with
    | broke target =>
      dsimp only [Run.endOfPass]
      split
      · exact .value false hm
      · exact .exit (.same _) hm
    | continued target =>
      dsimp only [Run.endOfPass]
      split
      · exact .value true hm
      · exact .exit (.same _) hm
    | _ => exact .exit (.same _) hm

theorem catchReturn (function : Function) {r r' : Run Literal} (h : c.Sim r r') :
    c.Sim (Setting.catchReturn function r) (Setting.catchReturn function r') where
  left := h.left.catchReturn function
  right := h.right.catchReturn function
  agree hnear := by
    rw [Run.catchReturn_eq, Run.catchReturn_eq]
    refine agree_handle (Run.machine_endOfCall function) (fun _ _ => rfl) (fun hm => ⟨?_, ?_⟩)
      (h.agree hnear)
    · intro value
      dsimp only [Run.endOfCall]
      split
      · exact .value value hm
      · exact .exit (.same _) hm
    · intro exit
      cases exit with
      | returned target value =>
        dsimp only [Run.endOfCall]
        split
        · exact .value value hm
        · exact .exit (.same _) hm
      | _ => exact .exit (.same _) hm

/-! ## Loops -/

theorem condition {r r' : Run Literal} (h : c.Sim r r') : c.Sim r.condition r'.condition := by
  refine h.bind fun value => ?_
  unfold Run.truth
  cases value.boolean? with
  | some b => exact .value b
  | none => exact .exit _ not_false

/-- The loops keep together round for round. The induction is on the rounds that the left one could
still make. -/
theorem loop {r r' : Run Bool} (h : c.Sim r r') (hr : Run.Charging c.left.limits r)
    (hr' : Run.Charging c.right.limits r') :
    c.Sim (Run.loop c.left.limits r) (Run.loop c.right.limits r') where
  left := h.left.loop c.left.limits
  right := h.right.loop c.right.limits
  agree {m m'} hnear := by
    induction hn : c.left.limits.passes m.steps using Nat.strongRecOn generalizing m m' with
    | ind n ih =>
      have hagree := h.agree hnear
      generalize hx : r m = x at hagree
      generalize hx' : r' m' = x' at hagree
      cases hagree with
      | value again hnear₁ =>
        cases again with
        | true =>
          rw [hr.loop_of_true hx, hr'.loop_of_true hx']
          exact ih _ (hn ▸ hr.passes_lt hx) hnear₁ rfl
        | false =>
          rw [Run.loop_of_false hx, Run.loop_of_false hx']
          exact .value Literal.unit hnear₁
      | exit hlike hnear₁ =>
        rw [Run.loop_of_error hx, Run.loop_of_error hx']
        exact .exit hlike hnear₁
      | excused _ hexc =>
        refine .excused _ ?_
        -- What is not compared any more stays so, since steps are never taken back.
        cases x with
        | error exit m₁ =>
          rw [Run.loop_of_error hx]
          exact hexc.of_error
        | ok again m₁ =>
          have hbeyond : c.beyond m₁.steps := hexc.resolve_left fun ⟨_, _, heq, _⟩ => nomatch heq
          cases again with
          | false =>
            rw [Run.loop_of_false hx]
            exact .inr hbeyond
          | true =>
            rw [hr.loop_of_true hx]
            exact .inr (c.beyond_mono (h.left.loop c.left.limits m₁).steps hbeyond)
      | stray hd hstray =>
        rw [Run.loop_of_error hx]
        refine .stray hd fun hb => ?_
        obtain ⟨hcause, m₁, rfl, hd'⟩ := hstray hb
        exact ⟨hcause, m₁, Run.loop_of_error hx', hd'⟩

section

variable (id : LoopId) {test test' : Run Literal} {runs runs' : List (Run Literal)}

theorem testFirst (htest : c.Sim test test')
    (hruns : c.Sim (Run.inOrder .unit runs) (Run.inOrder .unit runs')) :
    c.Sim (Run.testFirst c.left.limits id test runs)
      (Run.testFirst c.right.limits id test' runs') := by
  rw [Run.testFirst_eq, Run.testFirst_eq]
  refine loop (htest.condition.bind fun holds => ?_)
    (Run.charging_firstPass id htest.left hruns.left)
    (Run.charging_firstPass id htest.right hruns.right)
  cases holds with
  | false => exact .value false
  | true =>
    refine (pass id hruns).inFrame.bind fun through => ?_
    cases through with
    | false => exact .value false
    | true => exact tally.bind fun _ => .value true

theorem testLast (htest : c.Sim test test')
    (hruns : c.Sim (Run.inOrder .unit runs) (Run.inOrder .unit runs')) :
    c.Sim (Run.testLast c.left.limits id test runs)
      (Run.testLast c.right.limits id test' runs') := by
  rw [Run.testLast_eq, Run.testLast_eq]
  refine loop (inFrame ((pass id hruns).bind fun through => ?_))
    (Run.charging_lastPass id htest.left hruns.left)
    (Run.charging_lastPass id htest.right hruns.right)
  cases through with
  | false => exact .value false
  | true => exact tally.bind fun _ => htest.condition

end

end Sim

/-! ## Evaluation -/

/-- Where the right run may go on, it may also have more room. -/
def Roomy (c : Contrast) (a b : Nat) : Prop :=
  a ≤ b ∧ (¬ c.lenientDepth → a = b)

/-- Ending alike, as a relation that evaluation respects. -/
def relation (c : Contrast) : RunRelation c.left c.right where
  Rel := c.Sim
  Roomy := c.Roomy
  value := .value
  exit x h _ := .exit x h
  andThen h hf := h.bind hf
  define := .define
  assign := .assign
  read := .read
  inFrame h := h.inFrame
  inActivation h := h.inActivation
  catchReturn function _ _ h := h.catchReturn function
  testFirst id _ _ _ _ htest hruns := .testFirst id htest hruns
  testLast id _ _ _ _ htest hruns := .testLast id htest hruns
  roomy_succ {a b} h := by
    obtain ⟨hle, heq⟩ := h
    refine ⟨b - 1, by omega, by omega, fun hl => ?_⟩
    have := heq hl
    omega
  refuse {b} function {runs runs'} hroom hruns := by
    have hsteady : List.Forall₂ (fun r _ => r.Steady) runs' runs :=
      (hruns.imp fun _ _ h => h.right).flip
    refine ⟨(Sim.exit (c := c) _ ?_).left, c.right.steady_callMarked b function hsteady, ?_⟩
    · exact not_false
    · intro m m' hnear
      by_cases hl : c.lenientDepth
      · exact .excused _ (.inl ⟨_, m, rfl, hl⟩)
      · obtain rfl := hroom.2 hl
        exact .exit (.depth _ _) hnear

end Contrast

end CallFolding
