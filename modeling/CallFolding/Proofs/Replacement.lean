import CallFolding.Proofs.Folding
import CallFolding.Proofs.Origin

/-!
Values put in the place of calls. What a pass puts there is the value of the call as it is written
in the program, operands and all: with enough steps, and no less room than the pass had, that call
evaluates to it.

A pass never evaluates that call. It evaluates the call with folded operands, where the steps of the
operands are not counted again, so how many steps are enough has to be added up. The sum is taken
along the tree of calls, and nothing but constants and calls is in it: where no activation is open
nothing else has a value (`const_or_call_of_ok`).
-/

set_option autoImplicit false

namespace CallFolding

/-- Evaluations with nothing open that start at the counts `s` and `t`, where the right one may take
as many steps. -/
def Contrast.moved (left right : Setting) (s t : Nat)
    (h : left.limits.steps + t ≤ right.limits.steps + s) : Contrast where
  left := left
  right := right
  base := .empty
  near a b := b + s = a + t
  beyond _ := False
  lenientSteps := True
  lenientDepth := True
  near_succ h := by omega
  beyond_mono _ h := h
  fits hab _ ha := by omega
  strict h := absurd trivial h

/-- Lists are replaced expression by expression. -/
theorem ReplacedEach.forall₂ {swap : Call → Literal → Prop} {es es' : List Expr}
    (h : ReplacedEach swap es es') : List.Forall₂ (Replaced swap) es es' := by
  induction es generalizing es' with
  | nil =>
    cases h
    exact .nil
  | cons e es ih =>
    cases h with
    | cons hfirst hrest => exact .cons hfirst (ih hrest)

/-- Operands of a call, the receiver first. -/
theorem Replaced.operands {swap : Call → Literal → Prop} (id : FunctionId)
    {receiver receiver' : Option Expr} {args args' : List Expr}
    (hreceiver : ReplacedOption swap receiver receiver') (hargs : ReplacedEach swap args args') :
    List.Forall₂ (Replaced swap) (Call.operands ⟨id, receiver, args⟩)
      (Call.operands ⟨id, receiver', args'⟩) := by
  cases hreceiver with
  | none => exact hargs.forall₂
  | some h => exact .cons h hargs.forall₂

namespace Setting

/-! ## Enough steps -/

/-- Under limits that allow for `depth` activations and for enough steps, each of these runs ends
with this result if it starts with nothing open, and leaves nothing open. -/
def Yields {α : Type} (depth : Nat) (runs : Limits → Run α) (a : α) : Prop :=
  ∃ cost, ∀ (limits : Limits) (steps : Nat), depth ≤ limits.depth → steps + cost ≤ limits.steps →
    ∃ steps', runs limits { steps } = .ok a { steps := steps' } ∧ steps' ≤ steps + cost

namespace Yields

variable {α β : Type} {depth : Nat}

theorem value (depth : Nat) (a : α) : Yields depth (fun _ => pure a) a :=
  ⟨0, fun _ steps _ _ => ⟨steps, rfl, Nat.le_refl _⟩⟩

/-- The costs of two runs add up. -/
theorem bind {runs : Limits → Run α} {f : Limits → α → Run β} {a : α} {b : β}
    (h : Yields depth runs a) (hf : Yields depth (fun limits => f limits a) b) :
    Yields depth (fun limits => runs limits >>= f limits) b := by
  obtain ⟨cost, h⟩ := h
  obtain ⟨cost', hf⟩ := hf
  refine ⟨cost + cost', fun limits steps hdepth hsteps => ?_⟩
  obtain ⟨steps₁, hfirst, hle⟩ := h limits steps hdepth (by omega)
  obtain ⟨steps₂, hsecond, hle'⟩ := hf limits steps₁ hdepth (by omega)
  exact ⟨steps₂, (Run.bind_of_ok hfirst).trans hsecond, by omega⟩

/-- Only limits with enough room matter. -/
theorem congr {runs runs' : Limits → Run α} {a : α} (h : Yields depth runs a)
    (heq : ∀ limits : Limits, depth ≤ limits.depth → runs' limits = runs limits) :
    Yields depth runs' a := by
  obtain ⟨cost, h⟩ := h
  refine ⟨cost, fun limits steps hdepth hsteps => ?_⟩
  rw [heq limits hdepth]
  exact h limits steps hdepth hsteps

theorem values {run : Limits → Expr → Run Literal} {es : List Expr} {values : List Literal}
    (h : List.Forall₂ (fun e => Yields depth fun limits => run limits e) es values) :
    Yields depth (fun limits => Run.values (es.map (run limits))) values := by
  induction h with
  | nil => exact .value depth []
  | cons hfirst _ ih => exact hfirst.bind (ih.bind (.value depth _))

end Yields

variable (program : Program) (marker : String)

/-- With enough steps and room for `depth` activations, the expression on its own has this value. -/
def HasValue (depth : Nat) (e : Expr) (value : Literal) : Prop :=
  Yields depth (fun limits => evalAt ⟨program, marker, limits⟩ (limits.room 0) e) value

variable {program marker}

/-- For a call on its own, nothing is counted before it. -/
theorem HasValue.evalCall {depth : Nat} {call : Call} {value : Literal}
    (h : HasValue program marker depth call.expr value) :
    ∃ steps, ∀ limits : Limits, steps ≤ limits.steps → depth ≤ limits.depth →
      evalCall ⟨program, marker, limits⟩ call = .ok value := by
  obtain ⟨cost, h⟩ := h
  refine ⟨cost, fun limits hsteps hdepth => ?_⟩
  obtain ⟨steps, hok, -⟩ := h limits 0 hdepth (by omega)
  rw [evalCall_eq]
  exact congrArg Outcome.result hok

/-! ## Where nothing is open -/

section

variable {setting : Setting} {room : Nat} {m m' : Machine} {value : Literal}

/-- What starts with nothing open leaves nothing open, if it has a value. -/
theorem scope_of_ok {α : Type} {r : Run α} {a : α} (hr : r.Steady) (hm : m.scope = .empty)
    (h : r m = .ok a m') : m'.scope = .empty := by
  have hbare : m.scope.Bare := by
    rw [hm]
    exact Scope.bare_empty
  have hscope : m'.scope = m.scope := ((hr.keeps_of_ok h).bare hbare).resolve_left not_false
  rw [hscope, hm]

/-- With nothing open there is no frame for a new name. -/
theorem define_of_empty (hm : m.scope = .empty) (name : String) (value : Literal) :
    Run.define name value m = .error (.failed (.defect (.bind .noScope))) m := by
  rw [Run.define_eq, hm]
  rfl

theorem assign_of_empty (hm : m.scope = .empty) (name : String) (value : Literal) :
    Run.assign name value m = .error (.failed (.defect (.bind .noScope))) m := by
  rw [Run.assign_eq, hm]
  rfl

/-- Variables cannot be read, bound or changed, and frames cannot be closed, so a value is that of a
constant or of a call. -/
theorem const_or_call_of_ok {e : Expr} (hm : m.scope = .empty)
    (h : setting.evalAt room e m = .ok value m') :
    e = .const value ∨ ∃ call : Call, e = call.expr := by
  -- What opens a frame here cannot close it, and so has no value.
  have hscoped : ¬ e.IsScoped := by
    intro hscoped
    obtain ⟨r, hr, heq⟩ := setting.exists_inFrame hscoped room
    rw [heq, hr.inFrame_of_depth_zero (by rw [hm]; rfl)] at h
    cases h
  rw [evalAt_eq] at h
  cases e with
  | const v =>
    rw [evalExpr] at h
    cases h
    exact .inl rfl
  | read name owner =>
    rw [evalExpr, Run.read, hm] at h
    cases h
  | declare name type init =>
    cases init with
    | none =>
      rw [evalExpr] at h
      cases h
    | some init =>
      rw [evalExpr, ← evalAt_eq] at h
      obtain ⟨v, m₁, hv, h⟩ := Run.bind_eq_ok.mp h
      have hm₁ := scope_of_ok (setting.steady_evalAt room init) hm hv
      rw [Run.bind_of_error (define_of_empty hm₁ name v)] at h
      cases h
  | assign name owner init =>
    rw [evalExpr, ← evalAt_eq] at h
    obtain ⟨v, m₁, hv, h⟩ := Run.bind_eq_ok.mp h
    have hm₁ := scope_of_ok (setting.steady_evalAt room init) hm hv
    rw [Run.bind_of_error (assign_of_empty hm₁ name v)] at h
    cases h
  | call id receiver args => exact .inr ⟨⟨id, receiver, args⟩, rfl⟩
  | block es => exact absurd trivial hscoped
  | branch arms => exact absurd trivial hscoped
  | loop kind id label test body => exact absurd trivial hscoped
  | returnFrom target init =>
    rw [evalExpr] at h
    obtain ⟨v, m₁, hv, h⟩ := Run.bind_eq_ok.mp h
    cases h
  | breakLoop target =>
    rw [evalExpr] at h
    cases h
  | continueLoop target =>
    rw [evalExpr] at h
    cases h

/-- Operands that were evaluated in turn had values on their own, one by one. -/
theorem forall₂_of_values {es : List Expr} {values : List Literal} (hm : m.scope = .empty)
    (h : Run.values (es.map (setting.evalAt room)) m = .ok values m') :
    List.Forall₂ (fun e value => ∃ m m', m.scope = .empty ∧
      setting.evalAt room e m = .ok value m') es values ∧ m'.scope = .empty := by
  induction es generalizing m values with
  | nil =>
    cases h
    exact ⟨.nil, hm⟩
  | cons e es ih =>
    rw [List.map_cons, Run.values] at h
    obtain ⟨v, m₁, hv, h⟩ := Run.bind_eq_ok.mp h
    obtain ⟨vs, m₂, hvs, h⟩ := Run.bind_eq_ok.mp h
    cases h
    obtain ⟨hrest, hscope⟩ := ih (scope_of_ok (setting.steady_evalAt room e) hm hv) hvs
    exact ⟨.cons ⟨m, m₁, hm, hv⟩ hrest, hscope⟩

/-- A primitive operation does not look at the state. -/
theorem applyPrimitive_eq_ok {function : Function} {values : List Literal}
    (h : applyPrimitive function values m = .ok value m') :
    applyPrimitive function values = pure value := by
  unfold applyPrimitive at h ⊢
  cases hdispatch : dispatch function.name (operands function values) with
  | ok v =>
    rw [hdispatch] at h
    cases h
    rfl
  | error error =>
    rw [hdispatch] at h
    cases h

end

/-! ## Calls with folded operands -/

variable {limits : Limits} {m m' : Machine} {value : Literal}

/-- What one activation did with nothing open, it does under all limits with enough steps. -/
theorem yields_activate {function : Function} {values : List Literal} {body : Expr} {room : Nat}
    (hdepth : limits.depth = room + 1) (hm : m.scope = .empty)
    (h : activate function values (evalAt ⟨program, marker, limits⟩ room body) m = .ok value m') :
    Yields limits.depth (fun limits => activate function values
      (evalAt ⟨program, marker, limits⟩ (limits.depth - 1) body)) value := by
  refine ⟨limits.steps + m'.steps, fun limits' steps hdepth' hsteps => ?_⟩
  let c := Contrast.moved ⟨program, marker, limits⟩ ⟨program, marker, limits'⟩ m.steps steps
    (by dsimp only; omega)
  have hroom : c.Roomy room (limits'.depth - 1) := ⟨by omega, absurd trivial⟩
  have hsim := c.relation.activate function values (c.sim_evalAt rfl rfl hroom body)
  have hnear : c.Near m { steps } := by
    refine ⟨?_, Nat.add_comm _ _, ?_⟩
    · rw [hm, Scope.above_empty_right]
      rfl
    · rw [hm]
      exact Scope.rooted_empty
  -- The two runs differ by a constant in their counts, so the right one takes no more steps.
  have hagree := hsim.agree hnear
  change c.Agree (activate function values (evalAt ⟨program, marker, limits⟩ room body) m) _
    at hagree
  rw [h] at hagree
  obtain ⟨⟨scope₁, steps₁⟩, hright, hnear₁⟩ := hagree.of_ok fun _ h => h
  obtain rfl : scope₁ = .empty := (hnear₁.scope_eq rfl).trans (scope_of_ok hsim.left hm h)
  have hcount : steps₁ + m.steps = m'.steps + steps := hnear₁.steps
  exact ⟨steps₁, hright, by omega⟩

/-- Wherever the right expression has a value with nothing open, the left one has it on its own. -/
def Follows (program : Program) (marker : String) (limits : Limits) (e e' : Expr) : Prop :=
  ∀ {m m' : Machine} {value : Literal}, m.scope = .empty →
    evalAt ⟨program, marker, limits⟩ (limits.room 0) e' m = .ok value m' →
      HasValue program marker limits.depth e value

/-- Operands that follow have the values of what they follow. -/
theorem hasValue_of_forall₂ {es es' : List Expr} {values : List Literal}
    (h : List.Forall₂ (Follows program marker limits) es es')
    (hvalues : List.Forall₂ (fun e value => ∃ m m', m.scope = .empty ∧
      evalAt ⟨program, marker, limits⟩ (limits.room 0) e m = .ok value m') es' values) :
    List.Forall₂ (HasValue program marker limits.depth) es values := by
  induction h generalizing values with
  | nil =>
    cases hvalues
    exact .nil
  | cons hfirst _ ih =>
    cases hvalues with
    | cons hvalue hrest =>
      obtain ⟨m, m', hm, hok⟩ := hvalue
      exact .cons (hfirst hm hok) (ih hrest)

section

variable {call call' : Call} {function : Function} (hcallee : call'.callee = call.callee)
  (hoperands : List.Forall₂ (Follows program marker limits) call.operands call'.operands)

include hcallee hoperands

/-- A call of a marked function, operands first and then the body. -/
theorem hasValue_of_enters {body : Expr}
    (h : Enters ⟨program, marker, limits⟩ call' function body) (hm : m.scope = .empty)
    (hok : evalAt ⟨program, marker, limits⟩ (limits.room 0) call'.expr m = .ok value m') :
    HasValue program marker limits.depth call.expr value := by
  cases hdepth : limits.depth with
  | zero =>
    have hroom : limits.room 0 = 0 := hdepth
    rw [hroom, evalAt_zero_of_enters _ h] at hok
    cases hok
  | succ room =>
    have hroom : limits.room 0 = room + 1 := hdepth
    rw [hroom, evalAt_of_enters _ h, ← hroom] at hok
    obtain ⟨values, m₁, hvalues, hbody⟩ := Run.bind_eq_ok.mp hok
    obtain ⟨hvalues, hm₁⟩ := forall₂_of_values hm hvalues
    have hcall := (Yields.values (hasValue_of_forall₂ hoperands hvalues)).bind
      (f := fun limits values => activate function values
        (evalAt ⟨program, marker, limits⟩ (limits.depth - 1) body))
      (yields_activate hdepth hm₁ hbody)
    rw [← hdepth]
    -- With at least as much room the body is evaluated as it was, one activation further in.
    refine hcall.congr fun limits' hle => ?_
    have henters : Enters ⟨program, marker, limits'⟩ call function body :=
      ⟨hcallee ▸ h.found, hoperands.length_eq.trans h.arity, h.marked, h.body⟩
    have hroom' : limits'.room 0 = limits'.depth - 1 + 1 := by
      show limits'.depth - 0 = _
      omega
    rw [hroom', evalAt_of_enters _ henters]

/-- A call of a primitive operation, which may need no more than its first operand. -/
theorem hasValue_of_applies (h : Applies ⟨program, marker, limits⟩ call' function)
    (hm : m.scope = .empty)
    (hok : evalAt ⟨program, marker, limits⟩ (limits.room 0) call'.expr m = .ok value m') :
    HasValue program marker limits.depth call.expr value := by
  have heq : ∀ limits' : Limits, limits.depth ≤ limits'.depth →
      evalAt ⟨program, marker, limits'⟩ (limits'.room 0) call.expr = callPrimitive function
        (call.operands.map (evalAt ⟨program, marker, limits'⟩ (limits'.room 0))) := by
    intro limits' _
    have happlies : Applies ⟨program, marker, limits'⟩ call function :=
      ⟨hcallee ▸ h.found, hoperands.length_eq.trans h.arity, h.primitive⟩
    exact evalAt_of_applies _ happlies _
  refine Yields.congr ?_ heq
  rw [evalAt_of_applies _ h] at hok
  generalize call.operands = es at hoperands
  generalize call'.operands = es' at hoperands hok
  cases hoperands with
  | nil =>
    have hpure : callPrimitive function [] = pure value := applyPrimitive_eq_ok hok
    simp only [List.map_nil, hpure]
    exact .value _ value
  | cons hfirst hrest =>
    rw [List.map_cons, callPrimitive] at hok
    obtain ⟨v, m₁, hv, hok⟩ := Run.bind_eq_ok.mp hok
    refine (hfirst hm hv).bind ?_
    have hm₁ := scope_of_ok (steady_evalAt _ _ _) hm hv
    -- If the first operand decides, the others are evaluated in neither of the calls.
    by_cases hdecisive : (decisive? function).any (v.boolean? == some ·)
    · rw [if_pos hdecisive] at hok
      cases hok
      simp only [hdecisive, if_true]
      exact .value _ value
    · rw [if_neg hdecisive] at hok
      obtain ⟨values, m₂, hvalues, happly⟩ := Run.bind_eq_ok.mp hok
      obtain ⟨hvalues, -⟩ := forall₂_of_values hm₁ hvalues
      have hpure := applyPrimitive_eq_ok happly
      simp only [hdecisive]
      refine (Yields.values (hasValue_of_forall₂ hrest hvalues)).bind ?_
      simp only [hpure]
      exact .value _ value

/-- A call of any kind. One that nothing can be done about has no value. -/
theorem hasValue_of_call (hm : m.scope = .empty)
    (hok : evalAt ⟨program, marker, limits⟩ (limits.room 0) call'.expr m = .ok value m') :
    HasValue program marker limits.depth call.expr value := by
  by_cases hsupports : Supports ⟨program, marker, limits⟩ call'
  · rcases hsupports with ⟨function, body, h⟩ | ⟨function, h⟩
    · exact hasValue_of_enters hcallee hoperands h hm hok
    · exact hasValue_of_applies hcallee hoperands h hm hok
  · rcases evalAt_of_not_supports _ hsupports (limits.room 0) with heq | ⟨cause, _, heq⟩ <;>
    · rw [heq] at hok
      cases hok

end

/-- Constants have their values at once. -/
theorem hasValue_const (depth : Nat) (value : Literal) :
    HasValue program marker depth (.const value) value := by
  refine (Yields.value depth value).congr fun limits _ => ?_
  rw [evalAt_eq, evalExpr]

/-- The induction is on the size of the expression as it was, where the operands of a call are
smaller than the call. -/
theorem follows_of_replaced {swap : Call → Literal → Prop}
    (hswap : ∀ {call value}, swap call value → HasValue program marker limits.depth call.expr value)
    (e : Expr) : ∀ {e' : Expr}, Replaced swap e e' → Follows program marker limits e e' := by
  induction hn : sizeOf e using Nat.strongRecOn generalizing e with
  | ind n ih =>
    intro e' h m m' value hm hok
    -- What was replaced has become a constant, and what is still a call was one before.
    rcases const_or_call_of_ok hm hok with rfl | ⟨⟨id, receiver', args'⟩, rfl⟩
    · cases h with
      | const _ => exact hasValue_const limits.depth value
      | value hvalue => exact hswap hvalue
    · cases h with
      | @call _ receiver _ args _ hreceiver hargs =>
        have hsmaller : ∀ e ∈ Call.operands ⟨id, receiver, args⟩, sizeOf e < n := by
          rw [← hn]
          exact fun e he => Call.sizeOf_operand he
        have hoperands := (List.forall₂_and_left _ _).mpr
          ⟨hsmaller, Replaced.operands id hreceiver hargs⟩
        have hcallee : Call.callee ⟨id, receiver', args'⟩ = Call.callee ⟨id, receiver, args⟩ := rfl
        refine hasValue_of_call hcallee (hoperands.imp ?_) hm hok
        rintro e e' ⟨hlt, he⟩
        exact ih _ hlt e rfl he

/-- A call that has a value on its own has it with enough steps, whatever else is counted. -/
theorem hasValue_of_evalCall {call : Call}
    (h : evalCall ⟨program, marker, limits⟩ call = .ok value) :
    HasValue program marker limits.depth call.expr value := by
  obtain ⟨m, hok⟩ := evalCall_eq_ok h
  have hrefl := Replaced.refl (fun _ _ => False) call.expr
  exact follows_of_replaced False.elim call.expr hrefl rfl hok

end Setting

namespace Folding

variable (program : Program) (options : Options)

/-- With enough steps, and no less room than a pass has, the call evaluates to this value. -/
def Computes (call : Call) (value : Literal) : Prop :=
  ∃ steps, ∀ limits : Limits, steps ≤ limits.steps → options.limits.depth ≤ limits.depth →
    Setting.evalCall ⟨program, options.marker, limits⟩ call = .ok value

/-- A pass evaluates calls with folded operands, and that is enough. -/
theorem justifies_computes : Justifies program options (Computes program options) := by
  intro call call' value hcall hjudge
  obtain ⟨m, hok⟩ := Setting.evalCall_eq_ok (evalCall_of_judge program options hjudge)
  refine (Setting.follows_of_replaced ?_ call.expr hcall rfl hok).evalCall
  -- Calls inside the operands were replaced by values that they have themselves.
  rintro call value ⟨steps, h⟩
  have hvalue := Setting.hasValue_of_evalCall
    (h ⟨steps, options.limits.depth⟩ (Nat.le_refl _) (Nat.le_refl _))
  exact hvalue

/-- **Each value that takes the place of a call is the value of that call.** There is one record for
each call to a marked function; it is about that call with its operands folded, and if it says that
the call was replaced by a value, then the call as it is written evaluates to that value. -/
theorem computes_of_record {folded : Folded} (h : run program options = .ok folded) :
    List.Forall₂ (fun node record =>
        IsRecordOf program options (Computes program options) node.1 node.2 record ∧
          ∀ value, record.verdict = .folded value → Computes program options node.2 value)
      (program.calls.filter (isCandidate program options ·.2.callee)) folded.records.toList := by
  refine (recorded_run (justifies_computes program options) h).imp fun node record hrecord => ?_
  refine ⟨hrecord, fun value hvalue => ?_⟩
  obtain ⟨call', hcall, -, hjudge⟩ := hrecord.judged
  rw [hvalue] at hjudge
  exact justifies_computes program options hcall hjudge

/-- `evalDouble` takes a step for each of the `n` times it adds two, and `quadruple` calls it with
what it gives for one. -/
def doubled : Program :=
  Prod.snd <| Build.run do
    let double ← Build.declare "evalDouble" [("n", .int)] .int
    let loop ← Build.newLoop
    let positive ← Build.intTest "less" (.int 0) (.read "n" double)
    let add ← Build.addTo double "s" (.int 2)
    let next ← Build.addTo double "n" (.int (-1))
    Build.define double (.block
      [.declare "s" .int (some (.int 0)),
        .loop .testFirst loop none positive (some (.block [add, next])),
        .returnFrom double (.read "s" double)])
    let quadruple ← Build.declare "quadruple" [] .int
    Build.define quadruple (.block [.returnFrom quadruple
      (.call double none [.call double none [.int 1]])])

/-- Two steps are enough for a pass to fold both calls, one after the other. The outer call takes
three steps as it is written, and has the value that was put in its place. -/
theorem computes_of_record_doubled : ∃ folded, run doubled { limits := ⟨2, 1⟩ } = .ok folded ∧
    folded.records.toList.map (·.verdict) = [.folded (.int 2), .folded (.int 4)] ∧
    Setting.evalCall ⟨doubled, "eval", ⟨2, 1⟩⟩ ⟨⟨0⟩, none, [.call ⟨0⟩ none [.int 1]]⟩ =
      .error (.limit (.steps 2)) ∧
    Computes doubled { limits := ⟨2, 1⟩ } ⟨⟨0⟩, none, [.call ⟨0⟩ none [.int 1]]⟩ (.int 4) := by
  obtain ⟨folded, hrun, hverdicts⟩ := exists_folded doubled { limits := ⟨2, 1⟩ }
    (f := (·.records.toList.map (·.verdict))) (a := [.folded (.int 2), .folded (.int 4)])
    (by decide +kernel)
  refine ⟨folded, hrun, hverdicts, by decide +kernel, ?_⟩
  have hnodes : doubled.calls.filter (isCandidate doubled { limits := ⟨2, 1⟩ } ·.2.callee) =
      [(⟨3⟩, ⟨⟨0⟩, none, [.int 1]⟩), (⟨3⟩, ⟨⟨0⟩, none, [.call ⟨0⟩ none [.int 1]]⟩)] := rfl
  have hrecords := computes_of_record doubled { limits := ⟨2, 1⟩ } hrun
  rw [hnodes] at hrecords
  generalize folded.records.toList = records at hrecords hverdicts
  -- The second record is about the outer call.
  obtain _ | ⟨_, _ | ⟨⟨-, houter⟩, _ | _⟩⟩ := hrecords
  injection hverdicts with _ hverdicts
  injection hverdicts with hverdict _
  exact houter (.int 4) hverdict

end Folding

end CallFolding
