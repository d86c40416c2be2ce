import CallFolding.Evaluation.Stepwise
import CallFolding.Proofs.Turn

/-!
Moments of an evaluation. Evaluating an expression evaluates parts of it, and bodies of functions,
and those again others. A `Moment` is one of these evaluations: where it stands, what is evaluated
and in which state. `Next` says which evaluations another one starts, `Reaches` which ones happen in
its course.
-/

set_option autoImplicit false

namespace CallFolding

/-- The evaluation of an expression, as a part of a larger one. -/
structure Moment where
  /-- What it is inside of, innermost first. -/
  sites : List Site := []
  room : Nat
  expr : Expr
  machine : Machine

namespace Site

/-- How many bodies the sites are nested in. -/
def bodies : List Site → Nat
  | [] => 0
  | .body _ :: sites => bodies sites + 1
  | _ :: sites => bodies sites

/-- Rounds are not bodies of functions. -/
theorem bodies_of_inRound {limits : Limits} {id : LoopId} {run : Expr → Run Literal}
    {test e : Expr} {es : List Expr} {kind : LoopKind} {m m' : Machine} {site : Site}
    (h : Run.InRound limits id run test es kind m site e m') (sites : List Site) :
    bodies (site :: sites) = bodies sites := by
  rcases h.mem with ⟨rfl, _⟩ | ⟨rfl, _⟩ <;> rfl

end Site

/-- The state has one activation for each body that the evaluation is inside of. -/
structure Moment.IsPlaced (a : Moment) : Prop where
  rooted : a.machine.scope.Rooted
  depth : a.machine.scope.depth = Site.bodies a.sites

/-- Defects of calls that nothing can be done about. -/
def Defect.IsRefusal : Defect → Prop
  | .unknownFunction _ => True
  | .unsupportedCallee _ => True
  | .missingBody _ => True
  | .arityMismatch _ _ _ => True
  | _ => False

namespace Expr

/-- The expression that is evaluated before anything else is done about this one. -/
def inner? : Expr → Option Expr
  | declare _ _ init => init
  | assign _ _ value => some value
  | returnFrom _ value => some value
  | _ => none

/-- A frame is opened for the expression. -/
def IsScoped : Expr → Prop
  | block _ => True
  | branch _ => True
  | loop _ _ _ _ _ => True
  | _ => False

/-- What is evaluated first is smaller. -/
theorem sizeOf_inner {e e' : Expr} (h : e.inner? = some e') : sizeOf e' < sizeOf e := by
  cases e with
  | declare name type init =>
    cases h
    simp only [declare.sizeOf_spec, Option.some.sizeOf_spec]
    omega
  | assign name owner value =>
    cases h
    simp only [assign.sizeOf_spec]
    omega
  | returnFrom target value =>
    cases h
    simp only [returnFrom.sizeOf_spec]
    omega
  | _ => cases h

theorem sizeOf_statements {e : Expr} {body : Option Expr} (h : e ∈ statements body) :
    sizeOf e < sizeOf body := by
  cases body with
  | none => cases h
  | some e' =>
    cases e' with
    | block es =>
      have hlt : sizeOf e < sizeOf es := List.sizeOf_lt_of_mem h
      simp only [Option.some.sizeOf_spec, block.sizeOf_spec]
      omega
    | _ =>
      obtain rfl := List.mem_singleton.mp h
      simp only [Option.some.sizeOf_spec]
      omega

end Expr

theorem Call.sizeOf_operand {call : Call} {e : Expr} (h : e ∈ call.operands) :
    sizeOf e < sizeOf call.expr := by
  obtain ⟨id, receiver, args⟩ := call
  simp only [Call.expr, Expr.call.sizeOf_spec]
  rcases List.mem_append.mp h with h | h
  · cases receiver with
    | none => cases h
    | some e' =>
      obtain rfl := List.mem_singleton.mp h
      simp only [Option.some.sizeOf_spec]
      omega
  · have hlt := List.sizeOf_lt_of_mem h
    simp only at hlt
    omega

namespace Setting

section

variable (setting : Setting)

/-- How the evaluation ends. -/
def outcome (a : Moment) : Outcome Literal :=
  setting.evalAt a.room a.expr a.machine

/-- The evaluation of a call on its own. -/
def start (call : Call) : Moment :=
  { room := setting.limits.room 0, expr := call.expr, machine := {} }

/-- The call is one of a marked function with this body. -/
structure Enters (call : Call) (function : Function) (body : Expr) : Prop where
  found : setting.program.function? call.callee = some function
  arity : call.operands.length = function.arity
  marked : function.classify setting.marker = .marked
  body : function.body = some body

/-- The call is one of a primitive operation. -/
structure Applies (call : Call) (function : Function) : Prop where
  found : setting.program.function? call.callee = some function
  arity : call.operands.length = function.arity
  primitive : function.classify setting.marker = .primitive

/-- Something can be done about the call. -/
def Supports (call : Call) : Prop :=
  (∃ function body, setting.Enters call function body) ∨ ∃ function, setting.Applies call function

/-- The first evaluation starts the second as a part of it. -/
inductive Next : Moment → Moment → Prop
  | inner (sites : List Site) (room : Nat) (m : Machine) {e e' : Expr} : e.inner? = some e' →
    Next ⟨sites, room, e, m⟩ ⟨sites, room, e', m⟩
  | operand (sites : List Site) {room : Nat} {m m' : Machine} {call : Call} {function : Function}
    {body e : Expr} : setting.Enters call function body →
    Run.InTurn (setting.evalAt (room + 1)) call.operands m e m' →
    Next ⟨sites, room + 1, call.expr, m⟩ ⟨sites, room + 1, e, m'⟩
  | body (sites : List Site) {room : Nat} {m m₁ m' : Machine} {call : Call} {function : Function}
    {body : Expr} {values : List Literal} : setting.Enters call function body →
    Run.values (call.operands.map (setting.evalAt (room + 1))) m = .ok values m₁ →
    bindOperands (function.operandNames.zip values) m₁.activated = .ok () m' →
    Next ⟨sites, room + 1, call.expr, m⟩ ⟨.body function.id :: sites, room, body, m'⟩
  | firstOperand (sites : List Site) (room : Nat) (m : Machine) {call : Call} {function : Function}
    {e : Expr} {es : List Expr} : setting.Applies call function → call.operands = e :: es →
    Next ⟨sites, room, call.expr, m⟩ ⟨sites, room, e, m⟩
  | otherOperand (sites : List Site) {room : Nat} {m m₁ m' : Machine} {call : Call}
    {function : Function} {e x : Expr} {es : List Expr} {value : Literal} :
    setting.Applies call function → call.operands = e :: es →
    setting.evalAt room e m = .ok value m₁ →
    ¬ (decisive? function).any (value.boolean? == some ·) →
    Run.InTurn (setting.evalAt room) es m₁ x m' →
    Next ⟨sites, room, call.expr, m⟩ ⟨sites, room, x, m'⟩
  | statement (sites : List Site) {room : Nat} {m m' : Machine} {es : List Expr} {e : Expr} :
    Run.InTurn (setting.evalAt room) es m.framed e m' →
    Next ⟨sites, room, .block es, m⟩ ⟨sites, room, e, m'⟩
  | arm (sites : List Site) {room : Nat} {m m' : Machine} {arms : List (Expr × Expr)} {e : Expr} :
    Run.InArms (setting.evalAt room) arms m.framed e m' →
    Next ⟨sites, room, .branch arms, m⟩ ⟨sites, room, e, m'⟩
  | round (sites : List Site) {room : Nat} {m m₁ m' : Machine} {kind : LoopKind} {id : LoopId}
    (label : Option String) {test e : Expr} {body : Option Expr} {site : Site} :
    Run.Rounds (Run.round setting.limits kind id (setting.evalAt room test)
      ((Expr.statements body).map (setting.evalAt room))) m.framed m₁ →
    Run.InRound setting.limits id (setting.evalAt room) test (Expr.statements body) kind m₁ site e
      m' →
    Next ⟨sites, room, .loop kind id label test body, m⟩ ⟨site :: sites, room, e, m'⟩

/-- The second evaluation happens in the course of the first. -/
def Reaches : Moment → Moment → Prop :=
  Relation.ReflTransGen setting.Next

end

variable {setting : Setting}

/-! ## The evaluator in terms of parts -/

section

variable (setting)

/-- A list is evaluated expression by expression. -/
theorem evalEach_eq (room : Nat) (es : List Expr) :
    setting.evalEach (setting.below room) es = es.map (setting.evalAt room) := by
  induction es with
  | nil => rfl
  | cons e es ih => rw [evalEach, ih, List.map_cons, evalAt_eq]

theorem evalArms_eq (room : Nat) (arms : List (Expr × Expr)) :
    setting.evalArms (setting.below room) arms =
      arms.map fun arm => (setting.evalAt room arm.1, setting.evalAt room arm.2) := by
  induction arms with
  | nil => rfl
  | cons arm arms ih => rw [evalArms, ih, List.map_cons, evalAt_eq]

/-- The body of a loop is evaluated statement by statement. -/
theorem evalBody_eq (room : Nat) (body : Option Expr) :
    setting.evalBody (setting.below room) body =
      (Expr.statements body).map (setting.evalAt room) := by
  cases body with
  | none => rfl
  | some e =>
    -- A block is taken apart, and everything else is a single statement.
    cases e <;>
      simp only [evalBody, Expr.statements, evalEach_eq, List.map_cons, List.map_nil, evalAt_eq]

/-- A call is decided on with its operands still to be evaluated. -/
theorem evalAt_call (room : Nat) (call : Call) :
    setting.evalAt room call.expr =
      setting.call (setting.below room) call.callee (call.operands.map (setting.evalAt room)) := by
  obtain ⟨id, receiver, args⟩ := call
  rw [evalAt_eq, Call.expr]
  -- A receiver is the first of the operands.
  cases receiver with
  | none =>
    rw [evalExpr, evalEach_eq, ← evalAt_eq]
    rfl
  | some e =>
    rw [evalExpr, evalEach_eq, ← evalAt_eq]
    rfl

theorem evalAt_block (room : Nat) (es : List Expr) :
    setting.evalAt room (.block es) =
      Run.inFrame (Run.inOrder .unit (es.map (setting.evalAt room))) := by
  rw [evalAt_eq, evalExpr, evalEach_eq, ← evalAt_eq]

theorem evalAt_branch (room : Nat) (arms : List (Expr × Expr)) :
    setting.evalAt room (.branch arms) = Run.inFrame (Run.firstTrue
      (arms.map fun arm => (setting.evalAt room arm.1, setting.evalAt room arm.2))) := by
  rw [evalAt_eq, evalExpr, evalArms_eq, ← evalAt_eq]

/-- A loop makes its rounds in a frame. -/
theorem evalAt_loop (room : Nat) (kind : LoopKind) (id : LoopId) (label : Option String)
    (test : Expr) (body : Option Expr) :
    setting.evalAt room (.loop kind id label test body) =
      Run.inFrame (Run.loop setting.limits (Run.round setting.limits kind id
        (setting.evalAt room test) ((Expr.statements body).map (setting.evalAt room)))) := by
  rw [evalAt_eq]
  cases kind <;> rw [evalExpr, evalBody_eq, ← evalAt_eq] <;> rfl

/-- A marked function is entered with its operands evaluated, and its body has less room. -/
theorem evalAt_of_enters {call : Call} {function : Function} {body : Expr}
    (h : setting.Enters call function body) (room : Nat) :
    setting.evalAt (room + 1) call.expr = (do
      let values ← Run.values (call.operands.map (setting.evalAt (room + 1)))
      activate function values (setting.evalAt room body)) := by
  rw [evalAt_call]
  simp only [Setting.call, h.found, List.length_map, h.arity, ne_eq, not_true_eq_false, if_false,
    h.marked, callMarked, below, h.body]

theorem evalAt_zero_of_enters {call : Call} {function : Function} {body : Expr}
    (h : setting.Enters call function body) :
    setting.evalAt 0 call.expr = Run.fail (.limit (.depth setting.limits.depth)) := by
  rw [evalAt_call]
  simp only [Setting.call, h.found, List.length_map, h.arity, ne_eq, not_true_eq_false, if_false,
    h.marked, callMarked, below]

/-- A primitive operation is applied in the same room. -/
theorem evalAt_of_applies {call : Call} {function : Function} (h : setting.Applies call function)
    (room : Nat) :
    setting.evalAt room call.expr =
      callPrimitive function (call.operands.map (setting.evalAt room)) := by
  rw [evalAt_call]
  simp only [Setting.call, h.found, List.length_map, h.arity, ne_eq, not_true_eq_false, if_false,
    h.primitive]

/-- Calls that nothing can be done about fail before any operand is evaluated. -/
theorem evalAt_of_not_supports {call : Call} (h : ¬ setting.Supports call) (room : Nat) :
    setting.evalAt room call.expr = Run.fail (.limit (.depth setting.limits.depth)) ∨
      ∃ cause : Defect, cause.IsRefusal ∧ setting.evalAt room call.expr = Run.defect cause := by
  rw [evalAt_call]
  unfold Setting.call
  cases hfound : setting.program.function? call.callee with
  | none => exact .inr ⟨.unknownFunction call.callee, trivial, rfl⟩
  | some function =>
    simp only [List.length_map]
    by_cases harity : call.operands.length = function.arity
    · rw [if_neg (not_not_intro harity)]
      cases hclass : function.classify setting.marker with
      | primitive => exact absurd (.inr ⟨function, hfound, harity, hclass⟩) h
      | other => exact .inr ⟨.unsupportedCallee function.qualifiedName, trivial, rfl⟩
      | marked =>
        -- The room is looked at first, so a missing body goes unnoticed where there is none left.
        cases room with
        | zero => exact .inl rfl
        | succ room =>
          cases hbody : function.body with
          | some body => exact absurd (.inl ⟨function, body, hfound, harity, hclass, hbody⟩) h
          | none =>
            refine .inr ⟨.missingBody function.qualifiedName, trivial, ?_⟩
            simp only [callMarked, below, hbody]
    · rw [if_pos harity]
      exact .inr ⟨.arityMismatch _ _ _, trivial, rfl⟩

end

/-! ## What a step keeps -/

/-- Rounds leave the activations and the outer frames alone. -/
theorem steady_round (setting : Setting) (room : Nat) (kind : LoopKind) (id : LoopId)
    (test : Expr) (es : List Expr) :
    (Run.round setting.limits kind id (setting.evalAt room test)
      (es.map (setting.evalAt room))).Steady := by
  have htest := setting.steady_evalAt room test
  have hes := Run.Steady.inOrder (setting.steady_evalAt room) es .unit
  cases kind with
  | testFirst => exact htest.firstPass setting.limits id hes
  | testLast => exact htest.lastPass setting.limits id hes

theorem steady_bindOperands (operands : List (String × Literal)) :
    (bindOperands operands).Steady := by
  induction operands with
  | nil => exact fun m => .value () m
  | cons operand rest ih => exact (Run.Steady.define operand.1 operand.2).bind fun _ => ih

/-- Each step keeps the state in line with the sites. -/
theorem Next.isPlaced {a b : Moment} (h : setting.Next a b) (ha : a.IsPlaced) : b.IsPlaced := by
  have hrun := setting.steady_evalAt
  obtain ⟨hrooted, hdepth⟩ := ha
  cases h with
  | inner sites room m _ => exact ⟨hrooted, hdepth⟩
  | operand sites _ hturn =>
    have hkept := hturn.keeps (hrun _)
    exact ⟨hkept.rooted hrooted, hkept.depth_eq.trans hdepth⟩
  | body sites _ hvalues hbind =>
    -- The operands leave the activations as they were, and the body has one more.
    have hcaller := ((Run.Steady.values (hrun _) _).keeps_of_ok hvalues).depth_eq
    have hkept := (steady_bindOperands _).keeps_of_ok hbind
    refine ⟨hkept.rooted (Scope.anchored_pushActivation _).rooted, hkept.depth_eq.trans ?_⟩
    rw [Scope.depth_pushActivation]
    exact congrArg (· + 1) (hcaller.trans hdepth)
  | firstOperand sites room m _ _ => exact ⟨hrooted, hdepth⟩
  | otherOperand sites _ _ hfirst _ hturn =>
    have hkept := ((hrun _ _).keeps_of_ok hfirst).trans (hturn.keeps (hrun _))
    exact ⟨hkept.rooted hrooted, hkept.depth_eq.trans hdepth⟩
  | statement sites hturn =>
    have hkept := hturn.keeps (hrun _)
    exact ⟨hkept.rooted hrooted.pushFrame, hkept.depth_eq.trans hdepth⟩
  | arm sites hturn =>
    have hkept := hturn.keeps (hrun _)
    exact ⟨hkept.rooted hrooted.pushFrame, hkept.depth_eq.trans hdepth⟩
  | round sites label hrounds hturn =>
    -- The loop opens a frame, and a round may open another: neither is an activation.
    have hkept := hrounds.keeps (setting.steady_round _ _ _ _ _)
    refine ⟨hturn.rooted (hrun _) (hkept.rooted hrooted.pushFrame), ?_⟩
    rw [hturn.depth_eq (hrun _), Site.bodies_of_inRound hturn]
    exact hkept.depth_eq.trans hdepth

/-- A step goes to a smaller expression, or uses up room. -/
theorem Next.lt {a b : Moment} (h : setting.Next a b) :
    b.room < a.room ∨ b.room = a.room ∧ sizeOf b.expr < sizeOf a.expr := by
  cases h with
  | inner sites room m hinner => exact .inr ⟨rfl, Expr.sizeOf_inner hinner⟩
  | operand sites _ hturn => exact .inr ⟨rfl, Call.sizeOf_operand hturn.mem⟩
  | body sites _ _ _ => exact .inl (Nat.lt_succ_self _)
  | firstOperand sites room m _ hoperands =>
    exact .inr ⟨rfl, Call.sizeOf_operand (hoperands ▸ List.mem_cons_self)⟩
  | otherOperand sites _ hoperands _ _ hturn =>
    exact .inr ⟨rfl, Call.sizeOf_operand (hoperands ▸ List.mem_cons_of_mem _ hturn.mem)⟩
  | statement sites hturn =>
    have hlt := List.sizeOf_lt_of_mem hturn.mem
    exact .inr ⟨rfl, by simp only [Expr.block.sizeOf_spec]; omega⟩
  | arm sites hturn =>
    -- Both parts of an arm are smaller than the list of arms.
    obtain ⟨arm, hmem, heq⟩ := hturn.mem
    have hlt := List.sizeOf_lt_of_mem hmem
    refine .inr ⟨rfl, ?_⟩
    obtain ⟨test, result⟩ := arm
    simp only [Prod.mk.sizeOf_spec] at hlt
    simp only [Expr.branch.sizeOf_spec]
    rcases heq with rfl | rfl <;> omega
  | round sites label hrounds hturn =>
    refine .inr ⟨rfl, ?_⟩
    simp only [Expr.loop.sizeOf_spec]
    rcases hturn.mem with ⟨_, rfl⟩ | ⟨_, hmem⟩
    · omega
    · have hlt := Expr.sizeOf_statements hmem
      omega

/-- A step stays inside of what it was inside of, and may go into a body, or from a loop into its
condition or a pass. -/
theorem Next.sites_cases {a b : Moment} (h : setting.Next a b) :
    b.sites = a.sites ∨ (∃ id, b.sites = .body id :: a.sites) ∨
      ∃ id, (b.sites = .test id :: a.sites ∨ b.sites = .pass id :: a.sites) ∧ a.expr.IsScoped := by
  cases h with
  | body sites _ _ _ => exact .inr (.inl ⟨_, rfl⟩)
  | round sites label _ hturn =>
    rcases hturn.mem with ⟨rfl, _⟩ | ⟨rfl, _⟩
    · exact .inr (.inr ⟨_, .inl rfl, trivial⟩)
    · exact .inr (.inr ⟨_, .inr rfl, trivial⟩)
  | _ => exact .inl rfl

theorem Next.bodies_le {a b : Moment} (h : setting.Next a b) :
    Site.bodies a.sites ≤ Site.bodies b.sites := by
  -- Only entering a body adds to the count.
  rcases h.sites_cases with h | ⟨_, h⟩ | ⟨_, h | h, _⟩
  · exact Nat.le_of_eq (congrArg Site.bodies h).symm
  · exact h ▸ Nat.le_succ _
  · exact Nat.le_of_eq (congrArg Site.bodies h).symm
  · exact Nat.le_of_eq (congrArg Site.bodies h).symm

end Setting

end CallFolding
