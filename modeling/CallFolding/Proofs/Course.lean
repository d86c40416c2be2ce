import CallFolding.Proofs.Stepwise

/-!
The course of an evaluation. That the machine stops with what the evaluator says leaves open how it
gets there. It gets there the same way: whatever evaluation of a part the evaluator makes on the
way, the machine comes to a point where it starts that part in that very state
(`exists_leads_of_reaches`). What holds at every point of the machine holds at every moment of the
evaluation.
-/

set_option autoImplicit false

namespace CallFolding

namespace Setting

variable {setting : Setting}

/-- The room that is left and the bodies that were entered make up the room there was. -/
theorem Next.room_add_bodies {a b : Moment} (h : setting.Next a b) :
    b.room + Site.bodies b.sites = a.room + Site.bodies a.sites := by
  cases h with
  | body sites _ _ _ =>
    simp only [Site.bodies]
    omega
  | round sites label _ hturn =>
    simp only
    rw [Site.bodies_of_inRound hturn]
  | _ => rfl

/-- The sum stays the same along the whole evaluation. -/
theorem Reaches.room_add_bodies {a b : Moment} (h : setting.Reaches a b) :
    b.room + Site.bodies b.sites = a.room + Site.bodies a.sites := by
  induction h with
  | refl => rfl
  | tail _ hnext ih => exact hnext.room_add_bodies.trans ih

/-- In the course of a call on its own, the room is what the activations that are open leave. -/
theorem Reaches.room_eq {call : Call} {b : Moment} (h : setting.Reaches (setting.start call) b) :
    setting.limits.room b.machine.scope.depth = b.room := by
  have hsum : b.room + Site.bodies b.sites = setting.limits.depth := h.room_add_bodies
  have hplaced := h.isPlaced (setting.isPlaced_start call)
  rw [Limits.room, hplaced.depth]
  omega

end Setting

namespace Stepwise

variable {setting : Setting}

/-! ## Turns -/

section

variable {room : Nat} {m m' : Machine} {e : Expr} (tasks : List Task)
  (hm : setting.limits.room m.scope.depth = room)

include hm

/-- A statement that comes to its turn is started by the machine. -/
theorem exists_leads_statements {es : List Expr} (last : Literal)
    (h : Run.InTurn (setting.evalAt room) es m e m') :
    ∃ tasks', Leads setting (statementsFrom m tasks last es) ⟨.start e m', tasks'⟩ := by
  induction h generalizing last with
  | head e es m => exact ⟨_, .refl⟩
  -- The statements before have values, which the machine agrees on.
  | @tail e₀ x es value m m₁ m' he _ ih =>
    have hm₁ := room_of_ok (setting.steady_evalAt room e₀) he hm
    obtain ⟨tasks', hleads⟩ := ih hm₁ value
    refine ⟨tasks', (agrees setting room e₀).resume hm ?_⟩
    rw [he]
    exact hleads

theorem exists_leads_operands (use : Use) (values : List Literal) {es : List Expr}
    (h : Run.InTurn (setting.evalAt room) es m e m') :
    ∃ tasks', Leads setting (operandsFrom m tasks use values es) ⟨.start e m', tasks'⟩ := by
  induction h generalizing values with
  | head e es m => exact ⟨_, .refl⟩
  | @tail e₀ x es value m m₁ m' he _ ih =>
    have hm₁ := room_of_ok (setting.steady_evalAt room e₀) he hm
    obtain ⟨tasks', hleads⟩ := ih hm₁ (values ++ [value])
    refine ⟨tasks', (agrees setting room e₀).resume hm ?_⟩
    rw [he]
    exact hleads

theorem exists_leads_arms {arms : List (Expr × Expr)}
    (h : Run.InArms (setting.evalAt room) arms m e m') :
    ∃ tasks', Leads setting (armsFrom m tasks arms) ⟨.start e m', tasks'⟩ := by
  induction h with
  | test arm arms m => exact ⟨_, .refl⟩
  | result htest =>
    refine ⟨tasks, (agrees setting room _).resume hm ?_⟩
    rw [resume, resumeBy, ← Run.condition_eq, htest]
    exact .refl
  | next htest _ ih =>
    have hm₁ := room_of_ok (setting.steady_evalAt room _).condition htest hm
    obtain ⟨tasks', hleads⟩ := ih hm₁
    refine ⟨tasks', (agrees setting room _).resume hm ?_⟩
    rw [resume, resumeBy, ← Run.condition_eq, htest]
    exact hleads

/-! ## Rounds -/

variable (kind : LoopKind) (id : LoopId) (test : Expr) (es : List Expr)

/-- The machine goes through the rounds of a loop that ask for more. -/
theorem leads_rounds (h : Run.Rounds (Run.round setting.limits kind id
      (setting.evalAt room test) (es.map (setting.evalAt room))) m m') :
    Leads setting (roundFrom m tasks kind id test es) (roundFrom m' tasks kind id test es) := by
  induction h using Relation.ReflTransGen.head_induction_on with
  | refl => exact .refl
  | head hround _ ih =>
    have hleads := leads_round tasks hm kind id (agrees setting room test)
      fun e (_ : e ∈ es) => agrees setting room e
    -- A round that asks for more is followed by the next one.
    rw [hround] at hleads
    have hm₁ := room_of_ok (setting.steady_round room kind id test es) hround hm
    exact Relation.ReflTransGen.trans hleads (ih hm₁)

/-- What a round comes to start is started by the machine. -/
theorem exists_leads_round {site : Site}
    (h : Run.InRound setting.limits id (setting.evalAt room) test es kind m site e m') :
    ∃ tasks', Leads setting (roundFrom m tasks kind id test es) ⟨.start e m', tasks'⟩ := by
  cases h with
  | firstTest => exact ⟨_, .refl⟩
  | @firstPass m m₁ m' e htest hturn =>
    have hm₁ := room_of_ok (setting.steady_evalAt room test).condition htest hm
    obtain ⟨tasks', hleads⟩ := exists_leads_statements (m := m₁.framed)
      (.pass .testFirst id test es :: tasks) hm₁ .unit hturn
    refine ⟨tasks', (agrees setting room test).resume hm ?_⟩
    rw [resume, resumeBy, ← Run.condition_eq, htest]
    exact hleads
  | lastPass hturn =>
    exact exists_leads_statements (m := m.framed) (.pass .testLast id test es :: tasks) hm .unit
      hturn
  -- The test comes after the pass and the count, in the frame they were made in.
  | lastTest hpass hcharge =>
    have hstatements := leads_statements (m := m.framed) (.pass .testLast id e es :: tasks) hm
      (fun e (_ : e ∈ es) => agrees setting room e) .unit
    have hcounted : (Run.pass id (es.map (setting.evalAt room)) >>= Run.count setting.limits)
        m.framed = .ok true m' :=
      (Run.bind_of_ok hpass).trans (Run.bind_of_ok hcharge)
    refine ⟨.test .testLast id e es :: tasks, Relation.ReflTransGen.trans hstatements ?_⟩
    refine Leads.resume ?_
    rw [resume, resumeBy, ← Run.pass_eq, ← Run.bind_eq_andThen, hcounted]
    exact .refl

end

/-! ## Calls -/

section

variable {room : Nat} {m : Machine} (tasks : List Task) {call : Call} {function : Function}

/-- A call that is going to enter a body starts with its operands. -/
theorem callFrom_of_enters {body : Expr} (h : setting.Enters call function body)
    (hm : setting.limits.room m.scope.depth = room + 1) :
    callFrom setting m tasks call =
      operandsFrom m tasks (.body function body) [] call.operands := by
  simp only [callFrom, h.found, h.arity, ne_eq, not_true_eq_false, if_false, h.marked, markedFrom,
    Limits.enter, hm, Nat.succ_ne_zero, h.body]

theorem callFrom_of_applies (h : setting.Applies call function) :
    callFrom setting m tasks call = primitiveFrom m tasks function call.operands := by
  simp only [callFrom, h.found, h.arity, ne_eq, not_true_eq_false, if_false, h.primitive]

end

/-! ## Moments -/

/-- A part that the evaluator starts the machine comes to start, in the same state. -/
theorem exists_leads_of_next {a b : Moment} (h : setting.Next a b)
    (ha : setting.limits.room a.machine.scope.depth = a.room) (tasks : List Task) :
    ∃ tasks', Leads setting ⟨.start a.expr a.machine, tasks⟩
      ⟨.start b.expr b.machine, tasks'⟩ := by
  suffices hleads : ∃ tasks', Leads setting (enter setting a.machine tasks a.expr)
      ⟨.start b.expr b.machine, tasks'⟩ from hleads.imp fun _ => Leads.enter
  cases h with
  | @inner sites room m e e' hinner =>
    cases e with
    | declare name type init =>
      cases hinner
      exact ⟨_, .refl⟩
    | assign name owner value =>
      cases hinner
      exact ⟨_, .refl⟩
    | returnFrom target value =>
      cases hinner
      exact ⟨_, .refl⟩
    | _ => cases hinner
  | operand sites henters hturn =>
    show ∃ tasks', Leads setting (callFrom setting _ tasks _) ⟨_, tasks'⟩
    rw [callFrom_of_enters tasks henters ha]
    exact exists_leads_operands tasks ha _ [] hturn
  | @body sites room m m₁ m' call function body values henters hvalues hbind =>
    show ∃ tasks', Leads setting (callFrom setting _ tasks _) ⟨_, tasks'⟩
    rw [callFrom_of_enters tasks henters ha]
    have hleads := leads_operands tasks ha (.body function body)
      (fun e (_ : e ∈ call.operands) => agrees setting (room + 1) e) []
    -- All operands have values, and the activation for the body is opened.
    rw [hvalues, onValue, List.nil_append, useFrom, bodyFrom, hbind] at hleads
    exact ⟨_, hleads⟩
  | firstOperand sites room m happlies hoperands =>
    show ∃ tasks', Leads setting (callFrom setting m tasks _) ⟨_, tasks'⟩
    rw [callFrom_of_applies tasks happlies, hoperands]
    exact ⟨_, .refl⟩
  -- The first operand did not settle the operation, so the others get their turn.
  | otherOperand sites happlies hoperands hfirst hopen hturn =>
    show ∃ tasks', Leads setting (callFrom setting _ tasks _) ⟨_, tasks'⟩
    rw [callFrom_of_applies tasks happlies, hoperands]
    have hm₁ := room_of_ok (setting.steady_evalAt _ _) hfirst ha
    obtain ⟨tasks', hleads⟩ := exists_leads_operands tasks hm₁ (.primitive _) [_] hturn
    refine ⟨tasks', (agrees setting _ _).resume ha ?_⟩
    rw [hfirst, resume, resumeBy, onValue, if_neg hopen]
    exact hleads
  | @statement sites room m m' es e hturn =>
    exact exists_leads_statements (m := m.framed) (.frame :: tasks) ha .unit hturn
  | @arm sites room m m' arms e hturn =>
    exact exists_leads_arms (m := m.framed) (.frame :: tasks) ha hturn
  | @round sites room m m₁ m' kind id label test e body site hrounds hturn =>
    -- From the frame of the loop through the rounds before, and then into this one.
    have hbefore := leads_rounds (m := m.framed) (.frame :: tasks) ha kind id test
      (Expr.statements body) hrounds
    have hm₁ : setting.limits.room m₁.scope.depth = room := by
      have hdepth : m₁.scope.depth = m.framed.scope.depth :=
        (hrounds.keeps (setting.steady_round room kind id test _)).depth_eq
      rw [hdepth]
      exact ha
    obtain ⟨tasks', hleads⟩ := exists_leads_round (.frame :: tasks) hm₁ kind id test
      (Expr.statements body) hturn
    exact ⟨tasks', Relation.ReflTransGen.trans hbefore hleads⟩

/-- **The machine comes to every moment of an evaluation.** -/
theorem exists_leads_of_reaches {call : Call} {b : Moment}
    (h : setting.Reaches (setting.start call) b) :
    ∃ tasks, Leads setting ⟨.start call.expr {}, []⟩ ⟨.start b.expr b.machine, tasks⟩ := by
  induction h with
  | refl => exact ⟨[], .refl⟩
  | tail hreach hnext ih =>
    obtain ⟨tasks, hleads⟩ := ih
    -- The room at a moment is known from the activations, which the machine has as well.
    obtain ⟨tasks', hleads'⟩ := exists_leads_of_next hnext (Setting.Reaches.room_eq hreach) tasks
    exact ⟨tasks', Relation.ReflTransGen.trans hleads hleads'⟩

end Stepwise

end CallFolding
