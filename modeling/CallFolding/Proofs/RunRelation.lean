import CallFolding.Proofs.Run
import Mathlib.Data.List.Forall2

/-!
Relations between runs.

Many facts about evaluation are of one kind: something holds between two runs because it holds
between their parts. `RunRelation` lists what has to be shown for such a fact, one clause for each
primitive way of making a run. The rest is done here once: sequences, choices and calls are put
together from the primitive ways, and the run of an expression from these, so related limits,
programs and expressions give related runs (`RunRelation.evalAt`).

The two expressions may differ: on the right some calls may have been replaced by values
(`Replaced`). A fact about single runs is the case in which both sides are the same and only one of
them is looked at.
-/

set_option autoImplicit false

namespace CallFolding

/-! ## Calls replaced by values -/

section

variable (swap : Call → Literal → Prop)

mutual

/-- The right expression is the left one with some calls replaced, each by a value that `swap`
allows for it. -/
inductive Replaced : Expr → Expr → Prop
  | const (value : Literal) : Replaced (.const value) (.const value)
  | read (name : String) (owner : FunctionId) : Replaced (.read name owner) (.read name owner)
  | declare (name : String) (type : Ty) {init init' : Option Expr} :
    ReplacedOption init init' → Replaced (.declare name type init) (.declare name type init')
  | assign (name : String) (owner : FunctionId) {value value' : Expr} :
    Replaced value value' → Replaced (.assign name owner value) (.assign name owner value')
  | call (id : FunctionId) {receiver receiver' : Option Expr} {args args' : List Expr} :
    ReplacedOption receiver receiver' → ReplacedEach args args' →
      Replaced (.call id receiver args) (.call id receiver' args')
  | value {id : FunctionId} {receiver : Option Expr} {args : List Expr} {value : Literal} :
    swap ⟨id, receiver, args⟩ value → Replaced (.call id receiver args) (.const value)
  | block {statements statements' : List Expr} :
    ReplacedEach statements statements' → Replaced (.block statements) (.block statements')
  | branch {arms arms' : List (Expr × Expr)} :
    ReplacedArms arms arms' → Replaced (.branch arms) (.branch arms')
  | loop (kind : LoopKind) (id : LoopId) (label : Option String) {test test' : Expr}
    {body body' : Option Expr} : Replaced test test' → ReplacedOption body body' →
      Replaced (.loop kind id label test body) (.loop kind id label test' body')
  | returnFrom (target : FunctionId) {value value' : Expr} :
    Replaced value value' → Replaced (.returnFrom target value) (.returnFrom target value')
  | breakLoop (target : LoopId) : Replaced (.breakLoop target) (.breakLoop target)
  | continueLoop (target : LoopId) : Replaced (.continueLoop target) (.continueLoop target)

/-- Calls replaced in an expression that may be missing. It is there on both sides or on none. -/
inductive ReplacedOption : Option Expr → Option Expr → Prop
  | none : ReplacedOption none none
  | some {e e' : Expr} : Replaced e e' → ReplacedOption (some e) (some e')

/-- Calls replaced in each of a list of expressions. -/
inductive ReplacedEach : List Expr → List Expr → Prop
  | nil : ReplacedEach [] []
  | cons {e e' : Expr} {es es' : List Expr} :
    Replaced e e' → ReplacedEach es es' → ReplacedEach (e :: es) (e' :: es')

/-- Calls replaced in the tests and the results of arms. -/
inductive ReplacedArms : List (Expr × Expr) → List (Expr × Expr) → Prop
  | nil : ReplacedArms [] []
  | cons {test test' result result' : Expr} {arms arms' : List (Expr × Expr)} :
    Replaced test test' → Replaced result result' → ReplacedArms arms arms' →
      ReplacedArms ((test, result) :: arms) ((test', result') :: arms')

end

mutual

theorem Replaced.refl : ∀ e : Expr, Replaced swap e e
  | .const value => .const value
  | .read name owner => .read name owner
  | .declare name type init => .declare name type (ReplacedOption.refl init)
  | .assign name owner value => .assign name owner (Replaced.refl value)
  | .call id receiver args =>
    .call id (ReplacedOption.refl receiver) (ReplacedEach.refl args)
  | .block statements => .block (ReplacedEach.refl statements)
  | .branch arms => .branch (ReplacedArms.refl arms)
  | .loop kind id label test body =>
    .loop kind id label (Replaced.refl test) (ReplacedOption.refl body)
  | .returnFrom target value => .returnFrom target (Replaced.refl value)
  | .breakLoop target => .breakLoop target
  | .continueLoop target => .continueLoop target

theorem ReplacedOption.refl : ∀ e : Option Expr, ReplacedOption swap e e
  | none => .none
  | some e => .some (Replaced.refl e)

theorem ReplacedEach.refl : ∀ es : List Expr, ReplacedEach swap es es
  | [] => .nil
  | e :: es => .cons (Replaced.refl e) (ReplacedEach.refl es)

theorem ReplacedArms.refl : ∀ arms : List (Expr × Expr), ReplacedArms swap arms arms
  | [] => .nil
  | (test, result) :: arms =>
    .cons (Replaced.refl test) (Replaced.refl result) (ReplacedArms.refl arms)

end

/-- The right program has the functions of the left one, with calls replaced in their bodies. -/
def Program.Replaced (left right : Program) : Prop :=
  ∀ id, (left.function? id = none ∧ right.function? id = none) ∨
    ∃ function body, left.function? id = some function ∧
      right.function? id = some { function with body } ∧
      ReplacedOption swap function.body body

/-- A program is one in which nothing was replaced. -/
theorem Program.Replaced.refl (program : Program) : program.Replaced swap program := by
  intro id
  cases h : program.function? id with
  | none => exact .inl ⟨rfl, rfl⟩
  | some function => exact .inr ⟨function, function.body, rfl, rfl, ReplacedOption.refl swap _⟩

end

section

variable {swap : Call → Literal → Prop}

/-- A function is called in the same way if calls in its body are replaced. -/
theorem ReplacedOption.classify_eq {function : Function} {body : Option Expr}
    (h : ReplacedOption swap function.body body) (marker : String) :
    ({ function with body } : Function).classify marker = function.classify marker := by
  have hnone : body.isNone = function.body.isNone := by
    generalize function.body = old at h
    cases h <;> rfl
  rw [Function.classify, Function.classify]
  simp only [hnone]
  rfl

/-- Replacing calls adds no function and removes none. -/
theorem Program.Replaced.size_eq {left right : Program} (h : left.Replaced swap right) :
    right.size = left.size := by
  -- The size is the least number that stands for no function.
  have hnone : ∀ i, left.size ≤ i ↔ right.size ≤ i := by
    intro i
    have hfunction : left.function? ⟨i⟩ = none ↔ right.function? ⟨i⟩ = none := by
      rcases h ⟨i⟩ with ⟨hleft, hright⟩ | ⟨function, body, hleft, hright, -⟩
      · simp only [hleft, hright]
      · simp [hleft, hright]
    simpa only [Program.function?, Program.size, Array.getElem?_eq_none_iff] using hfunction
  have hleft := (hnone left.size).mp (Nat.le_refl _)
  have hright := (hnone right.size).mpr (Nat.le_refl _)
  omega

end

/-! ## The clauses -/

namespace Setting

/-- How bodies are run when `room` more activations can be opened: one activation deeper, if there
is room at all. -/
def below (setting : Setting) : Nat → Option (Expr → Run Literal)
  | 0 => none
  | room + 1 => some (setting.evalAt room)

/-- Evaluating at a room is evaluating with what is below it. -/
theorem evalAt_eq (setting : Setting) (room : Nat) :
    setting.evalAt room = setting.evalExpr (setting.below room) := by
  cases room <;> rfl

end Setting

/-- A relation between runs, for each type of result, that every primitive way of making a run
respects. Left runs belong to the left setting and right runs to the right one. -/
structure RunRelation (left right : Setting) where
  Rel : {α : Type} → Run α → Run α → Prop
  /-- How many activations may still be opened on the left and on the right. -/
  Roomy : Nat → Nat → Prop
  value : ∀ {α : Type} (a : α), Rel (pure a : Run α) (pure a)
  /-- Failures of the scope, and limits, are left to the clauses below. -/
  exit : ∀ {α : Type} (x : Exit), ¬ x.IsUnscoped → ¬ x.IsLimit → Rel (throw x : Run α) (throw x)
  andThen : ∀ {α β : Type} {r r' : Run α} {f f' : α → Run β},
    Rel r r' → (∀ a, Rel (f a) (f' a)) → Rel (r >>= f) (r' >>= f')
  define : ∀ name value, Rel (Run.define name value) (Run.define name value)
  assign : ∀ name value, Rel (Run.assign name value) (Run.assign name value)
  read : ∀ name, Rel (Run.read name) (Run.read name)
  inFrame : ∀ {α : Type} {r r' : Run α}, Rel r r' → Rel r.inFrame r'.inFrame
  inActivation : ∀ {α : Type} {r r' : Run α}, Rel r r' → Rel r.inActivation r'.inActivation
  catchReturn : ∀ (function : Function) {r r' : Run Literal},
    Rel r r' → Rel (Setting.catchReturn function r) (Setting.catchReturn function r')
  testFirst : ∀ (id : LoopId) {test test' : Run Literal} {runs runs' : List (Run Literal)},
    Rel test test' → Rel (Run.inOrder .unit runs) (Run.inOrder .unit runs') →
      Rel (Run.testFirst left.limits id test runs) (Run.testFirst right.limits id test' runs')
  testLast : ∀ (id : LoopId) {test test' : Run Literal} {runs runs' : List (Run Literal)},
    Rel test test' → Rel (Run.inOrder .unit runs) (Run.inOrder .unit runs') →
      Rel (Run.testLast left.limits id test runs) (Run.testLast right.limits id test' runs')
  roomy_succ : ∀ {a b : Nat}, Roomy (a + 1) b → ∃ c, b = c + 1 ∧ Roomy a c
  /-- A call that is refused on the left may be refused on the right too, or go on there. -/
  refuse : ∀ {b : Nat} (function : Function) {runs runs' : List (Run Literal)}, Roomy 0 b →
    List.Forall₂ Rel runs runs' → Rel (Run.fail (.limit (.depth left.limits.depth)))
      (right.callMarked (right.below b) function runs')

namespace RunRelation

/-- There is as much room on both sides. -/
theorem exists_room_eq {a b : Nat} (h : a + 1 = b) : ∃ c, b = c + 1 ∧ a = c :=
  ⟨a, h.symm, rfl⟩

/-! ## Sequences and choices -/

section

variable {left right : Setting} (K : RunRelation left right)

/-- Related runs, one after the other, are related sequences. -/
theorem inOrder {runs runs' : List (Run Literal)} (h : List.Forall₂ K.Rel runs runs') :
    ∀ last, K.Rel (Run.inOrder last runs) (Run.inOrder last runs') := by
  induction h with
  | nil => exact fun last => K.value last
  | cons hrun _ ih => exact fun _ => K.andThen hrun fun value => ih value

/-- The values of related runs are collected in related ways. -/
theorem values {runs runs' : List (Run Literal)} (h : List.Forall₂ K.Rel runs runs') :
    K.Rel (Run.values runs) (Run.values runs') := by
  induction h with
  | nil => exact K.value []
  | cons hrun _ ih =>
    exact K.andThen hrun fun value => K.andThen ih fun rest => K.value (value :: rest)

/-- Conditions on related runs are related: a value that is no truth value fails on both sides. -/
theorem condition {run run' : Run Literal} (h : K.Rel run run') :
    K.Rel run.condition run'.condition := by
  refine K.andThen h fun value => ?_
  unfold Run.truth
  cases value.boolean? with
  | none => exact K.exit _ not_false not_false
  | some b => exact K.value b

/-- Choices between related arms are related, since the same arm is taken. -/
theorem firstTrue {arms arms' : List (Run Literal × Run Literal)}
    (h : List.Forall₂ (fun arm arm' => K.Rel arm.1 arm'.1 ∧ K.Rel arm.2 arm'.2) arms arms') :
    K.Rel (Run.firstTrue arms) (Run.firstTrue arms') := by
  induction h with
  | nil => exact K.value Literal.unit
  | cons harm _ ih =>
    refine K.andThen (K.condition harm.1) fun b => ?_
    cases b with
    | false => exact ih
    | true => exact harm.2

/-! ## Calls -/

/-- Binding the operands is a sequence of definitions. -/
theorem bindOperands (operands : List (String × Literal)) :
    K.Rel (Setting.bindOperands operands) (Setting.bindOperands operands) := by
  induction operands with
  | nil => exact K.value ()
  | cons operand rest ih => exact K.andThen (K.define operand.1 operand.2) fun _ => ih

/-- Related bodies are activated in related ways. -/
theorem activate (function : Function) (values : List Literal) {body body' : Run Literal}
    (h : K.Rel body body') :
    K.Rel (Setting.activate function values body) (Setting.activate function values body') :=
  K.catchReturn function (K.inActivation (K.andThen (K.bindOperands _) fun _ => h))

/-- An operation on values knows nothing of the sides. It fails with no limit and no failed scope.
-/
theorem applyPrimitive (function : Function) (values : List Literal) :
    K.Rel (Setting.applyPrimitive function values) (Setting.applyPrimitive function values) := by
  unfold Setting.applyPrimitive
  cases dispatch function.name (Setting.operands function values) with
  | ok value => exact K.value value
  | error error =>
    exact K.exit _ (Exit.not_isUnscoped_ofOperation error) (Exit.not_isLimit_ofOperation error)

/-- Operations are called alike, also where the first value decides alone. -/
theorem callPrimitive (function : Function) {runs runs' : List (Run Literal)}
    (h : List.Forall₂ K.Rel runs runs') :
    K.Rel (Setting.callPrimitive function runs) (Setting.callPrimitive function runs') := by
  cases h with
  | nil => exact K.applyPrimitive function []
  | cons hfirst hrest =>
    -- The first value decides on both sides whether the others are asked for.
    refine K.andThen hfirst fun value => ?_
    split
    · exact K.value value
    · exact K.andThen (K.values hrest) fun values => K.applyPrimitive function (value :: values)

end

section

variable {left right : Setting} (K : RunRelation left right)
variable {swap : Call → Literal → Prop}

/-- What two settings have to have in common: the same functions are marked, the right program is
the left one with calls replaced, and runs of the replaced calls are related to their values. -/
structure Compatible (swap : Call → Literal → Prop) : Prop where
  marker : right.marker = left.marker
  program : left.program.Replaced swap right.program
  swap : ∀ {call : Call} {value : Literal}, swap call value →
    ∀ room, K.Rel (left.evalAt room call.expr) (pure value)

/-- The runs of bodies, one activation deeper, are related. -/
def RelatesBelow (swap : Call → Literal → Prop) (a b : Nat) : Prop :=
  ∀ {c d : Nat}, a = c + 1 → b = d + 1 → K.Roomy c d →
    ∀ {e e' : Expr}, Replaced swap e e' → K.Rel (left.evalAt c e) (right.evalAt d e')

/-- A call of a marked function: where there is room on the left, there is room on the right. -/
theorem callMarked {a b : Nat} (hroom : K.Roomy a b) (hbelow : K.RelatesBelow swap a b)
    (function : Function) {body : Option Expr} (hbody : ReplacedOption swap function.body body)
    {runs runs' : List (Run Literal)} (hruns : List.Forall₂ K.Rel runs runs') :
    K.Rel (left.callMarked (left.below a) function runs)
      (right.callMarked (right.below b) { function with body } runs') := by
  cases a with
  | zero => exact K.refuse _ hroom hruns
  | succ c =>
    obtain ⟨d, rfl, hdeeper⟩ := K.roomy_succ hroom
    -- A body is missing on both sides or on none.
    generalize hold : function.body = old at hbody
    cases hbody with
    | none =>
      simp only [Setting.callMarked, Setting.below, hold]
      exact K.exit _ not_false not_false
    | some he =>
      simp only [Setting.callMarked, Setting.below, hold]
      exact K.andThen (K.values hruns) fun values =>
        K.activate function values (hbelow rfl rfl hdeeper he)

/-- Calls are found and told apart in the same way on both sides: only the bodies differ. -/
theorem call (hK : K.Compatible swap) {a b : Nat} (hroom : K.Roomy a b)
    (hbelow : K.RelatesBelow swap a b) (id : FunctionId) {runs runs' : List (Run Literal)}
    (hruns : List.Forall₂ K.Rel runs runs') :
    K.Rel (left.call (left.below a) id runs) (right.call (right.below b) id runs') := by
  rcases hK.program id with ⟨hleft, hright⟩ | ⟨function, body, hleft, hright, hbody⟩
  · simp only [Setting.call, hleft, hright]
    exact K.exit _ not_false not_false
  · have hclass : ({ function with body } : Function).classify right.marker
        = function.classify left.marker := by rw [hK.marker, hbody.classify_eq]
    have harity : ({ function with body } : Function).arity = function.arity := rfl
    simp only [Setting.call, hleft, hright, hruns.length_eq, harity, hclass]
    by_cases hlength : runs'.length ≠ function.arity
    · rw [if_pos hlength, if_pos hlength]
      exact K.exit _ not_false not_false
    · rw [if_neg hlength, if_neg hlength]
      cases function.classify left.marker with
      | marked => exact K.callMarked hroom hbelow function hbody hruns
      | primitive => exact K.callPrimitive function hruns
      | other => exact K.exit _ not_false not_false

/-! ## Expressions -/

section

variable (hK : K.Compatible swap) {a b : Nat} (hroom : K.Roomy a b)
  (hbelow : K.RelatesBelow swap a b)

include hK hroom hbelow

-- The linter looks at each theorem of the block alone and misses what the recursion uses.
set_option linter.unusedSectionVars false in
mutual

/-- Expressions with calls replaced have related runs, if the runs one activation deeper are
related. -/
theorem evalExpr : ∀ {e e' : Expr}, Replaced swap e e' →
    K.Rel (left.evalExpr (left.below a) e) (right.evalExpr (right.below b) e')
  | _, _, .const value => by
    rw [Setting.evalExpr, Setting.evalExpr]
    exact K.value value
  | _, _, .read name owner => by
    rw [Setting.evalExpr, Setting.evalExpr]
    exact K.read name
  | _, _, .declare name type .none => by
    rw [Setting.evalExpr, Setting.evalExpr]
    exact K.exit _ not_false not_false
  | _, _, .declare name type (.some h) => by
    rw [Setting.evalExpr, Setting.evalExpr]
    exact K.andThen (evalExpr h) fun value => K.andThen (K.define name value) fun _ => K.value value
  | _, _, .assign name owner h => by
    rw [Setting.evalExpr, Setting.evalExpr]
    exact K.andThen (evalExpr h) fun value => K.andThen (K.assign name value) fun _ => K.value value
  | _, _, .call id .none hargs => by
    rw [Setting.evalExpr, Setting.evalExpr]
    exact K.call hK hroom hbelow id (evalEach hargs)
  | _, _, .call id (.some hreceiver) hargs => by
    rw [Setting.evalExpr, Setting.evalExpr]
    exact K.call hK hroom hbelow id (.cons (evalExpr hreceiver) (evalEach hargs))
  | _, _, .value h => by
    -- Here a call was replaced, and the relation says that it may be.
    have hvalue := hK.swap h a
    rw [Setting.evalAt_eq] at hvalue
    rw [Setting.evalExpr.eq_1]
    exact hvalue
  | _, _, .block h => by
    rw [Setting.evalExpr, Setting.evalExpr]
    exact K.inFrame (K.inOrder (evalEach h) .unit)
  | _, _, .branch h => by
    rw [Setting.evalExpr, Setting.evalExpr]
    exact K.inFrame (K.firstTrue (evalArms h))
  | _, _, .loop .testFirst id label htest hbody => by
    rw [Setting.evalExpr, Setting.evalExpr]
    exact K.inFrame (K.testFirst id (evalExpr htest) (K.inOrder (evalBody hbody) .unit))
  | _, _, .loop .testLast id label htest hbody => by
    rw [Setting.evalExpr, Setting.evalExpr]
    exact K.inFrame (K.testLast id (evalExpr htest) (K.inOrder (evalBody hbody) .unit))
  | _, _, .returnFrom target h => by
    rw [Setting.evalExpr, Setting.evalExpr]
    exact K.andThen (evalExpr h) fun value => K.exit _ not_false not_false
  | _, _, .breakLoop target => by
    rw [Setting.evalExpr, Setting.evalExpr]
    exact K.exit _ not_false not_false
  | _, _, .continueLoop target => by
    rw [Setting.evalExpr, Setting.evalExpr]
    exact K.exit _ not_false not_false

theorem evalEach : ∀ {es es' : List Expr}, ReplacedEach swap es es' →
    List.Forall₂ K.Rel (left.evalEach (left.below a) es) (right.evalEach (right.below b) es')
  | _, _, .nil => .nil
  | _, _, .cons h hs => .cons (evalExpr h) (evalEach hs)

theorem evalArms : ∀ {arms arms' : List (Expr × Expr)}, ReplacedArms swap arms arms' →
    List.Forall₂ (fun arm arm' => K.Rel arm.1 arm'.1 ∧ K.Rel arm.2 arm'.2)
      (left.evalArms (left.below a) arms) (right.evalArms (right.below b) arms')
  | _, _, .nil => .nil
  | _, _, .cons htest hresult harms =>
    .cons ⟨evalExpr htest, evalExpr hresult⟩ (evalArms harms)

theorem evalBody : ∀ {body body' : Option Expr}, ReplacedOption swap body body' →
    List.Forall₂ K.Rel (left.evalBody (left.below a) body) (right.evalBody (right.below b) body')
  | _, _, .none => .nil
  | _, _, .some h => by
    have hrun := evalExpr h
    -- A block stands for its statements; any other body is the one statement of the pass.
    cases h with
    | block hs => exact evalEach hs
    | _ => exact .cons hrun .nil

end

end

/-- **Related parts give related runs.** The induction is on the room on the left, and for each room
on the derivation that relates the expressions. -/
theorem evalAt (hK : K.Compatible swap) : ∀ {a b : Nat}, K.Roomy a b →
    ∀ {e e' : Expr}, Replaced swap e e' → K.Rel (left.evalAt a e) (right.evalAt b e') := by
  intro a
  induction a with
  | zero =>
    intro b hroom e e' h
    rw [Setting.evalAt_eq, Setting.evalAt_eq]
    -- There is nothing below, and so nothing to be related there.
    exact K.evalExpr hK hroom (fun hc => nomatch hc) h
  | succ c ih =>
    intro b hroom e e' h
    rw [Setting.evalAt_eq, Setting.evalAt_eq]
    refine K.evalExpr hK hroom ?_ h
    intro c' d hc hd hdeeper
    cases hc
    exact ih hdeeper

end

end RunRelation

end CallFolding
