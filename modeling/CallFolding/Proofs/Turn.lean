import CallFolding.Proofs.Loop
import Mathlib.Logic.Relation

/-!
Whose turn it is. Evaluating a list of expressions, the arms of a branch or the rounds of a loop
evaluates some of their parts, each in the state that the earlier ones left. The relations here say
which parts, and in which states, and the lemmas that an exit comes from the part whose turn it is:
what one part ends with, the whole ends with, and the other way round.
-/

set_option autoImplicit false

namespace CallFolding

/-- Defects of types and variables, which any part of a tree can have. -/
def Defect.IsIncidental : Defect → Prop
  | .bind (.alreadyDefined _) => True
  | .bind (.undefined _) => True
  | .operation _ => True
  | .nonBooleanCondition _ => True
  | .missingReturn _ => True
  | _ => False

/-- Failures whose origin is not followed: limits, faults, and defects of types and variables. -/
def Exit.IsIncidental : Exit → Prop
  | .failed (.defect cause) => cause.IsIncidental
  | .failed _ => True
  | _ => False

/-- What an evaluation can be inside of. -/
inductive Site where
  /-- The body of a function. -/
  | body (function : FunctionId)
  /-- The condition of a loop. -/
  | test (loop : LoopId)
  /-- A pass through the body of a loop. -/
  | pass (loop : LoopId)
deriving DecidableEq

/-- What is at the site takes the exit. -/
def Site.Catches : Site → Exit → Prop
  | .body function, .returned target _ => target = function
  | .pass loop, .broke target => target = loop
  | .pass loop, .continued target => target = loop
  | _, _ => False

namespace Run

section

variable (run : Expr → Run Literal)

/-- Of expressions that are evaluated in order, starting in the first state, it comes to the turn of
this one, in the second state. -/
inductive InTurn : List Expr → Machine → Expr → Machine → Prop
  | head (e : Expr) (es : List Expr) (m : Machine) : InTurn (e :: es) m e m
  | tail {e x : Expr} {es : List Expr} {value : Literal} {m m₁ m' : Machine} :
    run e m = .ok value m₁ → InTurn es m₁ x m' → InTurn (e :: es) m x m'

/-- Of arms that are tried in order, starting in the first state, it comes to the turn of this
condition or result, in the second state. -/
inductive InArms : List (Expr × Expr) → Machine → Expr → Machine → Prop
  | test (arm : Expr × Expr) (arms : List (Expr × Expr)) (m : Machine) :
    InArms (arm :: arms) m arm.1 m
  | result {arm : Expr × Expr} {arms : List (Expr × Expr)} {m m' : Machine} :
    (run arm.1).condition m = .ok true m' → InArms (arm :: arms) m arm.2 m'
  | next {arm : Expr × Expr} {arms : List (Expr × Expr)} {x : Expr} {m m₁ m' : Machine} :
    (run arm.1).condition m = .ok false m₁ → InArms arms m₁ x m' → InArms (arm :: arms) m x m'

end

variable {run : Expr → Run Literal} {m m' : Machine} {x : Exit}

/-! ## Sequences -/

/-- A sequence exits with what the expression whose turn it is exits with. -/
theorem inOrder_eq_error {last : Literal} {es : List Expr} :
    inOrder last (es.map run) m = .error x m' ↔
      ∃ e m₁, InTurn run es m e m₁ ∧ run e m₁ = .error x m' := by
  induction es generalizing last m with
  | nil =>
    constructor
    · exact nofun
    · rintro ⟨_, _, h, _⟩
      cases h
  | cons e es ih =>
    rw [List.map_cons, inOrder, bind_eq_error]
    constructor
    · rintro (h | ⟨value, m₁, he, h⟩)
      · exact ⟨e, m, .head e es m, h⟩
      · obtain ⟨e', m₂, hturn, h⟩ := ih.mp h
        exact ⟨e', m₂, .tail he hturn, h⟩
    · rintro ⟨e', m₂, hturn, h⟩
      cases hturn with
      | head => exact .inl h
      | tail he hturn => exact .inr ⟨_, _, he, ih.mpr ⟨e', m₂, hturn, h⟩⟩

theorem values_eq_error {es : List Expr} :
    values (es.map run) m = .error x m' ↔
      ∃ e m₁, InTurn run es m e m₁ ∧ run e m₁ = .error x m' := by
  induction es generalizing m with
  | nil =>
    constructor
    · exact nofun
    · rintro ⟨_, _, h, _⟩
      cases h
  | cons e es ih =>
    rw [List.map_cons, values, bind_eq_error]
    constructor
    · rintro (h | ⟨value, m₁, he, h⟩)
      · exact ⟨e, m, .head e es m, h⟩
      -- Putting the value in front of the others cannot fail.
      · rcases bind_eq_error.mp h with h | ⟨_, _, _, h⟩
        · obtain ⟨e', m₂, hturn, h⟩ := ih.mp h
          exact ⟨e', m₂, .tail he hturn, h⟩
        · cases h
    · rintro ⟨e', m₂, hturn, h⟩
      cases hturn with
      | head => exact .inl h
      | tail he hturn =>
        exact .inr ⟨_, _, he, bind_of_error (ih.mpr ⟨e', m₂, hturn, h⟩)⟩

/-! ## Choices -/

/-- A condition exits as its expression does, or because the value is no boolean. -/
theorem condition_eq_error {r : Run Literal} (h : r.condition m = .error x m') :
    r m = .error x m' ∨ x.IsIncidental := by
  rcases bind_eq_error.mp h with h | ⟨value, m₁, _, h⟩
  · exact .inl h
  · unfold truth at h
    cases hb : value.boolean? with
    | some b =>
      rw [hb] at h
      cases h
    | none =>
      rw [hb] at h
      cases h
      exact .inr trivial

/-- A branch exits with what the part of an arm whose turn it is exits with. -/
theorem firstTrue_of_inArms {arms : List (Expr × Expr)} {e : Expr} {m₁ : Machine}
    (hturn : InArms run arms m e m₁) (h : run e m₁ = .error x m') :
    firstTrue (arms.map fun arm => (run arm.1, run arm.2)) m = .error x m' := by
  induction hturn with
  | test arm arms m => exact bind_of_error (bind_of_error h)
  | result htest =>
    rw [List.map_cons, firstTrue, bind_of_ok htest]
    exact h
  | next htest _ ih =>
    rw [List.map_cons, firstTrue, bind_of_ok htest]
    exact ih h

/-- What a branch exits with comes from a part of an arm, or is incidental. -/
theorem firstTrue_eq_error {arms : List (Expr × Expr)}
    (h : firstTrue (arms.map fun arm => (run arm.1, run arm.2)) m = .error x m') :
    (∃ e m₁, InArms run arms m e m₁ ∧ run e m₁ = .error x m') ∨ x.IsIncidental := by
  induction arms generalizing m with
  | nil => cases h
  | cons arm arms ih =>
    rcases bind_eq_error.mp h with h | ⟨holds, m₁, htest, h⟩
    · rcases condition_eq_error h with h | h
      · exact .inl ⟨arm.1, m, .test arm arms m, h⟩
      · exact .inr h
    · cases holds with
      | true => exact .inl ⟨arm.2, m₁, .result htest, h⟩
      | false =>
        refine (ih h).imp_left ?_
        rintro ⟨e, m₂, hturn, h⟩
        exact ⟨e, m₂, .next htest hturn, h⟩

/-! ## Loops -/

/-- Rounds of a loop that ask for more lead from the first state to the second. -/
def Rounds (round : Run Bool) : Machine → Machine → Prop :=
  Relation.ReflTransGen fun m m' => round m = .ok true m'

/-- A loop exits with what one of its rounds exits with. -/
theorem Charging.loop_eq_error {limits : Limits} {round : Run Bool} (h : Charging limits round) :
    loop limits round m = .error x m' ↔ ∃ m₁, Rounds round m m₁ ∧ round m₁ = .error x m' := by
  constructor
  · intro hloop
    -- Each round that asks for more leaves fewer rounds to make.
    induction hn : limits.passes m.steps using Nat.strongRecOn generalizing m with
    | ind n ih =>
      cases hround : round m with
      | error exit m₁ =>
        rw [loop_of_error hround] at hloop
        cases hloop
        exact ⟨m, .refl, hround⟩
      | ok again m₁ =>
        cases again with
        | false =>
          rw [loop_of_false hround] at hloop
          cases hloop
        | true =>
          rw [h.loop_of_true hround] at hloop
          obtain ⟨m₂, hrounds, hexit⟩ := ih _ (hn ▸ h.passes_lt hround) hloop rfl
          exact ⟨m₂, .head hround hrounds, hexit⟩
  · rintro ⟨m₁, hrounds, hexit⟩
    induction hrounds using Relation.ReflTransGen.head_induction_on with
    | refl => exact loop_of_error hexit
    | head hround _ ih => rw [h.loop_of_true hround, ih]

/-- One round of a loop: whether to go on. -/
def round (limits : Limits) : LoopKind → LoopId → Run Literal → List (Run Literal) → Run Bool
  | .testFirst => firstPass limits
  | .testLast => lastPass limits

section

variable (limits : Limits) (id : LoopId) (run : Expr → Run Literal) (test : Expr)
  (statements : List Expr)

/-- In a round that starts in the first state, it comes to the turn of the condition or a statement,
in the second state. -/
inductive InRound : LoopKind → Machine → Site → Expr → Machine → Prop
  | firstTest (m : Machine) : InRound .testFirst m (.test id) test m
  | firstPass {m m₁ m' : Machine} {e : Expr} : (run test).condition m = .ok true m₁ →
    InTurn run statements m₁.framed e m' → InRound .testFirst m (.pass id) e m'
  | lastPass {m m' : Machine} {e : Expr} :
    InTurn run statements m.framed e m' → InRound .testLast m (.pass id) e m'
  | lastTest {m m₁ m' : Machine} : pass id (statements.map run) m.framed = .ok true m₁ →
    tally limits m₁ = .ok () m' → InRound .testLast m (.test id) test m'

end

/-- A jump to the loop ends the pass with a decision to go on or not. -/
theorem endOfPass_of_catches {id : LoopId} (h : (Site.pass id).Catches x) (m : Machine) :
    ∃ again, endOfPass id (.error x m) = .ok again m := by
  cases x with
  | broke target => exact ⟨false, if_pos h⟩
  | continued target => exact ⟨true, if_pos h⟩
  | returned target value => exact h.elim
  | failed cause => exact h.elim

/-- Every other exit goes through the pass. -/
theorem endOfPass_of_not_catches {id : LoopId} (h : ¬ (Site.pass id).Catches x) (m : Machine) :
    endOfPass id (.error x m) = .error x m := by
  cases x with
  | broke target => exact if_neg h
  | continued target => exact if_neg h
  | returned target value => rfl
  | failed cause => rfl

/-- A pass exits with what its statements exit with, unless it is a jump to the loop. -/
theorem pass_eq_error {id : LoopId} {runs : List (Run Literal)} :
    pass id runs m = .error x m' ↔
      inOrder .unit runs m = .error x m' ∧ ¬ (Site.pass id).Catches x := by
  rw [pass_eq]
  cases inOrder .unit runs m with
  | ok value m₁ => exact ⟨nofun, fun h => nomatch h.1⟩
  | error exit m₁ =>
    by_cases hc : (Site.pass id).Catches exit
    · obtain ⟨again, heq⟩ := endOfPass_of_catches hc m₁
      rw [heq]
      refine ⟨nofun, fun ⟨h, hx⟩ => ?_⟩
      cases h
      exact absurd hc hx
    · rw [endOfPass_of_not_catches hc]
      constructor
      · intro h
        cases h
        exact ⟨rfl, hc⟩
      · rintro ⟨h, _⟩
        cases h
        rfl

/-! ## Frames -/

/-- Inside an activation a frame changes nothing about how a run exits. -/
theorem Steady.inFrame_eq_error {α : Type} {r : Run α} (h : r.Steady) (hm : m.scope.Anchored) :
    (∃ m', r.inFrame m = .error x m') ↔ ∃ m', r m.framed = .error x m' := by
  obtain ⟨t, _, _, heq⟩ := h.inFrame_of_anchored hm
  rw [heq]
  cases r m.framed with
  | ok value m₁ => exact ⟨nofun, nofun⟩
  | error exit m₁ =>
    constructor
    · rintro ⟨_, h⟩
      cases h
      exact ⟨m₁, rfl⟩
    · rintro ⟨_, h⟩
      cases h
      exact ⟨_, rfl⟩

section

variable {limits : Limits} {id : LoopId} {test e : Expr} {statements : List Expr}
  {kind : LoopKind} {site : Site} {m₁ : Machine}

/-- A step that cannot be counted is incidental. -/
theorem tally_eq_error (h : tally limits m = .error x m') : x.IsIncidental := by
  unfold tally at h
  split at h <;> cases h
  trivial

variable (hrun : ∀ e, (run e).Steady) (hm : m.scope.Anchored)

include hrun hm

/-- The round exits with what the part whose turn it is exits with, unless the loop takes it. -/
theorem round_of_inRound (hturn : InRound limits id run test statements kind m site e m₁)
    (h : run e m₁ = .error x m') (hcatch : ¬ site.Catches x) :
    ∃ m'', round limits kind id (run test) (statements.map run) m = .error x m'' := by
  cases hturn with
  | firstTest => exact ⟨m', bind_of_error (bind_of_error h)⟩
  | firstPass htest hturn =>
    have hpass := pass_eq_error.mpr ⟨inOrder_eq_error.mpr ⟨e, m₁, hturn, h⟩, hcatch⟩
    have ha := (hrun test).condition.anchored_of_ok htest hm
    -- The pass has a frame of its own, which does not change how it exits.
    obtain ⟨m'', hframe⟩ :=
      ((Steady.pass id (.inOrder hrun _ _)).inFrame_eq_error ha).mpr ⟨m', hpass⟩
    refine ⟨m'', ?_⟩
    rw [round, Run.firstPass, bind_of_ok htest]
    exact bind_of_error hframe
  | lastPass hturn =>
    have hpass := pass_eq_error.mpr ⟨inOrder_eq_error.mpr ⟨e, m₁, hturn, h⟩, hcatch⟩
    exact ((Steady.passAndTest limits id (hrun test) (.inOrder hrun _ _)).inFrame_eq_error hm).mpr
      ⟨m', bind_of_error hpass⟩
  | lastTest hpass hcharge =>
    refine ((Steady.passAndTest limits id (hrun test) (.inOrder hrun _ _)).inFrame_eq_error hm).mpr
      ⟨m', ?_⟩
    rw [passAndTest, bind_of_ok hpass]
    exact (bind_of_ok hcharge).trans (bind_of_error h)

/-- What a round exits with comes from a part of it, or is incidental. -/
theorem round_eq_error
    (h : round limits kind id (run test) (statements.map run) m = .error x m') :
    (∃ site e m₁ m₂, InRound limits id run test statements kind m site e m₁ ∧
      run e m₁ = .error x m₂ ∧ ¬ site.Catches x) ∨ x.IsIncidental := by
  cases kind with
  | testFirst =>
    rcases bind_eq_error.mp h with h | ⟨holds, m₁, htest, h⟩
    · refine (condition_eq_error h).imp_left fun h => ?_
      exact ⟨_, test, m, m', .firstTest m, h, fun h => h⟩
    · cases holds with
      | false => cases h
      | true =>
        -- Only the pass has a frame here, the test and the step do not.
        rcases bind_eq_error.mp h with h | ⟨through, m₂, _, h⟩
        · have ha := (hrun test).condition.anchored_of_ok htest hm
          obtain ⟨m₂, hpass⟩ :=
            ((Steady.pass id (.inOrder hrun _ _)).inFrame_eq_error ha).mp ⟨m', h⟩
          obtain ⟨horder, hcatch⟩ := pass_eq_error.mp hpass
          obtain ⟨e, m₃, hturn, he⟩ := inOrder_eq_error.mp horder
          exact .inl ⟨_, e, m₃, m₂, .firstPass htest hturn, he, hcatch⟩
        · cases through with
          | false => cases h
          | true =>
            rcases bind_eq_error.mp h with h | ⟨_, _, _, h⟩
            · exact .inr (tally_eq_error h)
            · cases h
  | testLast =>
    obtain ⟨m₁, h⟩ := ((Steady.passAndTest limits id (hrun test)
      (.inOrder hrun _ _)).inFrame_eq_error hm).mp ⟨m', h⟩
    rcases bind_eq_error.mp h with hpass | ⟨through, m₂, hpass, h⟩
    · obtain ⟨horder, hcatch⟩ := pass_eq_error.mp hpass
      obtain ⟨e, m₃, hturn, he⟩ := inOrder_eq_error.mp horder
      exact .inl ⟨_, e, m₃, m₁, .lastPass hturn, he, hcatch⟩
    · cases through with
      | false => cases h
      | true =>
        -- The test comes after the step is counted, in the frame of the pass.
        rcases bind_eq_error.mp h with h | ⟨_, m₃, hcharge, h⟩
        · exact .inr (tally_eq_error h)
        · refine (condition_eq_error h).imp_left fun h => ?_
          exact ⟨_, test, m₃, m₁, .lastTest hpass hcharge, h, fun h => h⟩

end

/-! ## The states in between

Getting to a turn is like a run that ends there with a value. -/

section

variable {limits : Limits} {id : LoopId} {test e : Expr} {statements : List Expr}
  {kind : LoopKind} {site : Site}

theorem InTurn.keeps (hrun : ∀ e, (run e).Steady) {es : List Expr} (h : InTurn run es m e m') :
    Keeps m (.ok () m' : Outcome Unit) := by
  induction h with
  | head _ _ m => exact .value () m
  | tail he _ ih => exact ((hrun _).keeps_of_ok he).trans ih

theorem InArms.keeps (hrun : ∀ e, (run e).Steady) {arms : List (Expr × Expr)}
    (h : InArms run arms m e m') : Keeps m (.ok () m' : Outcome Unit) := by
  induction h with
  | test _ _ m => exact .value () m
  | result htest => exact ((hrun _).condition.keeps_of_ok htest).trans (.value () _)
  | next htest _ ih => exact ((hrun _).condition.keeps_of_ok htest).trans ih

theorem Rounds.keeps {round : Run Bool} (hround : round.Steady) (h : Rounds round m m') :
    Keeps m (.ok () m' : Outcome Unit) := by
  induction h using Relation.ReflTransGen.head_induction_on with
  | refl => exact .value () m'
  | head hhead _ ih => exact (hround.keeps_of_ok hhead).trans ih

/-- Within a round the depth of calls stays. -/
theorem InRound.depth_eq (hrun : ∀ e, (run e).Steady)
    (h : InRound limits id run test statements kind m site e m') :
    m'.scope.depth = m.scope.depth := by
  cases h with
  | firstTest => rfl
  | firstPass htest hturn =>
    exact (hturn.keeps hrun).depth_eq.trans ((hrun test).condition.keeps_of_ok htest).depth_eq
  | lastPass hturn => exact (hturn.keeps hrun).depth_eq
  | lastTest hpass hcharge =>
    exact ((Steady.tally limits).keeps_of_ok hcharge).depth_eq.trans
      ((Steady.pass id (.inOrder hrun _ _)).keeps_of_ok hpass).depth_eq

/-- The frames within a round still lead to the root. -/
theorem InRound.rooted (hrun : ∀ e, (run e).Steady)
    (h : InRound limits id run test statements kind m site e m') (hm : m.scope.Rooted) :
    m'.scope.Rooted := by
  cases h with
  | firstTest => exact hm
  | firstPass htest hturn =>
    exact (hturn.keeps hrun).rooted
      (((hrun test).condition.keeps_of_ok htest).rooted hm).pushFrame
  | lastPass hturn => exact (hturn.keeps hrun).rooted hm.pushFrame
  | lastTest hpass hcharge =>
    exact ((Steady.tally limits).keeps_of_ok hcharge).rooted
      (((Steady.pass id (.inOrder hrun _ _)).keeps_of_ok hpass).rooted hm.pushFrame)

/-! ## Turns and parts -/

/-- A turn comes only to an expression of the sequence. -/
theorem InTurn.mem {es : List Expr} (h : InTurn run es m e m') : e ∈ es := by
  induction h with
  | head e es m => exact List.mem_cons_self
  | tail _ _ ih => exact List.mem_cons_of_mem _ ih

/-- In a branch, only to a part of an arm. -/
theorem InArms.mem {arms : List (Expr × Expr)} (h : InArms run arms m e m') :
    ∃ arm ∈ arms, e = arm.1 ∨ e = arm.2 := by
  induction h with
  | test arm arms m => exact ⟨arm, List.mem_cons_self, .inl rfl⟩
  | result _ => exact ⟨_, List.mem_cons_self, .inr rfl⟩
  | next _ _ ih =>
    obtain ⟨arm, hmem, heq⟩ := ih
    exact ⟨arm, List.mem_cons_of_mem _ hmem, heq⟩

/-- In a round, only to the condition or a statement, and the site tells which. -/
theorem InRound.mem (h : InRound limits id run test statements kind m site e m') :
    (site = .test id ∧ e = test) ∨ (site = .pass id ∧ e ∈ statements) := by
  cases h with
  | firstTest => exact .inl ⟨rfl, rfl⟩
  | firstPass _ hturn => exact .inr ⟨rfl, hturn.mem⟩
  | lastPass hturn => exact .inr ⟨rfl, hturn.mem⟩
  | lastTest _ _ => exact .inl ⟨rfl, rfl⟩

end

end Run

end CallFolding
