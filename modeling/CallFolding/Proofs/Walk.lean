import CallFolding.Eligibility.Check
import CallFolding.Proofs.Moment
import CallFolding.Proofs.RunRelation

/-!
What a walk comes to, and how little of its trail matters.

A walk passes an expression if and only if the expression is allowed where it is, the function it
calls can be entered, and the walk passes its parts (`checkExpr_eq_ok_iff`). All else about walks is
an induction over the parts of expressions. So a walk with more on its trail and less room passes
everything that one with less on its trail does (`checkAt_of_below`), and an eligible call is passed
wherever it stands (`passes_of_check`). Such a call can be replaced by a value without any walk
coming to another result, be it that all is well or the first reason to reject
(`check_of_replaced`).
-/

set_option autoImplicit false

namespace CallFolding

/-! ## The parts of expressions -/

namespace Expr

/-- The expressions right inside of this one, each with the loop, if any, that it is the condition
or the body of. -/
def parts : Expr → List (Option LoopId × Expr)
  | const _ => []
  | read _ _ => []
  | declare _ _ init => init.toList.map (none, ·)
  | assign _ _ value => [(none, value)]
  | call id receiver args => (Call.operands ⟨id, receiver, args⟩).map (none, ·)
  | block statements => statements.map (none, ·)
  | branch arms => arms.flatMap fun arm => [(none, arm.1), (none, arm.2)]
  | loop _ id _ test body => (some id, test) :: body.toList.map (some id, ·)
  | returnFrom _ value => [(none, value)]
  | breakLoop _ => []
  | continueLoop _ => []

/-- A part is smaller than what it is part of. -/
theorem sizeOf_part {e : Expr} {part : Option LoopId × Expr} (h : part ∈ e.parts) :
    sizeOf part.2 < sizeOf e := by
  obtain ⟨around, part⟩ := part
  cases e with
  | const value => cases h
  | read name owner => cases h
  | declare name type init =>
    simp only [parts, List.mem_map, Option.mem_toList, Prod.mk.injEq] at h
    obtain ⟨_, rfl, -, rfl⟩ := h
    simp only [declare.sizeOf_spec, Option.some.sizeOf_spec]
    omega
  | assign name owner value =>
    simp only [parts, List.mem_singleton, Prod.mk.injEq] at h
    simp only [assign.sizeOf_spec, h.2]
    omega
  | call id receiver args =>
    simp only [parts, List.mem_map, Prod.mk.injEq] at h
    obtain ⟨_, hmem, -, rfl⟩ := h
    exact Call.sizeOf_operand hmem
  | block statements =>
    simp only [parts, List.mem_map, Prod.mk.injEq] at h
    obtain ⟨_, hmem, -, rfl⟩ := h
    have hlt := List.sizeOf_lt_of_mem hmem
    simp only [block.sizeOf_spec]
    omega
  | branch arms =>
    simp only [parts, List.mem_flatMap, List.mem_cons, List.not_mem_nil, or_false,
      Prod.mk.injEq] at h
    obtain ⟨⟨test, result⟩, hmem, heq⟩ := h
    have hlt := List.sizeOf_lt_of_mem hmem
    simp only [Prod.mk.sizeOf_spec] at hlt
    simp only [branch.sizeOf_spec]
    rcases heq with ⟨-, rfl⟩ | ⟨-, rfl⟩ <;> omega
  | loop kind id label test body =>
    simp only [parts, List.mem_cons, List.mem_map, Option.mem_toList, Prod.mk.injEq] at h
    simp only [loop.sizeOf_spec]
    rcases h with ⟨-, rfl⟩ | ⟨_, rfl, -, rfl⟩
    · omega
    · simp only [Option.some.sizeOf_spec]
      omega
  | returnFrom target value =>
    simp only [parts, List.mem_singleton, Prod.mk.injEq] at h
    simp only [returnFrom.sizeOf_spec, h.2]
    omega
  | breakLoop target => cases h
  | continueLoop target => cases h

/-- What holds of an expression as soon as it holds of its parts holds of every expression. -/
theorem induction_on_parts {motive : Expr → Prop}
    (h : ∀ e, (∀ part ∈ e.parts, motive part.2) → motive e) (e : Expr) : motive e := by
  induction hn : sizeOf e using Nat.strongRecOn generalizing e with
  | ind n ih =>
    refine h e fun part hmem => ih _ ?_ part.2 rfl
    rw [← hn]
    exact sizeOf_part hmem

end Expr

/-! ## Places and trails -/

/-- What an expression can refer to: the function around it, and the loops of that function around
it. -/
structure Place where
  owner : Option FunctionId := none
  loops : List LoopId := []

namespace Place

/-- The place one loop further in. -/
def inLoop (place : Place) (id : LoopId) : Place :=
  { place with loops := id :: place.loops }

/-- The place that is inside these loops, innermost first, at another place. -/
def within (place : Place) (loops : List LoopId) : Place :=
  { place with loops := loops ++ place.loops }

/-- The place of the body of a function. -/
def body (id : FunctionId) : Place :=
  { owner := some id }

end Place

namespace Trail

/-- The place a walk has reached. -/
def place : Trail → Place
  | [] => {}
  | .function id :: _ => .body id
  | .loop id :: rest => (place rest).inLoop id

/-- The function a walk is in is the owner of its place. -/
theorem currentFunction?_eq : ∀ trail : Trail, trail.currentFunction? = trail.place.owner
  | [] => rfl
  | .function _ :: _ => rfl
  | .loop _ :: rest => currentFunction?_eq rest

/-- A loop can be jumped out of exactly if it is around the place. -/
theorem isInLoop_iff (id : LoopId) : ∀ trail : Trail, trail.isInLoop id ↔ id ∈ trail.place.loops
  | [] => by simp [isInLoop, place]
  | .function _ :: _ => by simp [isInLoop, place, Place.body]
  | .loop other :: rest => by
    rw [isInLoop, Bool.or_eq_true, beq_iff_eq, isInLoop_iff id rest, eq_comm]
    simp [place, Place.inLoop]

/-- The function is on the trail. -/
def Enters (trail : Trail) (id : FunctionId) : Prop :=
  Enclosing.function id ∈ trail

/-- Entering a function puts it on the trail. -/
theorem enters_function {trail : Trail} {id other : FunctionId} :
    Enters (.function other :: trail) id ↔ id = other ∨ trail.Enters id := by
  simp [Enters]

theorem enters_append_loops {loops : List LoopId} {trail : Trail} {id : FunctionId} :
    Trail.Enters (loops.map Enclosing.loop ++ trail) id ↔ trail.Enters id := by
  simp [Enters]

/-- Loops on the trail are loops around the place. -/
theorem place_append_loops (loops : List LoopId) (trail : Trail) :
    Trail.place (loops.map Enclosing.loop ++ trail) = trail.place.within loops := by
  induction loops with
  | nil => rfl
  | cons loop loops ih => simp [Trail.place, ih, Place.inLoop, Place.within]

/-- The second trail allows what the first one does, and has the functions on it that the first one
has. -/
structure Below (trail trail' : Trail) : Prop where
  owner : ∀ id, trail.place.owner = some id → trail'.place.owner = some id
  loops : ∀ id ∈ trail.place.loops, id ∈ trail'.place.loops
  enters : ∀ id, trail.Enters id → trail'.Enters id

/-- The empty trail is below every other. -/
theorem Below.nil (trail : Trail) : Below [] trail :=
  ⟨fun _ => nofun, fun _ => nofun, fun _ => nofun⟩

/-- Going into the same loops keeps one trail below the other. -/
theorem Below.append_loops {trail trail' : Trail} (h : Below trail trail') (loops : List LoopId) :
    Below (loops.map Enclosing.loop ++ trail) (loops.map Enclosing.loop ++ trail') := by
  refine ⟨fun id => ?_, fun id => ?_, fun id => ?_⟩
  · rw [place_append_loops, place_append_loops]
    exact h.owner id
  · rw [place_append_loops, place_append_loops]
    simp only [Place.within, List.mem_append]
    exact Or.imp_right (h.loops id)
  · rw [enters_append_loops, enters_append_loops]
    exact h.enters id

theorem Below.function {trail trail' : Trail} (h : Below trail trail') (id : FunctionId) :
    Below (.function id :: trail) (.function id :: trail') := by
  refine ⟨fun _ hid => hid, fun _ hid => hid, fun other => ?_⟩
  rw [enters_function, enters_function]
  exact Or.imp_right (h.enters other)

end Trail

namespace Eligibility

/-! ## One step of a walk -/

section

variable (program : Program) (marker : String)

/-- What is asked of an expression that is inside these loops of the body of `owner`, or outside of
all bodies if there is no owner. -/
def Allowed (owner : Option FunctionId) (loops : List LoopId) : Expr → Prop
  | .call id receiver args => ∃ function, program.function? id = some function ∧
    (function.classify marker = .marked ∨ function.classify marker = .primitive) ∧
      (Call.operands ⟨id, receiver, args⟩).length = function.arity
  | .declare _ type init => init.isSome ∧ type.isConstant
  | .read _ id => owner = some id
  | .assign _ id _ => owner = some id
  | .returnFrom target _ => owner = some target
  | .breakLoop target => target ∈ loops
  | .continueLoop target => target ∈ loops
  | _ => True

/-- If the expression is a call of a marked function, the function is known. -/
def KnowsCallee (known : Function → Prop) : Expr → Prop
  | .call id _ _ => ∀ function, program.function? id = some function →
    function.classify marker = .marked → known function
  | _ => True

end

section

variable {program : Program} {marker : String}

/-- What is allowed stays so where more can be referred to. -/
theorem Allowed.mono {owner owner' : Option FunctionId} {loops loops' : List LoopId}
    (howner : ∀ id, owner = some id → owner' = some id) (hloops : ∀ id ∈ loops, id ∈ loops')
    {e : Expr} (h : Allowed program marker owner loops e) :
    Allowed program marker owner' loops' e := by
  cases e with
  | read _ id => exact howner id h
  | assign _ id _ => exact howner id h
  | returnFrom target _ => exact howner target h
  | breakLoop target => exact hloops target h
  | continueLoop target => exact hloops target h
  | _ => exact h

/-- A call stays known if more functions are. -/
theorem KnowsCallee.mono {known known' : Function → Prop}
    (hknown : ∀ id f, program.function? id = some f → known f → known' f) {e : Expr}
    (h : KnowsCallee program marker known e) : KnowsCallee program marker known' e := by
  cases e with
  | call id receiver args =>
    intro f hfound hmarked
    exact hknown id f hfound (h f hfound hmarked)
  | _ => trivial

/-- Two checks in a row pass exactly if both do. -/
theorem bind_eq_ok_iff {x : Checked} {f : Unit → Checked} :
    (x >>= f) = .ok () ↔ x = .ok () ∧ f () = .ok () := by
  cases x <;> simp [bind, Except.bind]

theorem require_eq_ok_iff {condition : Bool} {reason : Rejection} :
    require condition reason = .ok () ↔ condition = true := by
  cases condition <;> simp [require]

/-- A check of the function that is called passes if there is one and it does. -/
theorem callee_bind_eq_ok_iff {id : FunctionId} {f : Function → Checked} :
    (callee program id >>= f) = .ok () ↔
      ∃ function, program.function? id = some function ∧ f function = .ok () := by
  unfold callee
  cases program.function? id with
  | none => simp [bind, Except.bind]
  | some function => simp [bind, Except.bind]

/-- Walks in a row pass exactly if all of them do. -/
theorem inOrder_eq_ok_iff {trail : Trail} (walks : List Walk) :
    inOrder walks trail = .ok () ↔ ∀ walk ∈ walks, walk trail = .ok () := by
  induction walks with
  | nil => simp [inOrder]
  | cons walk walks ih => simp [inOrder, bind_eq_ok_iff, ih]

variable {enter enter' : Expr → Walk}

theorem checkEach_eq_map (es : List Expr) :
    checkEach program marker enter es = es.map (checkExpr program marker enter) := by
  induction es with
  | nil => rfl
  | cons e es ih => rw [checkEach, ih, List.map_cons]

/-- Arms are walked through test by test and result by result. -/
theorem checkArms_eq_flatMap (arms : List (Expr × Expr)) :
    checkArms program marker enter arms = arms.flatMap fun arm =>
      [checkExpr program marker enter arm.1, checkExpr program marker enter arm.2] := by
  induction arms with
  | nil => rfl
  | cons arm arms ih =>
    obtain ⟨test, result⟩ := arm
    rw [checkArms, ih, List.flatMap_cons]
    rfl

/-- Operands are walked through in order, the receiver first. -/
theorem operands_eq_map (id : FunctionId) (receiver : Option Expr) (args : List Expr) :
    checkOption program marker enter receiver ++ checkEach program marker enter args =
      (Call.operands ⟨id, receiver, args⟩).map (checkExpr program marker enter) := by
  rw [checkEach_eq_map]
  cases receiver <;> simp [checkOption, Call.operands]

/-- A call is passed if it is allowed, the function can be entered, and its operands are passed. -/
theorem checkCall_eq_ok_iff {trail : Trail} (id : FunctionId) (receiver : Option Expr)
    (args : List Expr) :
    checkExpr program marker enter (.call id receiver args) trail = .ok () ↔
      (Allowed program marker trail.place.owner trail.place.loops (.call id receiver args) ∧
        KnowsCallee program marker (enterFunction enter · trail = .ok ())
          (.call id receiver args)) ∧
        ∀ e ∈ Call.operands ⟨id, receiver, args⟩,
          checkExpr program marker enter e trail = .ok () := by
  rw [checkExpr, operands_eq_map id, checkCall]
  simp only [callee_bind_eq_ok_iff, bind_eq_ok_iff, require_eq_ok_iff, inOrder_eq_ok_iff,
    List.forall_mem_map, List.length_map, beq_iff_eq, Allowed, KnowsCallee]
  constructor
  · rintro ⟨function, hfound, hlength, hoperands, hcallee⟩
    -- What is asked of the function depends on its class: others are never passed, primitive ones
    -- at once, marked ones if they can be entered.
    cases hclass : function.classify marker with
    | other =>
      rw [hclass] at hcallee
      cases hcallee
    | primitive =>
      refine ⟨⟨⟨function, hfound, .inr hclass, hlength⟩, fun other hother hmarked => ?_⟩, hoperands⟩
      obtain rfl := Option.some.inj (hfound.symm.trans hother)
      exact nomatch hclass.symm.trans hmarked
    | marked =>
      rw [hclass] at hcallee
      refine ⟨⟨⟨function, hfound, .inl hclass, hlength⟩, fun other hother _ => ?_⟩, hoperands⟩
      obtain rfl := Option.some.inj (hfound.symm.trans hother)
      exact hcallee
  · rintro ⟨⟨⟨function, hfound, hclass, hlength⟩, hknows⟩, hoperands⟩
    refine ⟨function, hfound, hlength, hoperands, ?_⟩
    rcases hclass with hmarked | hprimitive
    · rw [hmarked]
      exact hknows function hfound hmarked
    · rw [hprimitive]

/-- **One step of a walk.** An expression is passed if it is allowed where it is, the function that
it calls can be entered, and its parts are passed. -/
theorem checkExpr_eq_ok_iff {trail : Trail} (e : Expr) :
    checkExpr program marker enter e trail = .ok () ↔
      (Allowed program marker trail.place.owner trail.place.loops e ∧
        KnowsCallee program marker (enterFunction enter · trail = .ok ()) e) ∧
        ∀ part ∈ e.parts, checkExpr program marker enter part.2
          (part.1.toList.map Enclosing.loop ++ trail) = .ok () := by
  cases e with
  | const value => simp [checkExpr, Allowed, KnowsCallee, Expr.parts]
  | read name owner =>
    simp [checkExpr, Allowed, KnowsCallee, Expr.parts, require_eq_ok_iff, Trail.currentFunction?_eq]
  | declare name type init =>
    cases init <;>
      simp [checkExpr, Allowed, KnowsCallee, Expr.parts, bind_eq_ok_iff, require_eq_ok_iff]
  | assign name owner value =>
    simp [checkExpr, Allowed, KnowsCallee, Expr.parts, bind_eq_ok_iff, require_eq_ok_iff,
      Trail.currentFunction?_eq]
  | call id receiver args =>
    rw [checkCall_eq_ok_iff]
    simp [Expr.parts]
  | block statements =>
    simp [checkExpr, Allowed, KnowsCallee, Expr.parts, checkEach_eq_map, inOrder_eq_ok_iff]
  | branch arms =>
    rw [checkExpr, checkArms_eq_flatMap, inOrder_eq_ok_iff, Expr.parts, List.forall_mem_flatMap,
      List.forall_mem_flatMap]
    simp [Allowed, KnowsCallee]
  | loop kind id label test body =>
    cases body <;> simp [checkExpr, checkOption, Allowed, KnowsCallee, Expr.parts, bind_eq_ok_iff,
      inOrder_eq_ok_iff]
  | returnFrom target value =>
    simp [checkExpr, Allowed, KnowsCallee, Expr.parts, bind_eq_ok_iff, require_eq_ok_iff,
      Trail.currentFunction?_eq]
  | breakLoop target =>
    simp [checkExpr, Allowed, KnowsCallee, Expr.parts, require_eq_ok_iff, Trail.isInLoop_iff]
  | continueLoop target =>
    simp [checkExpr, Allowed, KnowsCallee, Expr.parts, require_eq_ok_iff, Trail.isInLoop_iff]

/-- A function can be entered if it is on the trail, or if it has constant types and its body is
passed. -/
theorem enterFunction_eq_ok_iff {function : Function} {trail : Trail} :
    enterFunction enter function trail = .ok () ↔ trail.Enters function.id ∨
      hasConstantSignature function ∧ ∃ body, function.body = some body ∧
        enter body (.function function.id :: trail) = .ok () := by
  unfold enterFunction
  by_cases henters : trail.Enters function.id
  · rw [if_pos (by simpa [Trail.Enters] using henters)]
    exact ⟨fun _ => .inl henters, fun _ => rfl⟩
  · rw [if_neg (by simpa [Trail.Enters] using henters), bind_eq_ok_iff, require_eq_ok_iff]
    cases hbody : function.body <;> simp [henters]

/-! ## Walks with more on their trail -/

section

variable (henter : ∀ (body : Expr) (trail trail' : Trail), trail.Below trail' →
  enter body trail = .ok () → enter' body trail' = .ok ())

include henter

/-- A function that can be entered can be entered with more on the trail. -/
theorem enterFunction_of_below {function : Function} {trail trail' : Trail}
    (hbelow : trail.Below trail') (h : enterFunction enter function trail = .ok ()) :
    enterFunction enter' function trail' = .ok () := by
  rw [enterFunction_eq_ok_iff] at h ⊢
  rcases h with henters | ⟨hsignature, body, hbody, h⟩
  · exact .inl (hbelow.enters _ henters)
  · exact .inr ⟨hsignature, body, hbody, henter _ _ _ (hbelow.function _) h⟩

/-- An expression that is passed is passed with more on the trail. -/
theorem checkExpr_of_below {e : Expr} {trail trail' : Trail} (hbelow : trail.Below trail')
    (h : checkExpr program marker enter e trail = .ok ()) :
    checkExpr program marker enter' e trail' = .ok () := by
  induction e using Expr.induction_on_parts generalizing trail trail' with
  | h e ih =>
    obtain ⟨⟨hallowed, hknows⟩, hparts⟩ := (checkExpr_eq_ok_iff e).mp h
    refine (checkExpr_eq_ok_iff e).mpr ⟨⟨?_, ?_⟩, fun part hmem => ?_⟩
    · exact hallowed.mono hbelow.owner hbelow.loops
    · exact hknows.mono fun _ _ _ => enterFunction_of_below henter hbelow
    · exact ih part hmem (hbelow.append_loops _) (hparts part hmem)

end

/-- **More on the trail and less room only make a walk shorter.** What passes a walk also passes one
that can refer to more, has more functions on its trail and has less room to enter others. -/
theorem checkAt_of_below {room room' : Nat} (hroom : room' ≤ room) {e : Expr} {trail trail' : Trail}
    (hbelow : trail.Below trail') (h : checkAt program marker room e trail = .ok ()) :
    checkAt program marker room' e trail' = .ok () := by
  induction room generalizing room' e trail trail' with
  | zero =>
    obtain rfl := Nat.le_zero.mp hroom
    exact checkExpr_of_below (fun _ _ _ _ _ => rfl) hbelow h
  -- With less room the walk stops sooner, and where it stops everything passes.
  | succ room ih =>
    cases room' with
    | zero => exact checkExpr_of_below (fun _ _ _ _ _ => rfl) hbelow h
    | succ room' =>
      have hless : room' ≤ room := Nat.le_of_succ_le_succ hroom
      have hbody : ∀ (body : Expr) (trail trail' : Trail), trail.Below trail' →
          checkAt program marker room body trail = .ok () →
            checkAt program marker room' body trail' = .ok () := fun _ _ _ => ih hless
      exact checkExpr_of_below hbody hbelow h

/-- Every walk passes the call, wherever it stands. -/
def Passes (program : Program) (marker : String) (call : Call) : Prop :=
  ∀ room ≤ program.size, ∀ trail, checkAt program marker room call.expr trail = .ok ()

/-- What a call has to be for the walk to begin with its operands. -/
theorem check_eq_ok_iff_checkAt {call : Call} : check program marker call = .ok () ↔
    (∃ function, program.function? call.callee = some function ∧
      function.classify marker = .marked) ∧
        checkAt program marker program.size call.expr [] = .ok () := by
  rw [check, callee_bind_eq_ok_iff]
  simp only [bind_eq_ok_iff, require_eq_ok_iff, beq_iff_eq]
  constructor
  · rintro ⟨function, hfound, hmarked, h⟩
    exact ⟨⟨function, hfound, hmarked⟩, h⟩
  · rintro ⟨⟨function, hfound, hmarked⟩, h⟩
    exact ⟨function, hfound, hmarked, h⟩

/-- **An eligible call is passed wherever it stands.** -/
theorem passes_of_check {call : Call} (h : check program marker call = .ok ()) :
    Passes program marker call := fun _ hroom trail =>
  checkAt_of_below hroom (.nil trail) (check_eq_ok_iff_checkAt.mp h).2

end

/-! ## Walks through replaced calls -/

section

variable {program program' : Program} {marker : String} {swap : Call → Literal → Prop}
  (hprogram : program.Replaced swap program')

include hprogram

section

variable {enter enter' : Expr → Walk}
  (henter : ∀ {body body' : Expr}, Replaced swap body body' → enter' body' = enter body)

include henter

omit hprogram in
/-- Functions with calls replaced in their bodies are entered alike. -/
theorem enterFunction_of_replaced {function : Function} {body : Option Expr}
    (hbody : ReplacedOption swap function.body body) :
    enterFunction enter' { function with body } = enterFunction enter function := by
  funext trail
  unfold enterFunction
  generalize function.body = old at hbody
  cases hbody with
  | none => rfl
  | some h => simp only [henter h]; rfl

theorem checkCall_of_replaced (id : FunctionId) (operands : List Walk) :
    checkCall program' marker enter' id operands = checkCall program marker enter id operands := by
  funext trail
  unfold checkCall callee
  rcases hprogram id with ⟨hleft, hright⟩ | ⟨function, body, hleft, hright, hbody⟩
  · rw [hleft, hright]
    rfl
  · rw [hleft, hright]
    simp only [bind, Except.bind, hbody.classify_eq, enterFunction_of_replaced henter hbody]
    rfl

variable (hswap : ∀ {call : Call} {value : Literal}, swap call value →
  ∀ trail, checkExpr program marker enter call.expr trail = .ok ())

include hswap

-- The linter looks at each theorem of the block alone and misses what the recursion uses.
set_option linter.unusedSectionVars false in
mutual

/-- Expressions with calls replaced are walked through with the same result. -/
theorem checkExpr_of_replaced : ∀ {e e' : Expr}, Replaced swap e e' →
    checkExpr program' marker enter' e' = checkExpr program marker enter e
  | _, _, .const _ => rfl
  | _, _, .read _ _ => rfl
  | _, _, .declare _ _ .none => rfl
  | _, _, .declare _ _ (.some h) => by
    rw [checkExpr, checkExpr, checkExpr_of_replaced h]
  | _, _, .assign _ _ h => by
    rw [checkExpr, checkExpr, checkExpr_of_replaced h]
  | _, _, .call id hreceiver hargs => by
    rw [checkExpr, checkExpr, checkOption_of_replaced hreceiver, checkEach_of_replaced hargs]
    exact checkCall_of_replaced hprogram henter id _
  | _, _, .value h => by
    -- The value passes, as the call does that it took the place of.
    funext trail
    rw [checkExpr]
    exact (hswap h trail).symm
  | _, _, .block h => by
    rw [checkExpr, checkExpr, checkEach_of_replaced h]
  | _, _, .branch h => by
    rw [checkExpr, checkExpr, checkArms_of_replaced h]
  | _, _, .loop _ _ _ htest hbody => by
    rw [checkExpr, checkExpr, checkExpr_of_replaced htest, checkOption_of_replaced hbody]
  | _, _, .returnFrom _ h => by
    rw [checkExpr, checkExpr, checkExpr_of_replaced h]
  | _, _, .breakLoop _ => rfl
  | _, _, .continueLoop _ => rfl

theorem checkOption_of_replaced : ∀ {e e' : Option Expr}, ReplacedOption swap e e' →
    checkOption program' marker enter' e' = checkOption program marker enter e
  | _, _, .none => rfl
  | _, _, .some h => by
    rw [checkOption, checkOption, checkExpr_of_replaced h]

theorem checkEach_of_replaced : ∀ {es es' : List Expr}, ReplacedEach swap es es' →
    checkEach program' marker enter' es' = checkEach program marker enter es
  | _, _, .nil => rfl
  | _, _, .cons h hs => by
    rw [checkEach, checkEach, checkExpr_of_replaced h, checkEach_of_replaced hs]

theorem checkArms_of_replaced : ∀ {arms arms' : List (Expr × Expr)}, ReplacedArms swap arms arms' →
    checkArms program' marker enter' arms' = checkArms program marker enter arms
  | _, _, .nil => rfl
  | _, _, .cons htest hresult h => by
    rw [checkArms, checkArms, checkExpr_of_replaced htest, checkExpr_of_replaced hresult,
      checkArms_of_replaced h]

end

end

variable (hswap : ∀ {call : Call} {value : Literal}, swap call value → Passes program marker call)

include hswap

/-- No walk can tell whether calls that every walk passes have been replaced. -/
theorem checkAt_of_replaced {room : Nat} (hroom : room ≤ program.size) {e e' : Expr}
    (h : Replaced swap e e') :
    checkAt program' marker room e' = checkAt program marker room e := by
  induction room generalizing e e' with
  | zero => exact checkExpr_of_replaced hprogram (fun _ => rfl) (fun h => hswap h 0 hroom) h
  | succ room ih =>
    exact checkExpr_of_replaced hprogram (ih (Nat.le_of_succ_le hroom))
      (fun h => hswap h (room + 1) hroom) h

/-- **Replacing calls that every walk passes keeps what is found about a call**, be it eligible or
not, and the reason if it is not. -/
theorem check_of_replaced {call call' : Call} (h : Replaced swap call.expr call'.expr) :
    check program' marker call' = check program marker call := by
  -- The call itself is not replaced, since what it became is a call again.
  have hcallee : call'.callee = call.callee := by
    obtain ⟨id, receiver, args⟩ := call
    obtain ⟨id', receiver', args'⟩ := call'
    change Replaced swap (.call id receiver args) (.call id' receiver' args') at h
    cases h
    rfl
  unfold check callee
  rw [hcallee, hprogram.size_eq, checkAt_of_replaced hprogram hswap (Nat.le_refl _) h]
  rcases hprogram call.callee with ⟨hleft, hright⟩ | ⟨function, body, hleft, hright, hbody⟩
  · rw [hleft, hright]
  · rw [hleft, hright]
    simp only [bind, Except.bind, hbody.classify_eq]
    rfl

end

end Eligibility

end CallFolding
