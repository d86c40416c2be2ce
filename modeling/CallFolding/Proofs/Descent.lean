import CallFolding.Proofs.Walk
import Mathlib.Data.List.Nodup

/-!
Walks end.

A walk enters the bodies of functions, and these call others, or each other. It is written with room
for as many bodies as there are functions, so that it ends is part of how it is written. Here is a
walk that is given no room. It has a list of errands and does the first of them until none is left;
a call that it meets adds the body of the callee, unless the function is on the trail already.
Nothing in it says that the list ever gets shorter.

It does. No function is on a trail twice, and every one of them is in the program (`Trail.Proper`),
so a body is never inside of more bodies than there are functions, and inside of a body expressions
get smaller (`resolves`). In the end the walk has found what the one with room finds, which is
therefore never out of it.
-/

set_option autoImplicit false

namespace CallFolding

/-! ## Functions on a trail -/

namespace Trail

/-- The functions that are entered, innermost first. -/
def functions : Trail → List FunctionId
  | [] => []
  | .function id :: rest => id :: functions rest
  | .loop _ :: rest => functions rest

/-- The functions on a trail are those that it enters. -/
theorem mem_functions {id : FunctionId} {trail : Trail} :
    id ∈ trail.functions ↔ trail.Enters id := by
  induction trail with
  | nil => simp [functions, Enters]
  | cons around rest ih =>
    cases around with
    | function other => rw [functions, List.mem_cons, ih, enters_function]
    | loop other =>
      rw [functions, ih]
      simp [Enters]

/-- Loops on the trail are not among them. -/
theorem functions_append_loops (loops : List LoopId) (trail : Trail) :
    functions (loops.map Enclosing.loop ++ trail) = trail.functions := by
  induction loops with
  | nil => rfl
  | cons loop loops ih => exact ih

/-- The functions on the trail are different from each other, and all of them are in the program. -/
structure Proper (program : Program) (trail : Trail) : Prop where
  distinct : trail.functions.Nodup
  known : ∀ id ∈ trail.functions, ∃ function ∈ program.functions, function.id = id

namespace Proper

variable {program : Program} {trail : Trail}

/-- A walk starts with no function on its trail. -/
theorem nil : Proper program [] :=
  ⟨List.nodup_nil, fun _ h => absurd h List.not_mem_nil⟩

/-- Only the functions on a trail matter. -/
theorem congr {other : Trail} (h : trail.Proper program) (heq : other.functions = trail.functions) :
    other.Proper program := by
  constructor
  · rw [heq]
    exact h.distinct
  · rw [heq]
    exact h.known

/-- A function of the program that is new to the trail may be entered. -/
theorem enter (h : trail.Proper program) {function : Function}
    (hmem : function ∈ program.functions) (hnew : ¬ trail.Enters function.id) :
    Trail.Proper program (.function function.id :: trail) := by
  constructor
  · rw [functions, List.nodup_cons, mem_functions]
    exact ⟨hnew, h.distinct⟩
  · intro id hid
    rw [functions, List.mem_cons] at hid
    rcases hid with rfl | hid
    · exact ⟨function, hmem, rfl⟩
    · exact h.known id hid

/-- There are no more functions on a trail than in the program. -/
theorem length_le (h : trail.Proper program) : trail.functions.length ≤ program.size := by
  have hsubset : trail.functions ⊆ program.functions.toList.map Function.id := by
    intro id hid
    obtain ⟨function, hmem, rfl⟩ := h.known id hid
    exact List.mem_map_of_mem (Array.mem_toList_iff.mpr hmem)
  have hle := h.distinct.length_le_of_subset hsubset
  rwa [List.length_map, Array.length_toList] at hle

end Proper

end Trail

namespace Eligibility

/-! ## Errands -/

/-- Something that is left to be done by a walk. -/
inductive Errand where
  /-- Stop if this is a reason to reject. -/
  | judge (found : Checked)
  /-- Walk through a part of an expression. -/
  | part (e : Expr) (trail : Trail)
  /-- Walk through the body of a function. -/
  | body (e : Expr) (trail : Trail)

section

variable (program : Program) (marker : String)

/-- What is asked of an expression before its parts are looked at. -/
def demand (trail : Trail) : Expr → Checked
  | .read name owner => require (trail.currentFunction? == some owner) (.foreignVariable name owner)
  | .declare name _ none => .error (.uninitializedVariable name)
  | .declare name type (some _) => require type.isConstant (.nonConstantVariable name)
  | .assign name owner _ =>
    require (trail.currentFunction? == some owner) (.foreignVariable name owner)
  | .call id receiver args => do
    let function ← callee program id
    require ((Call.operands ⟨id, receiver, args⟩).length == function.arity)
      (.arityMismatch function.qualifiedName function.arity
        (Call.operands ⟨id, receiver, args⟩).length)
  | .returnFrom target _ => require (trail.currentFunction? == some target) (.foreignReturn target)
  | .breakLoop target => require (trail.isInLoop target) (.foreignJump target)
  | .continueLoop target => require (trail.isInLoop target) (.foreignJump target)
  | _ => .ok ()

/-- How a function is entered that is not on the trail. -/
def entry (trail : Trail) (function : Function) : List Errand :=
  [.judge (require (hasConstantSignature function) (.nonConstantSignature function.qualifiedName)),
    match function.body with
    | some body => .body body (.function function.id :: trail)
    | none => .judge (.error (.missingBody function.qualifiedName))]

/-- What is to be done about a function once the operands of a call have passed. -/
def calleeErrands (trail : Trail) (function : Function) : List Errand :=
  match function.classify marker with
  | .primitive => []
  | .other => [.judge (.error (.unsupported function.qualifiedName))]
  | .marked => if trail.contains (.function function.id) then [] else entry trail function

/-- What is to be done about the function that an expression calls, if it calls one. -/
def entries (trail : Trail) : Expr → List Errand
  | .call id _ _ => (program.function? id).elim [] (calleeErrands marker trail)
  | _ => []

/-- All that is to be done about an expression, in order. -/
def errands (e : Expr) (trail : Trail) : List Errand :=
  .judge (demand program trail e) ::
    (e.parts.map fun part => .part part.2 (part.1.toList.map Enclosing.loop ++ trail)) ++
      entries program marker trail e

end

/-- What errands come to, given how to walk through parts and through bodies. -/
def settle (walk enter : Expr → Walk) : List Errand → Checked
  | [] => .ok ()
  | .judge found :: todo => do
    found
    settle walk enter todo
  | .part e trail :: todo => do
    walk e trail
    settle walk enter todo
  | .body e trail :: todo => do
    enter e trail
    settle walk enter todo

section

variable {program : Program} {marker : String} {walk enter : Expr → Walk}

theorem bind_ok (found : Checked) : (found >>= fun _ => .ok ()) = found := by
  cases found <;> rfl

/-- Errands are done in order, up to the first that fails. -/
theorem settle_append (todo rest : List Errand) :
    settle walk enter (todo ++ rest) =
      (settle walk enter todo >>= fun _ => settle walk enter rest) := by
  induction todo with
  | nil => rfl
  | cons errand todo ih =>
    cases errand with
    | judge found => rw [List.cons_append, settle, settle, ih, bind_assoc]
    | part e trail => rw [List.cons_append, settle, settle, ih, bind_assoc]
    | body e trail => rw [List.cons_append, settle, settle, ih, bind_assoc]

/-- Walks in a row are errands of parts. -/
theorem inOrder_eq_settle (trail : Trail) (es : List Expr) :
    inOrder (es.map walk) trail = settle walk enter (es.map (.part · trail)) := by
  induction es with
  | nil => rfl
  | cons e es ih => rw [List.map_cons, List.map_cons, inOrder, settle, ih]

/-- Entering a function that is on the trail takes nothing. -/
theorem enterFunction_eq_settle (function : Function) (trail : Trail) :
    enterFunction enter function trail = settle walk enter
      (if trail.contains (.function function.id) then [] else entry trail function) := by
  unfold enterFunction
  by_cases h : trail.contains (.function function.id)
  · rw [if_pos h, if_pos h]
    rfl
  · rw [if_neg h, if_neg h, entry, settle]
    cases function.body with
    | none => rfl
    | some body => rw [settle, settle, bind_ok]

/-- What is asked of a call, its operands and then its function are the errands of the call. -/
theorem checkCall_eq_settle (id : FunctionId) (receiver : Option Expr) (args : List Expr)
    (trail : Trail) :
    checkCall program marker enter id ((Call.operands ⟨id, receiver, args⟩).map walk) trail =
      settle walk enter (.judge (demand program trail (.call id receiver args)) ::
        (Call.operands ⟨id, receiver, args⟩).map (.part · trail) ++
          entries program marker trail (.call id receiver args)) := by
  -- What the walk does about a function is what the errands say, class by class.
  have hcallee : ∀ function : Function,
      (match function.classify marker with
        | .primitive => .ok ()
        | .other => .error (.unsupported function.qualifiedName)
        | .marked => enterFunction enter function trail : Checked) =
        settle walk enter (calleeErrands marker trail function) := by
    intro function
    unfold calleeErrands
    cases function.classify marker with
    | primitive => rfl
    | other => rfl
    | marked => exact enterFunction_eq_settle function trail
  rw [checkCall, List.cons_append, settle, settle_append, ← inOrder_eq_settle, demand, entries,
    callee]
  cases program.function? id with
  | none => rfl
  | some function =>
    rw [List.length_map]
    exact congrArg _ (funext fun _ => congrArg _ (funext fun _ => hcallee function))

/-- A walk through an expression does the errands of the expression. -/
theorem checkExpr_eq_settle (e : Expr) (trail : Trail) :
    checkExpr program marker enter e trail =
      settle (checkExpr program marker enter) enter (errands program marker e trail) := by
  -- Most walks are the errands of their expression up to an empty rest at the end. Those through
  -- calls, blocks and branches are lists of walks, which are the walks of the parts.
  cases e with
  | const value => rfl
  | read name owner => exact (bind_ok _).symm
  | declare name type init =>
    cases init with
    | none => rfl
    | some init => exact congrArg _ (funext fun _ => (bind_ok _).symm)
  | assign name owner value => exact congrArg _ (funext fun _ => (bind_ok _).symm)
  | call id receiver args =>
    rw [checkExpr, operands_eq_map id, checkCall_eq_settle, errands, Expr.parts, List.map_map]
    rfl
  | block statements =>
    have herrands : errands program marker (.block statements) trail =
        .judge (.ok ()) :: statements.map (.part · trail) := by
      simp [errands, demand, entries, Expr.parts]
    rw [checkExpr, checkEach_eq_map, inOrder_eq_settle, herrands]
    rfl
  | branch arms =>
    have herrands : errands program marker (.branch arms) trail =
        .judge (.ok ()) :: (arms.flatMap fun arm => [arm.1, arm.2]).map (.part · trail) := by
      simp [errands, demand, entries, Expr.parts, List.map_flatMap]
    have hwalks : checkArms program marker enter arms =
        (arms.flatMap fun arm => [arm.1, arm.2]).map (checkExpr program marker enter) := by
      rw [checkArms_eq_flatMap, List.map_flatMap]
      rfl
    rw [checkExpr, hwalks, inOrder_eq_settle, herrands]
    rfl
  | loop kind id label test body =>
    cases body with
    | none => rfl
    | some body => rfl
  | returnFrom target value => exact congrArg _ (funext fun _ => (bind_ok _).symm)
  | breakLoop target => exact (bind_ok _).symm
  | continueLoop target => exact (bind_ok _).symm

/-! ## What an errand leads to -/

/-- Entering a function leads to its body and nowhere else. -/
theorem mem_entry {trail : Trail} {function : Function} {errand : Errand}
    (h : errand ∈ entry trail function) : (∃ found, errand = .judge found) ∨
      ∃ body, errand = .body body (.function function.id :: trail) := by
  rw [entry, List.mem_cons, List.mem_singleton] at h
  rcases h with rfl | rfl
  · exact .inl ⟨_, rfl⟩
  · cases function.body with
    | none => exact .inl ⟨_, rfl⟩
    | some body => exact .inr ⟨body, rfl⟩

/-- A body is only entered of a function that is in the program and not on the trail. -/
theorem mem_entries {e : Expr} {trail : Trail} {errand : Errand}
    (h : errand ∈ entries program marker trail e) : (∃ found, errand = .judge found) ∨
      ∃ function ∈ program.functions, ¬ trail.Enters function.id ∧
        ∃ body, errand = .body body (.function function.id :: trail) := by
  cases e with
  | call id receiver args =>
    rw [entries] at h
    cases hfound : program.function? id with
    | none =>
      rw [hfound] at h
      cases h
    | some function =>
      rw [hfound, Option.elim_some, calleeErrands] at h
      -- Only marked functions are entered.
      cases hclass : function.classify marker with
      | primitive =>
        rw [hclass] at h
        cases h
      | other =>
        rw [hclass] at h
        exact .inl ⟨_, List.mem_singleton.mp h⟩
      | marked =>
        rw [hclass] at h
        by_cases hnew : trail.contains (.function function.id)
        · simp only [if_pos hnew] at h
          cases h
        · simp only [if_neg hnew] at h
          refine (mem_entry h).imp_right fun hbody => ?_
          exact ⟨function, Array.mem_of_getElem? hfound, by simpa [Trail.Enters] using hnew, hbody⟩
  | _ => cases h

/-- An errand leads to parts of its expression, and to the body of a function that was not on the
trail. -/
theorem mem_errands {e : Expr} {trail : Trail} {errand : Errand}
    (h : errand ∈ errands program marker e trail) : (∃ found, errand = .judge found) ∨
      (∃ part ∈ e.parts, errand = .part part.2 (part.1.toList.map Enclosing.loop ++ trail)) ∨
      ∃ function ∈ program.functions, ¬ trail.Enters function.id ∧
        ∃ body, errand = .body body (.function function.id :: trail) := by
  rw [errands, List.cons_append, List.mem_cons, List.mem_append, List.mem_map] at h
  rcases h with rfl | ⟨part, hmem, rfl⟩ | h
  · exact .inl ⟨_, rfl⟩
  · exact .inr (.inl ⟨part, hmem, rfl⟩)
  · exact (mem_entries h).imp_right .inr

/-- An errand of a part is one of a part of the expression. -/
theorem part_of_mem_errands {e inside : Expr} {trail inner : Trail}
    (h : .part inside inner ∈ errands program marker e trail) :
    ∃ part ∈ e.parts, inside = part.2 ∧ inner = part.1.toList.map Enclosing.loop ++ trail := by
  rcases mem_errands h with ⟨found, hfound⟩ | ⟨part, hmem, heq⟩ | ⟨function, -, -, body, hbody⟩
  · cases hfound
  · obtain ⟨rfl, rfl⟩ := Errand.part.inj heq
    exact ⟨part, hmem, rfl, rfl⟩
  · cases hbody

/-- Going into a part leaves the functions on the trail as they are. -/
theorem proper_of_part {e inside : Expr} {trail inner : Trail} (hproper : trail.Proper program)
    (h : .part inside inner ∈ errands program marker e trail) :
    inner.Proper program ∧ inner.functions = trail.functions := by
  obtain ⟨part, -, -, rfl⟩ := part_of_mem_errands h
  have heq := Trail.functions_append_loops part.1.toList trail
  exact ⟨hproper.congr heq, heq⟩

theorem proper_of_body {e body : Expr} {trail inner : Trail} (hproper : trail.Proper program)
    (h : .body body inner ∈ errands program marker e trail) :
    inner.Proper program ∧ inner.functions.length = trail.functions.length + 1 := by
  rcases mem_errands h with ⟨found, hfound⟩ | ⟨part, -, hpart⟩ | ⟨function, hmem, hnew, _, heq⟩
  · cases hfound
  · cases hpart
  · obtain ⟨rfl, rfl⟩ := Errand.body.inj heq
    exact ⟨hproper.enter hmem hnew, rfl⟩

/-- What errands come to depends only on those that are there. -/
theorem settle_congr {walk' enter' : Expr → Walk} {todo : List Errand}
    (hpart : ∀ e trail, .part e trail ∈ todo → walk e trail = walk' e trail)
    (hbody : ∀ e trail, .body e trail ∈ todo → enter e trail = enter' e trail) :
    settle walk enter todo = settle walk' enter' todo := by
  induction todo with
  | nil => rfl
  | cons errand todo ih =>
    have hrest := ih (fun e trail h => hpart e trail (List.mem_cons_of_mem _ h))
      (fun e trail h => hbody e trail (List.mem_cons_of_mem _ h))
    cases errand with
    | judge found => rw [settle, settle, hrest]
    | part e trail => rw [settle, settle, hrest, hpart e trail List.mem_cons_self]
    | body e trail => rw [settle, settle, hrest, hbody e trail List.mem_cons_self]

/-! ## Room -/

/-- How a walk enters bodies that has this much room. -/
def enterAt (program : Program) (marker : String) : Nat → Expr → Walk
  | 0 => fun _ _ => .ok ()
  | room + 1 => checkAt program marker room

/-- A walk with room, one function at a time. -/
theorem checkAt_eq_checkExpr (room : Nat) :
    checkAt program marker room = checkExpr program marker (enterAt program marker room) := by
  cases room <;> rfl

/-- Two walks are the same if they enter alike what has one more function on the trail. -/
theorem checkExpr_congr {enter' : Expr → Walk} {trail : Trail} (hproper : trail.Proper program)
    (henter : ∀ (body : Expr) (inner : Trail), inner.Proper program →
      inner.functions.length = trail.functions.length + 1 → enter body inner = enter' body inner)
    (e : Expr) :
    checkExpr program marker enter e trail = checkExpr program marker enter' e trail := by
  induction e using Expr.induction_on_parts generalizing trail with
  | h e ih =>
    rw [checkExpr_eq_settle, checkExpr_eq_settle]
    apply settle_congr
    · intro inside inner hmem
      obtain ⟨hinner, hfunctions⟩ := proper_of_part hproper hmem
      obtain ⟨part, hpart, rfl, -⟩ := part_of_mem_errands hmem
      apply ih part hpart hinner
      rwa [hfunctions]
    · intro body inner hmem
      obtain ⟨hinner, hlength⟩ := proper_of_body hproper hmem
      exact henter body inner hinner hlength

/-- **It does not matter how much room there is**, if it is enough for the functions that are not on
the trail. -/
theorem checkAt_congr {room room' : Nat} {trail : Trail} (hproper : trail.Proper program)
    (hroom : program.size ≤ room + trail.functions.length)
    (hroom' : program.size ≤ room' + trail.functions.length) (e : Expr) :
    checkAt program marker room e trail = checkAt program marker room' e trail := by
  induction room generalizing room' e trail with
  | zero =>
    rw [checkAt_eq_checkExpr, checkAt_eq_checkExpr]
    refine checkExpr_congr hproper ?_ e
    intro body inner hinner hlength
    -- All functions are on the trail, so there is none to be entered.
    have hle := hinner.length_le
    omega
  | succ room ih =>
    rw [checkAt_eq_checkExpr, checkAt_eq_checkExpr]
    refine checkExpr_congr hproper ?_ e
    intro body inner hinner hlength
    have hle := hinner.length_le
    cases room' with
    | zero => omega
    | succ room' => exact ih hinner (by omega) (by omega) body

/-- The walk as it would be written without room. -/
theorem checkAt_eq_settle {trail : Trail} (hproper : trail.Proper program) (e : Expr) :
    checkAt program marker program.size e trail =
      settle (checkAt program marker program.size) (checkAt program marker program.size)
        (errands program marker e trail) := by
  rw [checkAt_eq_checkExpr, checkExpr_eq_settle]
  refine settle_congr (fun _ _ _ => rfl) ?_
  intro body inner hmem
  obtain ⟨hinner, hlength⟩ := proper_of_body hproper hmem
  have hle := hinner.length_le
  -- There is a function to be entered, so the program is not empty.
  obtain ⟨room, hroom⟩ : ∃ room, program.size = room + 1 := ⟨program.size - 1, by omega⟩
  rw [← checkAt_eq_checkExpr, hroom]
  exact checkAt_congr hinner (by omega) (by omega) body

end

/-! ## Errand by errand -/

/-- A point in the course of a walk. -/
inductive Progress where
  /-- There are errands left. -/
  | going (todo : List Errand)
  | ended (found : Checked)

namespace Progress

/-- Goes on with what is left to be done, unless there is a reason to reject. -/
def after (found : Checked) (todo : List Errand) : Progress :=
  match found with
  | .ok () => going todo
  | .error reason => ended (.error reason)

/-- The trail of a place that is still to be walked through. -/
def At (trail : Trail) : Progress → Prop
  | going todo => ∃ e, .part e trail ∈ todo ∨ .body e trail ∈ todo
  | ended _ => False

section

variable (program : Program) (marker : String)

/-- Does the first errand. -/
def step : Progress → Option Progress
  | going [] => some (ended (.ok ()))
  | going (.judge found :: todo) => some (after found todo)
  | going (.part e trail :: todo) => some (going (errands program marker e trail ++ todo))
  | going (.body e trail :: todo) => some (going (errands program marker e trail ++ todo))
  | ended _ => none

/-- Steps lead from the first point to the second. -/
def Leads : Progress → Progress → Prop :=
  Relation.ReflTransGen fun c c' => step program marker c = some c'

/-- Only calls of marked functions are candidates. -/
def candidate (call : Call) : Checked := do
  let function ← callee program call.callee
  require (function.classify marker == .marked) (.unsupported function.qualifiedName)

/-- The beginning of the walk through a call. -/
def start (call : Call) : Progress :=
  going [.judge (candidate program marker call), .part call.expr []]

/-- Wherever the walk comes to this place, it finds there what the walk with room finds, and nothing
else that is left to be done is touched. -/
def Resolves (e : Expr) (trail : Trail) : Prop :=
  ∀ todo, Leads program marker (going (errands program marker e trail ++ todo))
    (after (checkAt program marker program.size e trail) todo)

end

section

variable {program : Program} {marker : String}

/-- Errands that are resolved one by one come to what they come to together. -/
theorem leads_settle {todo : List Errand}
    (hpart : ∀ e trail, .part e trail ∈ todo → Resolves program marker e trail)
    (hbody : ∀ e trail, .body e trail ∈ todo → Resolves program marker e trail)
    (rest : List Errand) :
    Leads program marker (going (todo ++ rest)) (after (settle (checkAt program marker program.size)
      (checkAt program marker program.size) todo) rest) := by
  induction todo with
  | nil => exact .refl
  | cons errand todo ih =>
    have hrest := ih (fun e trail h => hpart e trail (List.mem_cons_of_mem _ h))
      (fun e trail h => hbody e trail (List.mem_cons_of_mem _ h))
    -- What the first errand found decides whether the others are done.
    have hafter : ∀ found : Checked, Leads program marker (after found (todo ++ rest))
        (after (found >>= fun _ => settle (checkAt program marker program.size)
          (checkAt program marker program.size) todo) rest) := by
      intro found
      cases found with
      | ok value => exact hrest
      | error reason => exact .refl
    cases errand with
    | judge found => exact .head rfl (hafter found)
    | part e trail =>
      have hfirst := hpart e trail List.mem_cons_self (todo ++ rest)
      exact .head rfl (.trans hfirst (hafter _))
    | body e trail =>
      have hfirst := hbody e trail List.mem_cons_self (todo ++ rest)
      exact .head rfl (.trans hfirst (hafter _))

/-- **Every place is walked through.** The induction is on the functions that are not on the trail,
and for the same functions on the expression. -/
theorem resolves {trail : Trail} (hproper : trail.Proper program) (e : Expr) :
    Resolves program marker e trail := by
  induction hn : program.size - trail.functions.length using Nat.strongRecOn
    generalizing e trail with
  | ind n ih =>
    induction e using Expr.induction_on_parts generalizing trail with
    | h e ihe =>
      intro todo
      rw [checkAt_eq_settle hproper]
      refine leads_settle ?_ ?_ todo
      · -- Loops do not count, so a part has as many functions left and is smaller.
        intro inside inner hmem
        obtain ⟨hinner, hfunctions⟩ := proper_of_part hproper hmem
        obtain ⟨part, hpart, rfl, -⟩ := part_of_mem_errands hmem
        exact ihe part hpart hinner (by rw [hfunctions, hn])
      · -- A body may be any expression, but there is one function less left.
        intro body inner hmem
        obtain ⟨hinner, hlength⟩ := proper_of_body hproper hmem
        have hle := hinner.length_le
        exact ih _ (by omega) hinner body rfl

/-- The walk through a call ends with what is found about it. -/
theorem leads_check (call : Call) :
    Leads program marker (start program marker call) (ended (check program marker call)) := by
  have hcheck : check program marker call = settle (checkAt program marker program.size)
      (checkAt program marker program.size)
        [.judge (candidate program marker call), .part call.expr []] := by
    rw [check, settle, settle, settle, bind_ok, candidate, bind_assoc]
  have hresolves : ∀ e trail, Errand.part e trail ∈
      [.judge (candidate program marker call), .part call.expr []] →
        Resolves program marker e trail := by
    intro e trail hmem
    obtain ⟨rfl, rfl⟩ : e = call.expr ∧ trail = [] := by simpa using hmem
    exact resolves .nil call.expr
  have hsettle := leads_settle hresolves (by simp) []
  rw [← hcheck, List.append_nil] at hsettle
  -- A walk that found nothing to reject still has to find that its list is empty.
  cases hfound : check program marker call with
  | ok value =>
    rw [hfound] at hsettle
    exact .tail hsettle rfl
  | error reason =>
    rw [hfound] at hsettle
    exact hsettle

/-! ## Trails in the course of a walk -/

/-- At first there is one place, with nothing on its trail. -/
theorem proper_start (call : Call) {trail : Trail} (h : (start program marker call).At trail) :
    trail.Proper program := by
  obtain ⟨e, hpart | hbody⟩ := h
  · obtain ⟨-, rfl⟩ : e = call.expr ∧ trail = [] := by simpa using hpart
    exact .nil
  · simp at hbody

/-- What is added by an errand with a proper trail has proper trails. -/
theorem proper_errands {e : Expr} {trail inner : Trail} {todo : List Errand}
    (hproper : trail.Proper program)
    (htodo : ∀ trail, (going todo).At trail → trail.Proper program)
    (h : (going (errands program marker e trail ++ todo)).At inner) : inner.Proper program := by
  obtain ⟨inside, hpart | hbody⟩ := h
  · rcases List.mem_append.mp hpart with hnew | hold
    · exact (proper_of_part hproper hnew).1
    · exact htodo inner ⟨inside, .inl hold⟩
  · rcases List.mem_append.mp hbody with hnew | hold
    · exact (proper_of_body hproper hnew).1
    · exact htodo inner ⟨inside, .inr hold⟩

theorem At.cons {errand : Errand} {todo : List Errand} {trail : Trail}
    (h : (going todo).At trail) : (going (errand :: todo)).At trail := by
  obtain ⟨e, h⟩ := h
  exact ⟨e, h.imp (List.mem_cons_of_mem _) (List.mem_cons_of_mem _)⟩

/-- A step keeps trails proper. -/
theorem proper_step {c c' : Progress} (h : ∀ trail, c.At trail → trail.Proper program)
    (hstep : step program marker c = some c') :
    ∀ trail, c'.At trail → trail.Proper program := by
  cases c with
  | ended found => cases hstep
  | going todo =>
    cases todo with
    | nil =>
      obtain rfl : ended (.ok ()) = c' := Option.some.inj hstep
      intro trail hat
      exact hat.elim
    | cons errand todo =>
      -- The errands that are not done yet keep their trails.
      have htodo : ∀ trail, (going todo).At trail → trail.Proper program :=
        fun trail hat => h trail hat.cons
      cases errand with
      | judge found =>
        obtain rfl : after found todo = c' := Option.some.inj hstep
        cases found with
        | ok value => exact htodo
        | error reason => exact fun trail hat => hat.elim
      | part e trail =>
        obtain rfl : going (errands program marker e trail ++ todo) = c' := Option.some.inj hstep
        have hproper := h trail ⟨e, .inl List.mem_cons_self⟩
        exact fun inner hat => proper_errands hproper htodo hat
      | body e trail =>
        obtain rfl : going (errands program marker e trail ++ todo) = c' := Option.some.inj hstep
        have hproper := h trail ⟨e, .inr List.mem_cons_self⟩
        exact fun inner hat => proper_errands hproper htodo hat

theorem proper_leads {call : Call} {c : Progress}
    (h : Leads program marker (start program marker call) c) :
    ∀ trail, c.At trail → trail.Proper program := by
  induction h with
  | refl => exact fun trail hat => proper_start call hat
  | tail hleads hstep ih => exact proper_step ih hstep

/-- A walk that ends ends from every point it comes to. -/
theorem Leads.of_leads_ended {c c' : Progress} {found : Checked}
    (hended : Leads program marker c (ended found)) (h : Leads program marker c c') :
    Leads program marker c' (ended found) := by
  have hunique : Relator.RightUnique fun c c' => step program marker c = some c' := by
    intro a b b' hb hb'
    exact Option.some.inj (hb.symm.trans hb')
  -- There is one way to go, so one of the two points is on the way to the other.
  rcases Relation.ReflTransGen.total_of_right_unique hunique h hended with hd | hd
  · exact hd
  · rcases Relation.ReflTransGen.cases_head hd with rfl | ⟨_, hstep, _⟩
    · exact .refl
    · cases hstep

end

end Progress

/-- **Checking ends on every program.** The walk that is not given any room comes to an end from
every point that it comes to, and has then found what `check` finds. On the trail of every place
that it comes to, the functions are different from each other and are functions of the program, so
there are no more of them than in the program. -/
theorem check_ends (program : Program) (marker : String) (call : Call) :
    Progress.step program marker (.ended (check program marker call)) = none ∧
    ∀ c, Progress.Leads program marker (.start program marker call) c →
      Progress.Leads program marker c (.ended (check program marker call)) ∧
      ∀ trail, c.At trail → trail.functions.Nodup ∧
        (∀ id ∈ trail.functions, ∃ function ∈ program.functions, function.id = id) ∧
        trail.functions.length ≤ program.size := by
  refine ⟨rfl, ?_⟩
  intro c hc
  refine ⟨(Progress.leads_check call).of_leads_ended hc, ?_⟩
  intro trail hat
  have hproper := Progress.proper_leads hc trail hat
  exact ⟨hproper.distinct, hproper.known, hproper.length_le⟩

end Eligibility

end CallFolding
