import CallFolding.Proofs.Rendering

/-!
What is shown of a call that ends a pass.

A pass is ended by a call in the body of some function, after all functions before it were folded
(`run_eq_error_iff`), and the call is found there at a path, with its operands folded
(`exists_isDefective`). For that the pass is told child by child once more, this time as an
equation: fold the children in order, and then look at the node around them (`foldExpr_eq`).

The function is handed on by its qualified name alone, and the diagnostic shows the first function
of that name. Qualified names are not unique: functions local to two functions may have the same
one, and so may overloads. The text shown is that of the function around the call if and only if
the first function of its name has the same text. The span, if there is one, points at the text of
the call in either case.
-/

set_option autoImplicit false

namespace CallFolding

deriving instance DecidableEq for Diagnostic

/-- The error of what has ended with one. -/
def error? {ε α : Type} : Except ε α → Option ε
  | .error e => some e
  | .ok _ => none

theorem eq_error_of_error? {ε α : Type} {x : Except ε α} {e : ε} (h : error? x = some e) :
    x = .error e := by
  cases x with
  | error other =>
    cases h
    rfl
  | ok a => cases h

namespace Fold

variable {α β : Type} {error : FoldError} {records : Array FoldRecord}

/-- A failure is one of the first part, or of the second after the first. -/
theorem bind_eq_error {x : Fold α} {f : α → Fold β} : (x >>= f) records = .error error ↔
      x records = .error error ∨
        ∃ a records₁, x records = .ok (a, records₁) ∧ f a records₁ = .error error := by
  cases hx : x records with
  | error other => simp [bind, StateT.bind, Except.bind, hx]
  | ok pair =>
    obtain ⟨a, records₁⟩ := pair
    simp [bind, StateT.bind, Except.bind, hx]

/-- Of a list that is worked through in order, the first failure is that of some member, and all
before it were fine. -/
theorem mapM_eq_error {f : α → Fold β} {as : List α} :
    as.mapM f records = .error error ↔ ∃ before a after bs records', as = before ++ a :: after ∧
      before.mapM f records = .ok (bs, records') ∧ f a records' = .error error := by
  constructor
  · intro h
    induction as generalizing records with
    | nil => cases h
    | cons a as ih =>
      rw [List.mapM_cons] at h
      -- The first member fails, or it is fine and the failure is further on.
      rcases bind_eq_error.mp h with h | ⟨b, records', hfirst, h⟩
      · exact ⟨[], a, as, [], records, rfl, rfl, h⟩
      · rcases bind_eq_error.mp h with h | ⟨bs, records'', _, h⟩
        · obtain ⟨before, other, after, bs, records'', rfl, hbefore, hother⟩ := ih h
          refine ⟨a :: before, other, after, b :: bs, records'', rfl, ?_, hother⟩
          rw [List.mapM_cons]
          exact bind_eq_ok.mpr ⟨b, records', hfirst,
            bind_eq_ok.mpr ⟨bs, records'', hbefore, rfl⟩⟩
        · cases h
  · rintro ⟨before, a, after, bs, records', rfl, hbefore, ha⟩
    rw [List.mapM_append, List.mapM_cons]
    refine bind_eq_error.mpr (.inr ⟨bs, records', hbefore, ?_⟩)
    exact bind_eq_error.mpr (.inl (bind_eq_error.mpr (.inl ha)))

end Fold

theorem Expr.expr_of_call? {e : Expr} {call : Call} (h : e.call? = some call) : e = call.expr := by
  cases e with
  | call id receiver args =>
    cases h
    rfl
  | _ => cases h

/-- The children of a call are its operands. -/
theorem Call.children_expr (call : Call) : call.expr.children = call.operands :=
  Expr.children_call call.callee call.receiver call.args

namespace Folding

section

variable (program : Program) (options : Options) (caller : FunctionId)

/-! ## A pass as an equation -/

/-- Lists in a row are folded in a row. -/
theorem foldEach_append (es es' : List Expr) : foldEach program options caller (es ++ es') = (do
    let first ← foldEach program options caller es
    let rest ← foldEach program options caller es'
    return first ++ rest) := by
  induction es with
  | nil => simp [foldEach]
  | cons e es ih => simp [foldEach, ih]

/-- The conditions and results of arms are folded in turn. -/
theorem foldArms_eq (arms : List (Expr × Expr)) : foldArms program options caller arms = (do
    let es ← foldEach program options caller (Expr.branch arms).children
    return Expr.pairs es) := by
  induction arms with
  | nil => simp [foldArms, foldEach, Expr.children, Expr.parts, Expr.pairs]
  | cons arm arms ih =>
    rw [Expr.children_branch_cons]
    simp [foldArms, foldEach, ih, Expr.pairs]

/-- What is left to do with a node whose children are folded. -/
def complete (node : Expr) : Fold Expr :=
  match node.call? with
  | some call => foldCall program options caller call
  | none => return node

/-- **The children are folded in order, and then the node around them is looked at.** -/
theorem foldExpr_eq (e : Expr) : foldExpr program options caller e = (do
    let es ← foldEach program options caller e.children
    complete program options caller (e.withChildren es)) := by
  cases e with
  | declare name type init =>
    cases init <;>
      simp [foldExpr, foldOption, foldEach, complete, Expr.withChildren, Expr.call?]
  | call id receiver args =>
    rw [Expr.children_call, foldEach_append]
    cases receiver <;>
      simp [foldExpr, foldOption, foldEach, complete, Expr.withChildren, Expr.call?]
  | branch arms => simp [foldExpr, foldArms_eq, complete, Expr.withChildren, Expr.call?]
  | loop kind id label test body =>
    cases body <;>
      simp [foldExpr, foldOption, foldEach, complete, Expr.withChildren, Expr.call?]
  | block statements => simp [foldExpr, complete, Expr.withChildren, Expr.call?]
  | _ =>
    simp [foldExpr, foldEach, Expr.children, Expr.parts, complete, Expr.withChildren, Expr.call?]

/-! ## The call that ends a pass -/

/-- The call at this path of `body` ends the pass: `call` is what it has become with its operands
folded, and its evaluation shows this defect. -/
structure IsDefective (body : Expr) (path : Path) (call : Call) (cause : Defect) : Prop where
  written : ∃ original new, body.at? path = some (Call.expr original) ∧
    original.callee = call.callee ∧
    Fold.Each (Folds program options caller) original.operands call.operands new
  candidate : isCandidate program options call.callee
  judged : judge program options call = .error cause

/-- The pass is ended in the body of this function: those before it are folded. -/
def FailsIn (function : Function) (error : FoldError) : Prop :=
  ∃ before after folded records, program.functions.toList = before ++ function :: after ∧
    before.mapM (foldFunction program options) #[] = .ok (folded, records) ∧
    foldFunction program options function records = .error error

end

variable {program : Program} {options : Options} {caller : FunctionId} {error : FoldError}
  {records : Array FoldRecord}

/-- Only a call has a call around its children. -/
theorem exists_call_of_withChildren {e : Expr} {es : List Expr} {call : Call}
    (h : (e.withChildren es).call? = some call) :
    ∃ original : Call, e = original.expr ∧ original.callee = call.callee := by
  cases e with
  | call id receiver args =>
    cases h
    exact ⟨⟨id, receiver, args⟩, rfl, rfl⟩
  | _ => cases h

/-- A call ends the pass if it is looked at and its evaluation shows a defect. -/
theorem foldCall_eq_error {call : Call}
    (h : foldCall program options caller call records = .error error) :
    ∃ cause, isCandidate program options call.callee ∧
      judge program options call = .error cause ∧
      error = ⟨program.functionName caller, program.render call.expr, cause⟩ := by
  unfold foldCall at h
  by_cases hcandidate : isCandidate program options call.callee
  · rw [if_pos hcandidate] at h
    cases hjudge : judge program options call with
    | error cause =>
      simp only [hjudge] at h
      cases h
      exact ⟨cause, hcandidate, rfl, rfl⟩
    | ok verdict =>
      simp only [hjudge] at h
      cases verdict <;> cases h
  · rw [if_neg hcandidate] at h
    cases h

/-- A list is ended by one of its expressions. -/
theorem foldEach_eq_error {es : List Expr}
    (h : foldEach program options caller es records = .error error) :
    ∃ (i : Nat) (e : Expr) (records' : Array FoldRecord), es[i]? = some e ∧
      foldExpr program options caller e records' = .error error := by
  induction es generalizing records with
  | nil => cases h
  | cons e es ih =>
    rw [foldEach] at h
    rcases Fold.bind_eq_error.mp h with h | ⟨e', records', _, h⟩
    · exact ⟨0, e, records, rfl, h⟩
    · rcases Fold.bind_eq_error.mp h with h | ⟨es', records'', _, h⟩
      · obtain ⟨i, inner, records'', hget, hinner⟩ := ih h
        exact ⟨i + 1, inner, records'', hget, hinner⟩
      · cases h

/-- **What ends a pass is a call somewhere in the body.** -/
theorem exists_isDefective {e : Expr}
    (h : foldExpr program options caller e records = .error error) :
    ∃ path call cause, IsDefective program options caller e path call cause ∧
      error = ⟨program.functionName caller, program.render call.expr, cause⟩ := by
  induction e using Expr.induction_on_children generalizing records with
  | h e ih =>
    rw [foldExpr_eq] at h
    rcases Fold.bind_eq_error.mp h with h | ⟨es, records', hchildren, h⟩
    · -- The pass is ended inside one of the children.
      obtain ⟨i, child, records', hget, hchild⟩ := foldEach_eq_error h
      obtain ⟨path, call, cause, hdefective, herror⟩ :=
        ih child (List.mem_of_getElem? hget) hchild
      obtain ⟨original, new, hat, hfolded⟩ := hdefective.written
      refine ⟨i :: path, call, cause, ⟨⟨original, new, ?_, hfolded⟩, hdefective.candidate,
        hdefective.judged⟩, herror⟩
      rw [Expr.at?, hget]
      exact hat
    · -- The children are folded, so the node itself is the call.
      obtain ⟨new, -, heach⟩ := adds_foldEach program options caller e.children _ _ _ hchildren
      have heach := heach.each
      unfold complete at h
      cases hnode : (e.withChildren es).call? with
      | none =>
        simp only [hnode] at h
        cases h
      | some call =>
        simp only [hnode] at h
        obtain ⟨cause, hcandidate, hjudge, herror⟩ := foldCall_eq_error h
        obtain ⟨original, rfl, hcallee⟩ := exists_call_of_withChildren hnode
        refine ⟨[], call, cause, ⟨⟨original, new, rfl, hcallee, ?_⟩, hcandidate, hjudge⟩, herror⟩
        have hoperands : call.operands = es := by
          rw [← call.children_expr, ← Expr.expr_of_call? hnode]
          exact Expr.children_withChildren heach.length_eq
        rw [hoperands, ← original.children_expr]
        exact heach

/-! ## The function in which a pass is ended -/

/-- **A pass that is ended is ended in a function.** -/
theorem run_eq_error_iff : run program options = .error error ↔
    ∃ function, FailsIn program options function error := by
  -- Nothing that a pass does besides folding its functions can fail.
  have hrun : run program options = .error error ↔
      program.functions.toList.mapM (foldFunction program options) #[] = .error error := by
    cases hmap : program.functions.toList.mapM (foldFunction program options) #[] with
    | error other =>
      simp [run, Array.mapM_eq_mapM_toList, StateT.run, Functor.map, StateT.map, bind,
        Except.bind, hmap]
    | ok pair =>
      simp [run, Array.mapM_eq_mapM_toList, StateT.run, Functor.map, StateT.map, bind,
        Except.bind, pure, Except.pure, hmap]
  rw [hrun, Fold.mapM_eq_error]
  constructor
  · rintro ⟨before, function, after, folded, records, hsplit, hbefore, hfunction⟩
    exact ⟨function, before, after, folded, records, hsplit, hbefore, hfunction⟩
  · rintro ⟨function, before, after, folded, records, hsplit, hbefore, hfunction⟩
    exact ⟨before, function, after, folded, records, hsplit, hbefore, hfunction⟩

/-- What ends a pass is a call in the body of the function in which it is ended. -/
theorem FailsIn.exists_isDefective {function : Function}
    (h : FailsIn program options function error) : ∃ body path call cause,
      function.body = some body ∧ IsDefective program options function.id body path call cause ∧
      error = ⟨program.functionName function.id, program.render call.expr, cause⟩ := by
  obtain ⟨before, after, folded, records, -, -, hfails⟩ := h
  unfold foldFunction at hfails
  rcases Fold.bind_eq_error.mp hfails with hfails | ⟨body, records', _, hfails⟩
  · cases hbody : function.body with
    | none =>
      rw [hbody] at hfails
      cases hfails
    | some body =>
      rw [hbody, foldOption] at hfails
      rcases Fold.bind_eq_error.mp hfails with hfails | ⟨body', records', _, hfails⟩
      · obtain ⟨path, call, cause, hdefective, herror⟩ := Folding.exists_isDefective hfails
        exact ⟨body, path, call, cause, rfl, hdefective, herror⟩
      · cases hfails
  · cases hfails

/-- The function stands at the position that its number says. -/
theorem FailsIn.function?_eq {function : Function} (h : FailsIn program options function error)
    (hnumbered : program.IsNumbered) : program.function? function.id = some function := by
  obtain ⟨before, after, folded, records, hsplit, -⟩ := h
  have hget : program.function? ⟨before.length⟩ = some function := by
    rw [Program.function?, ← Array.getElem?_toList, hsplit, List.getElem?_append_right
      (Nat.le_refl _), Nat.sub_self]
    rfl
  rw [hnumbered _ _ hget, hget]

end Folding

/-! ## The function that is shown -/

/-- The function with this number is the first of this qualified name. -/
structure Program.IsFirstOf (program : Program) (name : String) (id : FunctionId) : Prop where
  named : ∃ function, program.function? id = some function ∧ function.qualifiedName = name
  earlier : ∀ (other : FunctionId) (function : Function), other.index < id.index →
    program.function? other = some function → function.qualifiedName ≠ name

/-- There is one first function of a name. -/
theorem Program.IsFirstOf.unique {program : Program} {name : String} {id other : FunctionId}
    (h : program.IsFirstOf name id) (h' : program.IsFirstOf name other) : id = other := by
  obtain ⟨function, hfound, hname⟩ := h.named
  obtain ⟨function', hfound', hname'⟩ := h'.named
  rcases Nat.lt_trichotomy id.index other.index with hlt | heq | hgt
  · exact absurd hname (h'.earlier id function hlt hfound)
  · cases id
    cases other
    exact congrArg FunctionId.mk heq
  · exact absurd hname' (h.earlier other function' hgt hfound')

/-- **The first function of the name is shown,** and the call is looked for in its text. -/
theorem Diagnostic.exists_ofFoldError {program : Program} (hnumbered : program.IsNumbered)
    {function : Function} (hfound : program.function? function.id = some function) (call : String)
    (cause : Defect) : ∃ id, program.IsFirstOf function.qualifiedName id ∧
      ofFoldError program ⟨program.functionName function.id, call, cause⟩ =
        .defectiveCall call cause (program.renderFunction id)
          (Span.find? (program.renderFunction id) call) := by
  have hname : program.functionName function.id = function.qualifiedName := by
    rw [Program.functionName, hfound]
  -- The function around the call has that name, so there is a first one that does.
  have hsome : (program.functions.find? (·.qualifiedName == function.qualifiedName)).isSome := by
    rw [Array.find?_isSome]
    exact ⟨function, Array.mem_iff_getElem?.mpr ⟨_, hfound⟩, beq_self_eq_true _⟩
  obtain ⟨first, hfirst⟩ := Option.isSome_iff_exists.mp hsome
  obtain ⟨hnamed, i, hlt, rfl, hearlier⟩ := Array.find?_eq_some_iff_getElem.mp hfirst
  have hget : program.function? ⟨i⟩ = some program.functions[i] := Array.getElem?_eq_getElem hlt
  refine ⟨⟨i⟩, ⟨⟨_, hget, eq_of_beq hnamed⟩, ?_⟩, ?_⟩
  · intro other function' hother hfunction' hsame
    obtain ⟨hlt', rfl⟩ := Array.getElem?_eq_some_iff.mp hfunction'
    have hne := hearlier other.index hother
    rw [hsame, beq_self_eq_true] at hne
    cases hne
  · simp only [ofFoldError, hname, hfirst, hnumbered _ _ hget]

/-- **When the source that is shown is that of the function around the call:** if and only if the
first function of the same qualified name has the same text. The span, if there is one, is that of
the call. -/
theorem fold_shows_caller_iff {program : Program} (options : Options)
    (hnumbered : program.IsNumbered) {function : Function} {error : FoldError}
    (h : Folding.FailsIn program options function error) :
    ∃ body path call cause source span, function.body = some body ∧
      Folding.IsDefective program options function.id body path call cause ∧
      fold program options =
        .error (.defectiveCall (program.render call.expr) cause source span) ∧
      (∀ found, span = some found →
        found.bytes source = (program.render call.expr).toUTF8) ∧
      (source = program.renderFunction function.id ↔
        ∃ id, program.IsFirstOf function.qualifiedName id ∧
          program.renderFunction id = program.renderFunction function.id) := by
  obtain ⟨body, path, call, cause, hbody, hdefective, herror⟩ := h.exists_isDefective
  obtain ⟨id, hfirst, hshown⟩ := Diagnostic.exists_ofFoldError hnumbered
    (h.function?_eq hnumbered) (program.render call.expr) cause
  have hrun : Folding.run program options = .error error := Folding.run_eq_error_iff.mpr ⟨_, h⟩
  refine ⟨body, path, call, cause, program.renderFunction id, _, hbody, hdefective, ?_,
    fun found => Span.bytes_of_find?, ?_⟩
  · rw [fold, hrun, ← hshown, ← herror]
    rfl
  · constructor
    · intro hsame
      exact ⟨id, hfirst, hsame⟩
    -- There is only one first function of that name.
    · rintro ⟨other, hother, hsame⟩
      rw [hfirst.unique hother, hsame]

/-- Two functions have a local function `step`, and the one of the second calls a function that
returns nothing. -/
def twins : Program :=
  Prod.snd <| Build.run do
    let nothing ← Build.declare "evalNothing" [] .int
    Build.define nothing (.block [])
    let first ← Build.declare "first" [] .unit
    let step ← Build.declareLocal first "step" [] .unit
    Build.define step (.block [])
    let second ← Build.declare "second" [] .unit
    let step ← Build.declareLocal second "step" [] .unit
    Build.define step (.block [.call nothing none []])

/-- The second `step`. -/
def laterStep : Function where
  id := ⟨4⟩
  name := "step"
  owner := .function ⟨3⟩
  receiver := none
  parameters := []
  returnType := .unit
  body := some (.block [.call ⟨0⟩ none []])

/-- The pass comes as far as the second `step` and finds a call without a value there. -/
theorem failsIn_laterStep : Folding.FailsIn twins {} laterStep
    ⟨"step", "evalNothing()", .missingReturn "evalNothing"⟩ := by
  have hsplit : twins.functions.toList = twins.functions.toList.take 4 ++ laterStep :: [] := rfl
  have hbefore : ((twins.functions.toList.take 4).mapM (Folding.foldFunction twins {})
      #[]).toOption.map (·.2) = some #[] := by
    decide +kernel
  cases hfolded : (twins.functions.toList.take 4).mapM (Folding.foldFunction twins {}) #[] with
  | error other =>
    rw [hfolded] at hbefore
    cases hbefore
  | ok pair =>
    rw [hfolded] at hbefore
    obtain ⟨folded, records⟩ := pair
    cases hbefore
    exact ⟨_, [], folded, #[], hsplit, hfolded, eq_error_of_error? (by decide +kernel)⟩

/-- The text of the first `step` is shown, which does not have the call. -/
theorem fold_twins : Folding.FailsIn twins {} laterStep
      ⟨"step", "evalNothing()", .missingReturn "evalNothing"⟩ ∧
    twins.renderFunction laterStep.id = "fun step(): Unit \x7b\n    evalNothing()\n\x7d" ∧
    fold twins {} = .error (.defectiveCall "evalNothing()" (.missingReturn "evalNothing")
      "fun step(): Unit \x7b\x7d" none) :=
  ⟨failsIn_laterStep, by decide +kernel, eq_error_of_error? (by decide +kernel)⟩

/-- So the first function of that name has another text. -/
theorem fold_shows_caller_iff_twins : twins.IsNumbered ∧
    Folding.FailsIn twins {} laterStep
      ⟨"step", "evalNothing()", .missingReturn "evalNothing"⟩ ∧
    ¬ ∃ id, twins.IsFirstOf laterStep.qualifiedName id ∧
      twins.renderFunction id = twins.renderFunction laterStep.id := by
  have hnumbered : twins.IsNumbered := by decide +kernel
  refine ⟨hnumbered, failsIn_laterStep, ?_⟩
  obtain ⟨body, path, call, cause, source, span, -, -, hfold, -, hiff⟩ :=
    fold_shows_caller_iff {} hnumbered failsIn_laterStep
  -- It is enough that the text shown is not that of the function around the call.
  rw [← hiff]
  have hshown : fold twins {} = .error (.defectiveCall "evalNothing()"
      (.missingReturn "evalNothing") "fun step(): Unit \x7b\x7d" none) :=
    eq_error_of_error? (by decide +kernel)
  rw [hshown, Except.error.injEq, Diagnostic.defectiveCall.injEq] at hfold
  obtain ⟨-, -, rfl, -⟩ := hfold
  decide +kernel

end CallFolding
