import CallFolding.Folding.Basic
import CallFolding.Proofs.RunRelation

/-!
The folding pass taken apart. A pass threads its records through the whole program; `Folds` says the
same without threading them: what each part of an expression becomes, and which records that part
adds. Every fact about the pass is an induction over `Folds` and never looks at the pass again.

Two of them are here. What a pass makes of an expression is that expression with calls replaced,
each by a value that it was found to have with its operands folded (`Folds.replaced`). And there is
one record for each call that a pass looks at, operands before the call they belong to
(`Folds.recorded`).
-/

set_option autoImplicit false

namespace CallFolding

/-! ## The calls of a program -/

mutual

/-- The calls in an expression. The operands of a call come before it, the receiver first. -/
def Expr.calls : Expr → List Call
  | .const _ => []
  | .read _ _ => []
  | .declare _ _ init => callsOption init
  | .assign _ _ value => value.calls
  | .call id receiver args => callsOption receiver ++ (callsEach args ++ [⟨id, receiver, args⟩])
  | .block statements => callsEach statements
  | .branch arms => callsArms arms
  | .loop _ _ _ test body => test.calls ++ callsOption body
  | .returnFrom _ value => value.calls
  | .breakLoop _ => []
  | .continueLoop _ => []

/-- The calls in an expression that may be missing. -/
def Expr.callsOption : Option Expr → List Call
  | none => []
  | some e => e.calls

/-- The calls in each of a list of expressions, one after the other. -/
def Expr.callsEach : List Expr → List Call
  | [] => []
  | e :: es => e.calls ++ callsEach es

/-- The calls in the arms of a branch, each test before its result. -/
def Expr.callsArms : List (Expr × Expr) → List Call
  | [] => []
  | (test, result) :: arms => test.calls ++ (result.calls ++ callsArms arms)

end

/-- The calls in the body of a function, each with the function it is in. -/
def Function.calls (function : Function) : List (FunctionId × Call) :=
  (Expr.callsOption function.body).map fun call => (function.id, call)

/-- The calls in the bodies of all functions. -/
def Program.calls (program : Program) : List (FunctionId × Call) :=
  program.functions.toList.flatMap Function.calls

/-- What a verdict leaves in the place of a call. -/
def Verdict.replacement (call : Call) : Verdict → Expr
  | .folded value => .const value
  | _ => call.expr

namespace Fold

variable {α β : Type}

/-- A part of a pass after another comes to its end exactly if both do. -/
theorem bind_eq_ok {x : Fold α} {f : α → Fold β} {b : β} {records records' : Array FoldRecord} :
    (x >>= f) records = .ok (b, records') ↔
      ∃ a records₁, x records = .ok (a, records₁) ∧ f a records₁ = .ok (b, records') := by
  constructor
  · intro h
    cases hx : x records with
    | error error => simp [bind, StateT.bind, Except.bind, hx] at h
    | ok pair => exact ⟨pair.1, pair.2, rfl, by simpa [bind, StateT.bind, Except.bind, hx] using h⟩
  · rintro ⟨a, records₁, hx, hf⟩
    simpa [bind, StateT.bind, Except.bind, hx] using hf

/-- Whenever this part of a pass comes to its end, its result and the records it has added are as
said. -/
def Adds (x : Fold α) (P : α → List FoldRecord → Prop) : Prop :=
  ∀ (records records' : Array FoldRecord) (a : α), x records = .ok (a, records') →
    ∃ new, records'.toList = records.toList ++ new ∧ P a new

namespace Adds

variable {P : α → List FoldRecord → Prop} {Q : β → List FoldRecord → Prop}

/-- What is only put together adds no records. -/
theorem pure {a : α} (h : P a []) : Adds (pure a) P := by
  intro records records' a' heq
  cases heq
  exact ⟨[], (List.append_nil _).symm, h⟩

/-- Records of two parts, one after the other, are added in that order. -/
theorem bind {x : Fold α} {f : α → Fold β} (hx : Adds x P)
    (hf : ∀ a new, P a new → Adds (f a) fun b rest => Q b (new ++ rest)) : Adds (x >>= f) Q := by
  intro records records' b h
  obtain ⟨a, records₁, hfirst, hsecond⟩ := bind_eq_ok.mp h
  obtain ⟨new, hnew, ha⟩ := hx _ _ _ hfirst
  obtain ⟨rest, hrest, hb⟩ := hf a new ha _ _ _ hsecond
  refine ⟨new ++ rest, ?_, hb⟩
  rw [hrest, hnew, List.append_assoc]

/-- A last step that only puts a result together. -/
theorem bind_pure {x : Fold α} {f : α → β} (hx : Adds x P) (hf : ∀ a new, P a new → Q (f a) new) :
    Adds (x >>= fun a => Pure.pure (f a)) Q := by
  refine hx.bind fun a new ha => Adds.pure ?_
  rw [List.append_nil]
  exact hf a new ha

end Adds

/-- What becomes of a list, if this is what becomes of its members, one after the other. -/
inductive Each (P : α → β → List FoldRecord → Prop) : List α → List β → List FoldRecord → Prop
  | nil : Each P [] [] []
  | cons {a : α} {b : β} {as : List α} {bs : List β} {new rest : List FoldRecord} :
    P a b new → Each P as bs rest → Each P (a :: as) (b :: bs) (new ++ rest)

/-- Without the records, what becomes of each member. -/
theorem Each.forall₂ {P : α → β → List FoldRecord → Prop} {as : List α} {bs : List β}
    {new : List FoldRecord} (h : Each P as bs new) :
    List.Forall₂ (fun a b => ∃ new, P a b new) as bs := by
  induction h with
  | nil => exact .nil
  | cons hfirst _ ih => exact .cons ⟨_, hfirst⟩ ih

theorem adds_mapM {f : α → Fold β} {P : α → β → List FoldRecord → Prop}
    (hf : ∀ a, Adds (f a) (P a)) (as : List α) : Adds (as.mapM f) (Each P as) := by
  induction as with
  | nil =>
    rw [List.mapM_nil]
    exact .pure .nil
  | cons a as ih =>
    rw [List.mapM_cons]
    refine (hf a).bind fun b new hb => ih.bind_pure fun bs rest hbs => ?_
    exact .cons hb hbs

end Fold

namespace Folding

variable (program : Program) (options : Options)

/-- A call that is folded has the value that takes its place. -/
theorem evalCall_of_judge {call : Call} {value : Literal}
    (h : judge program options call = .ok (.folded value)) :
    (setting program options).evalCall call = .ok value := by
  unfold judge at h
  split at h
  · cases h
  · split at h <;> cases h
    assumption

/-- A call that is folded has passed the check. -/
theorem check_of_judge {call : Call} {value : Literal}
    (h : judge program options call = .ok (.folded value)) :
    Eligibility.check program options.marker call = .ok () := by
  unfold judge at h
  split at h
  · cases h
  · assumption

/-! ## The pass without its state -/

/-- What takes the place of a call with folded operands, and what is put on record about it. -/
inductive Settled (caller : FunctionId) (call : Call) : Expr → List FoldRecord → Prop
  | judged {verdict : Verdict} : isCandidate program options call.callee →
    judge program options call = .ok verdict →
    Settled caller call (verdict.replacement call)
      [⟨caller, program.render call.expr, verdict⟩]
  | skipped : ¬ isCandidate program options call.callee → Settled caller call call.expr []

mutual

/-- What a pass makes of an expression in the body of `caller`, and the records it adds. -/
inductive Folds (caller : FunctionId) : Expr → Expr → List FoldRecord → Prop
  | const (value : Literal) : Folds caller (.const value) (.const value) []
  | read (name : String) (owner : FunctionId) :
    Folds caller (.read name owner) (.read name owner) []
  | declare (name : String) (type : Ty) {init init' : Option Expr} {new : List FoldRecord} :
    FoldsOption caller init init' new →
      Folds caller (.declare name type init) (.declare name type init') new
  | assign (name : String) (owner : FunctionId) {value value' : Expr} {new : List FoldRecord} :
    Folds caller value value' new →
      Folds caller (.assign name owner value) (.assign name owner value') new
  | call (id : FunctionId) {receiver receiver' : Option Expr} {args args' : List Expr} {e : Expr}
    {first second last : List FoldRecord} : FoldsOption caller receiver receiver' first →
    FoldsEach caller args args' second →
    Settled program options caller ⟨id, receiver', args'⟩ e last →
      Folds caller (.call id receiver args) e (first ++ (second ++ last))
  | block {statements statements' : List Expr} {new : List FoldRecord} :
    FoldsEach caller statements statements' new →
      Folds caller (.block statements) (.block statements') new
  | branch {arms arms' : List (Expr × Expr)} {new : List FoldRecord} :
    FoldsArms caller arms arms' new → Folds caller (.branch arms) (.branch arms') new
  | loop (kind : LoopKind) (id : LoopId) (label : Option String) {test test' : Expr}
    {body body' : Option Expr} {first second : List FoldRecord} :
    Folds caller test test' first → FoldsOption caller body body' second →
      Folds caller (.loop kind id label test body) (.loop kind id label test' body')
        (first ++ second)
  | returnFrom (target : FunctionId) {value value' : Expr} {new : List FoldRecord} :
    Folds caller value value' new →
      Folds caller (.returnFrom target value) (.returnFrom target value') new
  | breakLoop (target : LoopId) : Folds caller (.breakLoop target) (.breakLoop target) []
  | continueLoop (target : LoopId) :
    Folds caller (.continueLoop target) (.continueLoop target) []

/-- What a pass makes of an expression that may be missing. -/
inductive FoldsOption (caller : FunctionId) : Option Expr → Option Expr → List FoldRecord → Prop
  | none : FoldsOption caller none none []
  | some {e e' : Expr} {new : List FoldRecord} :
    Folds caller e e' new → FoldsOption caller (some e) (some e') new

/-- What a pass makes of each of a list of expressions, from left to right. -/
inductive FoldsEach (caller : FunctionId) : List Expr → List Expr → List FoldRecord → Prop
  | nil : FoldsEach caller [] [] []
  | cons {e e' : Expr} {es es' : List Expr} {first rest : List FoldRecord} :
    Folds caller e e' first → FoldsEach caller es es' rest →
      FoldsEach caller (e :: es) (e' :: es') (first ++ rest)

/-- What a pass makes of the arms of a branch, each test before its result. -/
inductive FoldsArms (caller : FunctionId) :
    List (Expr × Expr) → List (Expr × Expr) → List FoldRecord → Prop
  | nil : FoldsArms caller [] [] []
  | cons {test test' result result' : Expr} {arms arms' : List (Expr × Expr)}
    {first second rest : List FoldRecord} : Folds caller test test' first →
    Folds caller result result' second → FoldsArms caller arms arms' rest →
      FoldsArms caller ((test, result) :: arms) ((test', result') :: arms')
        (first ++ (second ++ rest))

end

/-- A pass changes nothing of a function but its body. -/
def FoldsFunction (function function' : Function) (new : List FoldRecord) : Prop :=
  ∃ body, function' = { function with body } ∧
    FoldsOption program options function.id function.body body new

/-- Once its operands are folded, a call is judged and put on record, or left alone. -/
theorem adds_foldCall (caller : FunctionId) (call : Call) :
    Fold.Adds (foldCall program options caller call) (Settled program options caller call) := by
  intro records records' e h
  unfold foldCall at h
  by_cases hcandidate : isCandidate program options call.callee
  · rw [if_pos hcandidate] at h
    cases hjudge : judge program options call with
    | error cause =>
      simp only [hjudge] at h
      cases h
    | ok verdict =>
      simp only [hjudge] at h
      obtain ⟨_, records₁, hpush, h⟩ := Fold.bind_eq_ok.mp h
      cases hpush
      refine ⟨[⟨caller, program.render call.expr, verdict⟩], ?_, ?_⟩
      -- Whatever the verdict is, it is pushed, and only a value takes the place of the call.
      · cases verdict <;> cases h <;> exact Array.toList_push
      · have hplace : e = verdict.replacement call := by cases verdict <;> cases h <;> rfl
        rw [hplace]
        exact .judged hcandidate hjudge
  · rw [if_neg hcandidate] at h
    cases h
    exact ⟨[], (List.append_nil _).symm, .skipped hcandidate⟩

mutual

/-- The pass over an expression does what `Folds` says. -/
theorem adds_foldExpr (caller : FunctionId) : ∀ e : Expr,
    Fold.Adds (foldExpr program options caller e) (Folds program options caller e)
  | .const value => by
    rw [foldExpr]
    exact .pure (.const value)
  | .read name owner => by
    rw [foldExpr]
    exact .pure (.read name owner)
  | .declare name type init => by
    rw [foldExpr]
    exact (adds_foldOption caller init).bind_pure fun _ _ h => .declare name type h
  | .assign name owner value => by
    rw [foldExpr]
    exact (adds_foldExpr caller value).bind_pure fun _ _ h => .assign name owner h
  | .call id receiver args => by
    rw [foldExpr]
    refine (adds_foldOption caller receiver).bind fun receiver' _ hreceiver => ?_
    refine (adds_foldEach caller args).bind fun args' _ hargs => ?_
    -- The call is judged after its operands, so its record comes last.
    intro records records' e h
    obtain ⟨last, hlast, hsettled⟩ := adds_foldCall program options caller _ _ _ _ h
    exact ⟨last, hlast, .call id hreceiver hargs hsettled⟩
  | .block statements => by
    rw [foldExpr]
    exact (adds_foldEach caller statements).bind_pure fun _ _ h => .block h
  | .branch arms => by
    rw [foldExpr]
    exact (adds_foldArms caller arms).bind_pure fun _ _ h => .branch h
  | .loop kind id label test body => by
    rw [foldExpr]
    refine (adds_foldExpr caller test).bind fun _ _ htest => ?_
    exact (adds_foldOption caller body).bind_pure fun _ _ hbody => .loop kind id label htest hbody
  | .returnFrom target value => by
    rw [foldExpr]
    exact (adds_foldExpr caller value).bind_pure fun _ _ h => .returnFrom target h
  | .breakLoop target => by
    rw [foldExpr]
    exact .pure (.breakLoop target)
  | .continueLoop target => by
    rw [foldExpr]
    exact .pure (.continueLoop target)

theorem adds_foldOption (caller : FunctionId) : ∀ e : Option Expr,
    Fold.Adds (foldOption program options caller e) (FoldsOption program options caller e)
  | none => by
    rw [foldOption]
    exact .pure .none
  | some e => by
    rw [foldOption]
    exact (adds_foldExpr caller e).bind_pure fun _ _ h => .some h

theorem adds_foldEach (caller : FunctionId) : ∀ es : List Expr,
    Fold.Adds (foldEach program options caller es) (FoldsEach program options caller es)
  | [] => by
    rw [foldEach]
    exact .pure .nil
  | e :: es => by
    rw [foldEach]
    refine (adds_foldExpr caller e).bind fun _ _ h => ?_
    exact (adds_foldEach caller es).bind_pure fun _ _ hs => .cons h hs

theorem adds_foldArms (caller : FunctionId) : ∀ arms : List (Expr × Expr),
    Fold.Adds (foldArms program options caller arms) (FoldsArms program options caller arms)
  | [] => by
    rw [foldArms]
    exact .pure .nil
  | (test, result) :: arms => by
    rw [foldArms]
    refine (adds_foldExpr caller test).bind fun _ _ htest => ?_
    refine (adds_foldExpr caller result).bind fun _ _ hresult => ?_
    exact (adds_foldArms caller arms).bind_pure fun _ _ h => .cons htest hresult h

end

/-- The pass over a function goes through its body. -/
theorem adds_foldFunction (function : Function) :
    Fold.Adds (foldFunction program options function) (FoldsFunction program options function) :=
  (adds_foldOption program options function.id function.body).bind_pure
    fun body _ h => ⟨body, rfl, h⟩

/-- **A pass folds the functions of a program one after the other.** -/
theorem folds_run {folded : Folded} (h : run program options = .ok folded) :
    Fold.Each (FoldsFunction program options) program.functions.toList
      folded.program.functions.toList folded.records.toList := by
  unfold run at h
  generalize hmap : (program.functions.mapM (foldFunction program options)).run #[] = result at h
  cases result with
  | error error => cases h
  | ok pair =>
    cases h
    -- The list of functions is what an induction can follow.
    rw [Array.mapM_eq_mapM_toList, map_eq_pure_bind] at hmap
    have hadds := (Fold.adds_mapM (adds_foldFunction program options)
      program.functions.toList).bind_pure (f := List.toArray)
      (Q := fun functions new => Fold.Each (FoldsFunction program options)
        program.functions.toList functions.toList new) fun _ _ h => h
    obtain ⟨new, hnew, heach⟩ := hadds _ _ _ hmap
    rw [hnew]
    exact heach

/-- What is computed of the folded program tells that the pass comes to its end. -/
theorem exists_folded {α : Type} {f : Folded → α} {a : α}
    (h : (run program options).toOption.map f = some a) :
    ∃ folded, run program options = .ok folded ∧ f folded = a := by
  cases hrun : run program options with
  | error error =>
    rw [hrun] at h
    cases h
  | ok folded =>
    rw [hrun] at h
    exact ⟨folded, rfl, Option.some.inj h⟩

/-! ## Calls on record -/

/-- What is on record about a call in the body of `caller`: the verdict on the call with its
operands folded. -/
structure IsRecordOf (swap : Call → Literal → Prop) (caller : FunctionId) (call : Call)
    (record : FoldRecord) : Prop where
  function : record.function = caller
  judged : ∃ call', Replaced swap call.expr call'.expr ∧
    record.call = program.render call'.expr ∧ judge program options call' = .ok record.verdict

/-- There is one record for each of these calls that a pass looks at, in the same order. -/
def Recorded (swap : Call → Literal → Prop) (caller : FunctionId) (calls : List Call)
    (records : List FoldRecord) : Prop :=
  List.Forall₂ (IsRecordOf program options swap caller)
    (calls.filter (isCandidate program options ·.callee)) records

section

variable {program options} {swap : Call → Literal → Prop} {caller : FunctionId}

theorem Recorded.nil : Recorded program options swap caller [] [] :=
  List.Forall₂.nil

/-- Records of two lists of calls, one after the other. -/
theorem Recorded.append {calls calls' : List Call} {records records' : List FoldRecord}
    (h : Recorded program options swap caller calls records)
    (h' : Recorded program options swap caller calls' records') :
    Recorded program options swap caller (calls ++ calls') (records ++ records') := by
  unfold Recorded
  rw [List.filter_append]
  exact List.rel_append h h'

/-- What is settled about a call is what is on record about it. -/
theorem Settled.recorded {call call' : Call} {e : Expr} {new : List FoldRecord}
    (h : Settled program options caller call' e new) (hcallee : call'.callee = call.callee)
    (hcall : Replaced swap call.expr call'.expr) :
    Recorded program options swap caller [call] new := by
  unfold Recorded
  cases h with
  | judged hcandidate hjudge =>
    rw [hcallee] at hcandidate
    simp only [List.filter_cons, hcandidate, if_true, List.filter_nil]
    exact .cons ⟨rfl, call', hcall, rfl, hjudge⟩ .nil
  | skipped hcandidate =>
    rw [hcallee] at hcandidate
    simp only [List.filter_cons, hcandidate, List.filter_nil]
    exact .nil

end

/-! ## What a pass replaces and records -/

section

variable {program options} {swap : Call → Literal → Prop}

/-- A call has to have the values that are found for it once its operands are folded. -/
def Justifies (program : Program) (options : Options) (swap : Call → Literal → Prop) : Prop :=
  ∀ {call call' : Call} {value : Literal}, Replaced swap call.expr call'.expr →
    judge program options call' = .ok (.folded value) → swap call value

variable (hswap : Justifies program options swap) {caller : FunctionId}

include hswap

-- The linter looks at each theorem of the block alone and misses what the recursion uses.
set_option linter.unusedSectionVars false in
mutual

/-- A pass replaces calls, and does nothing else. -/
theorem Folds.replaced : ∀ {e e' : Expr} {new : List FoldRecord},
    Folds program options caller e e' new → Replaced swap e e'
  | _, _, _, .const value => .const value
  | _, _, _, .read name owner => .read name owner
  | _, _, _, .declare name type h => .declare name type (FoldsOption.replaced h)
  | _, _, _, .assign name owner h => .assign name owner (Folds.replaced h)
  | _, _, _, .call id hreceiver hargs hsettled => by
    have hcall : Replaced swap (Call.expr ⟨id, _, _⟩) (Call.expr ⟨id, _, _⟩) :=
      .call id (FoldsOption.replaced hreceiver) (FoldsEach.replaced hargs)
    -- The operands are replaced already. The call itself is, if it was found to have a value.
    cases hsettled with
    | skipped _ => exact hcall
    | @judged verdict _ hjudge =>
      cases verdict with
      | folded value => exact .value (hswap hcall hjudge)
      | _ => exact hcall
  | _, _, _, .block h => .block (FoldsEach.replaced h)
  | _, _, _, .branch h => .branch (FoldsArms.replaced h)
  | _, _, _, .loop kind id label htest hbody =>
    .loop kind id label (Folds.replaced htest) (FoldsOption.replaced hbody)
  | _, _, _, .returnFrom target h => .returnFrom target (Folds.replaced h)
  | _, _, _, .breakLoop target => .breakLoop target
  | _, _, _, .continueLoop target => .continueLoop target

theorem FoldsOption.replaced : ∀ {e e' : Option Expr} {new : List FoldRecord},
    FoldsOption program options caller e e' new → ReplacedOption swap e e'
  | _, _, _, .none => .none
  | _, _, _, .some h => .some (Folds.replaced h)

theorem FoldsEach.replaced : ∀ {es es' : List Expr} {new : List FoldRecord},
    FoldsEach program options caller es es' new → ReplacedEach swap es es'
  | _, _, _, .nil => .nil
  | _, _, _, .cons h hs => .cons (Folds.replaced h) (FoldsEach.replaced hs)

theorem FoldsArms.replaced : ∀ {arms arms' : List (Expr × Expr)} {new : List FoldRecord},
    FoldsArms program options caller arms arms' new → ReplacedArms swap arms arms'
  | _, _, _, .nil => .nil
  | _, _, _, .cons htest hresult h =>
    .cons (Folds.replaced htest) (Folds.replaced hresult) (FoldsArms.replaced h)

end

set_option linter.unusedSectionVars false in
mutual

/-- A pass puts every call on record that it looks at. -/
theorem Folds.recorded : ∀ {e e' : Expr} {new : List FoldRecord},
    Folds program options caller e e' new → Recorded program options swap caller e.calls new
  | _, _, _, .const _ => .nil
  | _, _, _, .read _ _ => .nil
  | _, _, _, .declare _ _ h => FoldsOption.recorded h
  | _, _, _, .assign _ _ h => by
    rw [Expr.calls]
    exact Folds.recorded h
  | _, _, _, .call id hreceiver hargs hsettled => by
    have hcall : Replaced swap (Call.expr ⟨id, _, _⟩) (Call.expr ⟨id, _, _⟩) :=
      .call id (FoldsOption.replaced hswap hreceiver) (FoldsEach.replaced hswap hargs)
    exact (FoldsOption.recorded hreceiver).append
      ((FoldsEach.recorded hargs).append (hsettled.recorded rfl hcall))
  | _, _, _, .block h => FoldsEach.recorded h
  | _, _, _, .branch h => FoldsArms.recorded h
  | _, _, _, .loop _ _ _ htest hbody => (Folds.recorded htest).append (FoldsOption.recorded hbody)
  | _, _, _, .returnFrom _ h => by
    rw [Expr.calls]
    exact Folds.recorded h
  | _, _, _, .breakLoop _ => .nil
  | _, _, _, .continueLoop _ => .nil

theorem FoldsOption.recorded : ∀ {e e' : Option Expr} {new : List FoldRecord},
    FoldsOption program options caller e e' new →
      Recorded program options swap caller (Expr.callsOption e) new
  | _, _, _, .none => .nil
  | _, _, _, .some h => Folds.recorded h

theorem FoldsEach.recorded : ∀ {es es' : List Expr} {new : List FoldRecord},
    FoldsEach program options caller es es' new →
      Recorded program options swap caller (Expr.callsEach es) new
  | _, _, _, .nil => .nil
  | _, _, _, .cons h hs => (Folds.recorded h).append (FoldsEach.recorded hs)

theorem FoldsArms.recorded : ∀ {arms arms' : List (Expr × Expr)} {new : List FoldRecord},
    FoldsArms program options caller arms arms' new →
      Recorded program options swap caller (Expr.callsArms arms) new
  | _, _, _, .nil => .nil
  | _, _, _, .cons htest hresult h =>
    (Folds.recorded htest).append ((Folds.recorded hresult).append (FoldsArms.recorded h))

end

/-- A program that was folded is the program with calls replaced. -/
theorem replaced_of_justifies {folded : Folded} (h : run program options = .ok folded) :
    program.Replaced swap folded.program := by
  intro id
  obtain ⟨hlength, hget⟩ := List.forall₂_iff_get.mp (folds_run program options h).forall₂
  simp only [Program.function?, ← Array.getElem?_toList]
  -- Functions keep their numbers, since the pass gives one function for each.
  by_cases hlt : id.index < program.functions.toList.length
  · obtain ⟨_, body, heq, hbody⟩ := hget id.index hlt (hlength ▸ hlt)
    refine .inr ⟨_, body, List.getElem?_eq_getElem hlt, ?_, hbody.replaced hswap⟩
    rw [List.getElem?_eq_getElem (hlength ▸ hlt)]
    exact congrArg some heq
  · exact .inl ⟨List.getElem?_eq_none (by omega), List.getElem?_eq_none (by omega)⟩

/-- The records of a function are those of the calls in its body. -/
theorem FoldsFunction.recorded {function function' : Function} {new : List FoldRecord}
    (h : FoldsFunction program options function function' new) :
    List.Forall₂ (fun node => IsRecordOf program options swap node.1 node.2)
      (function.calls.filter (isCandidate program options ·.2.callee)) new := by
  obtain ⟨body, -, hbody⟩ := h
  rw [Function.calls, List.filter_map, List.forall₂_map_left_iff]
  exact hbody.recorded hswap

/-- **There is one record for each call that a pass looks at,** functions in order, and operands
before the call they belong to. -/
theorem recorded_run {folded : Folded} (h : run program options = .ok folded) :
    List.Forall₂ (fun node => IsRecordOf program options swap node.1 node.2)
      (program.calls.filter (isCandidate program options ·.2.callee)) folded.records.toList := by
  have heach := folds_run program options h
  rw [Program.calls]
  -- The induction is on the functions, so their lists must not be those of the program any more.
  generalize program.functions.toList = functions at heach
  generalize folded.program.functions.toList = functions' at heach
  generalize folded.records.toList = records at heach
  induction heach with
  | nil => exact .nil
  | cons hfunction _ ih =>
    rw [List.flatMap_cons, List.filter_append]
    exact List.rel_append (hfunction.recorded hswap) ih

end

end Folding

end CallFolding
