import CallFolding.Proofs.Folding
import CallFolding.Proofs.Walk

/-!
A second pass over a folded program. The calls that a pass leaves in the program are calls that it
has judged as they are and not folded (`leftBy_run`). A second pass finds the same about them
(`judge_folded`): replacing eligible calls changes no walk, and replacing constant calls changes no
result that was within the limits. So there is nothing left to fold, and a pass that folds nothing
gives its program back (`run_of_remains`).
-/

set_option autoImplicit false

namespace CallFolding

/-- The call stays where it is for a reason that has nothing to do with limits. -/
def Verdict.Stays (verdict : Verdict) : Prop :=
  (∃ reason, verdict = .ineligible reason) ∨ ∃ cause, verdict = .faulty cause

/-- Besides values and limits there are only ineligible calls and faults. -/
theorem Verdict.stays_of_not_isFolded {verdict : Verdict} (hfolded : verdict.isFolded = false)
    (hlimit : ∀ cause, verdict ≠ .limitExceeded cause) : verdict.Stays := by
  cases verdict with
  | folded value => cases hfolded
  | ineligible reason => exact .inl ⟨reason, rfl⟩
  | limitExceeded cause => exact absurd rfl (hlimit cause)
  | faulty cause => exact .inr ⟨cause, rfl⟩

namespace Folding

/-! ## What a pass leaves -/

section

variable (program : Program) (options : Options)

/-- One of these records is about the call as it is, and says that it was not folded. -/
def LeftBy (records : List FoldRecord) (call : Call) : Prop :=
  isCandidate program options call.callee → ∃ record ∈ records,
    judge program options call = .ok record.verdict ∧ record.verdict.isFolded = false

end

section

variable {program : Program} {options : Options} {caller : FunctionId}

theorem LeftBy.append_left {records : List FoldRecord} {call : Call}
    (h : LeftBy program options records call) (rest : List FoldRecord) :
    LeftBy program options (records ++ rest) call := by
  intro hcandidate
  obtain ⟨record, hmem, hjudge⟩ := h hcandidate
  exact ⟨record, List.mem_append_left rest hmem, hjudge⟩

theorem LeftBy.append_right {records : List FoldRecord} {call : Call}
    (h : LeftBy program options records call) (first : List FoldRecord) :
    LeftBy program options (first ++ records) call := by
  intro hcandidate
  obtain ⟨record, hmem, hjudge⟩ := h hcandidate
  exact ⟨record, List.mem_append_right first hmem, hjudge⟩

/-- What is settled is a constant, or the call itself and then not folded. -/
theorem Settled.leftBy {call : Call} {e : Expr} {new : List FoldRecord}
    (h : Settled program options caller call e new) :
    (∃ value, e = .const value) ∨ e = call.expr ∧ LeftBy program options new call := by
  cases h with
  | skipped hcandidate => exact .inr ⟨rfl, fun h => absurd h hcandidate⟩
  | @judged verdict hcandidate hjudge =>
    have hleft : verdict.isFolded = false → LeftBy program options
        [⟨caller, program.render call.expr, verdict⟩] call :=
      fun hfolded _ => ⟨_, List.mem_singleton_self _, hjudge, hfolded⟩
    cases verdict with
    | folded value => exact .inl ⟨value, rfl⟩
    | ineligible reason => exact .inr ⟨rfl, hleft rfl⟩
    | limitExceeded cause => exact .inr ⟨rfl, hleft rfl⟩
    | faulty cause => exact .inr ⟨rfl, hleft rfl⟩

mutual

/-- The calls in a folded expression are those that were left. -/
theorem Folds.leftBy : ∀ {e e' : Expr} {new : List FoldRecord},
    Folds program options caller e e' new → ∀ call ∈ e'.calls, LeftBy program options new call
  | _, _, _, .const _ => nofun
  | _, _, _, .read _ _ => nofun
  | _, _, _, .declare _ _ h => FoldsOption.leftBy h
  | _, _, _, .assign _ _ h => by
    rw [Expr.calls]
    exact Folds.leftBy h
  | _, _, _, .call id hreceiver hargs hsettled => by
    intro call hmem
    -- A folded call takes the calls in its operands with it.
    rcases hsettled.leftBy with ⟨value, rfl⟩ | ⟨rfl, hleft⟩
    · exact nomatch hmem
    · rw [Call.expr, Expr.calls, List.mem_append, List.mem_append, List.mem_singleton] at hmem
      rcases hmem with hmem | hmem | rfl
      · exact (FoldsOption.leftBy hreceiver call hmem).append_left _
      · exact ((FoldsEach.leftBy hargs call hmem).append_left _).append_right _
      · exact (hleft.append_right _).append_right _
  | _, _, _, .block h => FoldsEach.leftBy h
  | _, _, _, .branch h => FoldsArms.leftBy h
  | _, _, _, .loop _ _ _ htest hbody => by
    intro call hmem
    rw [Expr.calls, List.mem_append] at hmem
    rcases hmem with hmem | hmem
    · exact (Folds.leftBy htest call hmem).append_left _
    · exact (FoldsOption.leftBy hbody call hmem).append_right _
  | _, _, _, .returnFrom _ h => by
    rw [Expr.calls]
    exact Folds.leftBy h
  | _, _, _, .breakLoop _ => nofun
  | _, _, _, .continueLoop _ => nofun

theorem FoldsOption.leftBy : ∀ {e e' : Option Expr} {new : List FoldRecord},
    FoldsOption program options caller e e' new →
      ∀ call ∈ Expr.callsOption e', LeftBy program options new call
  | _, _, _, .none => nofun
  | _, _, _, .some h => Folds.leftBy h

theorem FoldsEach.leftBy : ∀ {es es' : List Expr} {new : List FoldRecord},
    FoldsEach program options caller es es' new →
      ∀ call ∈ Expr.callsEach es', LeftBy program options new call
  | _, _, _, .nil => nofun
  | _, _, _, .cons h hs => by
    intro call hmem
    rw [Expr.callsEach, List.mem_append] at hmem
    rcases hmem with hmem | hmem
    · exact (Folds.leftBy h call hmem).append_left _
    · exact (FoldsEach.leftBy hs call hmem).append_right _

theorem FoldsArms.leftBy : ∀ {arms arms' : List (Expr × Expr)} {new : List FoldRecord},
    FoldsArms program options caller arms arms' new →
      ∀ call ∈ Expr.callsArms arms', LeftBy program options new call
  | _, _, _, .nil => nofun
  | _, _, _, .cons htest hresult h => by
    intro call hmem
    rw [Expr.callsArms, List.mem_append, List.mem_append] at hmem
    rcases hmem with hmem | hmem | hmem
    · exact (Folds.leftBy htest call hmem).append_left _
    · exact ((Folds.leftBy hresult call hmem).append_left _).append_right _
    · exact ((FoldsArms.leftBy h call hmem).append_right _).append_right _

end

/-- **A pass leaves only calls that it has judged as they are**, and not folded. -/
theorem leftBy_run {folded : Folded} (h : run program options = .ok folded) :
    ∀ node ∈ folded.program.calls, LeftBy program options folded.records.toList node.2 := by
  have heach := folds_run program options h
  rw [Program.calls]
  -- The induction is on the functions of the program, which leave their records one after the
  -- other.
  generalize program.functions.toList = functions at heach
  generalize folded.program.functions.toList = functions' at heach
  generalize folded.records.toList = records at heach
  induction heach with
  | nil => simp
  | cons hfunction _ ih =>
    intro node hmem
    rw [List.flatMap_cons, List.mem_append] at hmem
    rcases hmem with hmem | hmem
    · obtain ⟨body, rfl, hbody⟩ := hfunction
      obtain ⟨call, hcall, rfl⟩ := List.mem_map.mp hmem
      exact (hbody.leftBy call hcall).append_left _
    · exact (ih node hmem).append_right _

end

/-! ## What a second pass finds -/

section

variable {program program' : Program} {options : Options} {swap : Call → Literal → Prop}

/-- A pass looks at calls to the same functions if calls are replaced in their bodies. -/
theorem isCandidate_of_replaced (h : program.Replaced swap program') (id : FunctionId) :
    isCandidate program' options id = isCandidate program options id := by
  unfold isCandidate
  rcases h id with ⟨hleft, hright⟩ | ⟨function, body, hleft, hright, hbody⟩
  · rw [hleft, hright]
  · simp only [hleft, hright, Option.any_some, hbody.classify_eq]

variable (program options)

/-- It is the call with folded operands that was found eligible, but no walk can tell it from the
call as it was. -/
theorem justifies_passes : Justifies program options fun call _ =>
    Eligibility.Passes program options.marker call := by
  intro call call' value hcall hjudge
  refine Eligibility.passes_of_check ?_
  rw [← Eligibility.check_of_replaced (.refl _ program) (fun h => h) hcall]
  exact check_of_judge program options hjudge

/-- A folded program is the program with calls replaced that every walk passes. -/
theorem replaced_passes_run {folded : Folded} (h : run program options = .ok folded) :
    program.Replaced (fun call _ => Eligibility.Passes program options.marker call)
      folded.program :=
  replaced_of_justifies (justifies_passes program options) h

/-- **Folding keeps eligibility.** In the folded program a walk comes to the same end as before, for
every call: it is eligible, or rejected for the same first reason. -/
theorem check_run {folded : Folded} (h : run program options = .ok folded) (call : Call) :
    Eligibility.check folded.program options.marker call =
      Eligibility.check program options.marker call := by
  have hprogram := replaced_passes_run program options h
  have hcall := Replaced.refl (fun call _ => Eligibility.Passes program options.marker call)
    call.expr
  exact Eligibility.check_of_replaced hprogram (fun hpasses => hpasses) hcall

/-- `evalOne` is called by the others and is one. `evalCount` counts down to zero, and `evalPing`
and `evalPong` call each other, but `evalPong` also calls a function that cannot be evaluated. -/
def cycles : Program :=
  Prod.snd <| Build.run do
    let one ← Build.declare "evalOne" [] .int
    Build.define one (.block [.returnFrom one (.int 1)])
    let count ← Build.declare "evalCount" [("n", .int)] .int
    let last ← Build.sameTest (.read "n" count) (.int 0)
    let less ← Build.intOp "minus" (.read "n" count) (.call one none [])
    Build.define count (.block [.returnFrom count
      (.ifThenElse last (.int 0) (.call count none [less]))])
    let log ← Build.declare "log" [("n", .int)] .int
    let ping ← Build.declare "evalPing" [("n", .int)] .int
    let pong ← Build.declare "evalPong" [("n", .int)] .int
    Build.define ping (.block [.call count none [.call one none []],
      .returnFrom ping (.call pong none [.read "n" ping])])
    Build.define pong (.block [.call ping none [.call one none []],
      .returnFrom pong (.call log none [.read "n" pong])])

/-- The calls of `evalOne`, and the one of `evalCount` by `evalPing`, are folded away. A walk
through what is left still finds that `evalCount` can be evaluated, and why `evalPing` cannot. -/
theorem check_run_cycles : ∃ folded, run cycles {} = .ok folded ∧ folded.count = 4 ∧
    Eligibility.check folded.program "eval" ⟨⟨1⟩, none, [.int 5]⟩ = .ok () ∧
    Eligibility.check folded.program "eval" ⟨⟨5⟩, none, [.int 5]⟩ =
      .error (.unsupported "log") := by
  obtain ⟨folded, hrun, hcount⟩ := exists_folded cycles {} (f := Folded.count) (a := 4)
    (by decide +kernel)
  refine ⟨folded, hrun, hcount, ?_, ?_⟩
  · apply (check_run cycles {} hrun _).trans
    decide +kernel
  · apply (check_run cycles {} hrun _).trans
    decide +kernel

variable {program options}

/-- The verdict on a call is the same in the folded program, unless it is about limits. -/
theorem judge_folded {folded : Folded} (h : run program options = .ok folded) {call : Call}
    {verdict : Verdict} (hjudge : judge program options call = .ok verdict)
    (hlimit : ∀ cause, verdict ≠ .limitExceeded cause) :
    judge folded.program options call = .ok verdict := by
  have hsame : Eligibility.check folded.program options.marker call =
      Eligibility.check program options.marker call :=
    Eligibility.check_of_replaced (replaced_passes_run program options h) (fun hpasses => hpasses)
      (.refl _ call.expr)
  rw [← hjudge]
  unfold judge at hjudge ⊢
  -- A call is judged by a walk, and by its evaluation only if the walk passes it.
  rw [hsame]
  cases hcheck : Eligibility.check program options.marker call with
  | error reason => rfl
  | ok _ =>
    rw [hcheck] at hjudge
    have heval : (setting folded.program options).evalCall call =
        (setting program options).evalCall call := by
      refine Setting.evalCall_of_replaced options.limits call (replaced_run program options h) ?_
      -- If the first evaluation had run into a limit, that would have been the verdict.
      intro cause hcause
      change (setting program options).evalCall call = _ at hcause
      rw [hcause] at hjudge
      exact hlimit cause (Except.ok.inj hjudge).symm
    rw [heval]

end

/-! ## A pass that folds nothing -/

section

variable {program : Program} {options : Options} {caller : FunctionId}

/-- This part of a pass comes to its end with this result, and if all records were of calls that
stay, they still are. -/
def Restores {α : Type} (x : Fold α) (a : α) : Prop :=
  ∀ records : Array FoldRecord, (∀ record ∈ records, record.verdict.Stays) →
    ∃ records', x records = .ok (a, records') ∧ ∀ record ∈ records', record.verdict.Stays

namespace Restores

variable {α β : Type}

theorem pure (a : α) : Restores (pure a) a := fun records hrecords => ⟨records, rfl, hrecords⟩

theorem bind {x : Fold α} {f : α → Fold β} {a : α} {b : β} (hx : Restores x a)
    (hf : Restores (f a) b) : Restores (x >>= f) b := by
  intro records hrecords
  obtain ⟨records₁, hfirst, hrecords₁⟩ := hx records hrecords
  obtain ⟨records₂, hsecond, hrecords₂⟩ := hf records₁ hrecords₁
  exact ⟨records₂, Fold.bind_eq_ok.mpr ⟨a, records₁, hfirst, hsecond⟩, hrecords₂⟩

theorem mapM {f : α → Fold α} {as : List α} (h : ∀ a ∈ as, Restores (f a) a) :
    Restores (as.mapM f) as := by
  induction as with
  | nil =>
    rw [List.mapM_nil]
    exact .pure []
  | cons a as ih =>
    rw [List.forall_mem_cons] at h
    rw [List.mapM_cons]
    exact h.1.bind ((ih h.2).bind (.pure (a :: as)))

end Restores

variable (program options) in
/-- The call is not looked at, or is found to stay. -/
def Remains (call : Call) : Prop :=
  isCandidate program options call.callee →
    ∃ verdict, judge program options call = .ok verdict ∧ verdict.Stays

/-- A call that remains is put back and recorded as one that stays. -/
theorem restores_foldCall {call : Call} (h : Remains program options call) :
    Restores (foldCall program options caller call) call.expr := by
  intro records hrecords
  unfold foldCall
  -- A call that is looked at leaves a record, and the call itself unless it is folded.
  by_cases hcandidate : isCandidate program options call.callee
  · obtain ⟨verdict, hjudge, hstays⟩ := h hcandidate
    rw [if_pos hcandidate]
    simp only [hjudge]
    refine ⟨records.push ⟨caller, program.render call.expr, verdict⟩, ?_, fun record hmem => ?_⟩
    · rcases hstays with ⟨reason, rfl⟩ | ⟨cause, rfl⟩ <;> rfl
    · rcases Array.mem_push.mp hmem with hmem | rfl
      · exact hrecords record hmem
      · exact hstays
  · rw [if_neg hcandidate]
    exact ⟨records, rfl, hrecords⟩

mutual

/-- An expression in which all calls remain comes back as it was. -/
theorem restores_foldExpr : ∀ {e : Expr}, (∀ call ∈ e.calls, Remains program options call) →
    Restores (foldExpr program options caller e) e
  | .const value, _ => by
    rw [foldExpr]
    exact .pure _
  | .read name owner, _ => by
    rw [foldExpr]
    exact .pure _
  | .declare name type init, h => by
    rw [foldExpr]
    exact (restores_foldOption h).bind (.pure _)
  | .assign name owner value, h => by
    rw [Expr.calls] at h
    rw [foldExpr]
    exact (restores_foldExpr h).bind (.pure _)
  | .call id receiver args, h => by
    rw [Expr.calls, List.forall_mem_append, List.forall_mem_append, List.forall_mem_singleton] at h
    obtain ⟨hreceiver, hargs, hcall⟩ := h
    rw [foldExpr]
    exact (restores_foldOption hreceiver).bind
      ((restores_foldEach hargs).bind (restores_foldCall hcall))
  | .block statements, h => by
    rw [foldExpr]
    exact (restores_foldEach h).bind (.pure _)
  | .branch arms, h => by
    rw [foldExpr]
    exact (restores_foldArms h).bind (.pure _)
  | .loop kind id label test body, h => by
    rw [Expr.calls, List.forall_mem_append] at h
    rw [foldExpr]
    exact (restores_foldExpr h.1).bind ((restores_foldOption h.2).bind (.pure _))
  | .returnFrom target value, h => by
    rw [Expr.calls] at h
    rw [foldExpr]
    exact (restores_foldExpr h).bind (.pure _)
  | .breakLoop target, _ => by
    rw [foldExpr]
    exact .pure _
  | .continueLoop target, _ => by
    rw [foldExpr]
    exact .pure _

theorem restores_foldOption : ∀ {e : Option Expr},
    (∀ call ∈ Expr.callsOption e, Remains program options call) →
      Restores (foldOption program options caller e) e
  | none, _ => by
    rw [foldOption]
    exact .pure _
  | some e, h => by
    rw [foldOption]
    exact (restores_foldExpr h).bind (.pure _)

theorem restores_foldEach : ∀ {es : List Expr},
    (∀ call ∈ Expr.callsEach es, Remains program options call) →
      Restores (foldEach program options caller es) es
  | [], _ => by
    rw [foldEach]
    exact .pure _
  | e :: es, h => by
    rw [Expr.callsEach, List.forall_mem_append] at h
    rw [foldEach]
    exact (restores_foldExpr h.1).bind ((restores_foldEach h.2).bind (.pure _))

theorem restores_foldArms : ∀ {arms : List (Expr × Expr)},
    (∀ call ∈ Expr.callsArms arms, Remains program options call) →
      Restores (foldArms program options caller arms) arms
  | [], _ => by
    rw [foldArms]
    exact .pure _
  | (test, result) :: arms, h => by
    rw [Expr.callsArms, List.forall_mem_append, List.forall_mem_append] at h
    rw [foldArms]
    exact (restores_foldExpr h.1).bind
      ((restores_foldExpr h.2.1).bind ((restores_foldArms h.2.2).bind (.pure _)))

end

theorem restores_foldFunction {function : Function}
    (h : ∀ node ∈ function.calls, Remains program options node.2) :
    Restores (foldFunction program options function) function := by
  have hbody : ∀ call ∈ Expr.callsOption function.body, Remains program options call :=
    fun call hmem => h (function.id, call) (List.mem_map_of_mem hmem)
  exact (restores_foldOption hbody).bind (.pure function)

/-- **A pass that folds nothing gives its program back.** -/
theorem run_of_remains (h : ∀ node ∈ program.calls, Remains program options node.2) :
    ∃ records, run program options = .ok ⟨program, records⟩ ∧
      ∀ record ∈ records, record.verdict.Stays := by
  have hfunctions : Restores (program.functions.mapM (foldFunction program options))
      program.functions := by
    rw [Array.mapM_eq_mapM_toList, map_eq_pure_bind]
    refine (Restores.mapM fun function hmem => restores_foldFunction fun node hnode => ?_).bind
      (.pure program.functions)
    exact h node (List.mem_flatMap.mpr ⟨function, hmem, hnode⟩)
  obtain ⟨records, hrun, hrecords⟩ := hfunctions #[] nofun
  refine ⟨records, ?_, hrecords⟩
  unfold run
  rw [StateT.run, hrun]
  rfl

end

/-- **A second pass is a fixed point.** If no call ran into a limit, another pass with the same
options gives the folded program back, and everything it looks at is ineligible or would throw. -/
theorem run_again {program : Program} {options : Options} {folded : Folded}
    (h : run program options = .ok folded)
    (hlimit : ∀ record ∈ folded.records, ∀ cause, record.verdict ≠ .limitExceeded cause) :
    ∃ records, run folded.program options = .ok ⟨folded.program, records⟩ ∧
      ∀ record ∈ records, (∃ reason, record.verdict = .ineligible reason) ∨
        ∃ cause, record.verdict = .faulty cause := by
  refine run_of_remains fun node hmem hcandidate => ?_
  -- Both passes look at the same calls, and the first one has a record of each that is left.
  rw [isCandidate_of_replaced (replaced_run program options h)] at hcandidate
  obtain ⟨record, hrecord, hjudge, hfolded⟩ := leftBy_run h node hmem hcandidate
  have hlimit' := hlimit record (Array.mem_toList_iff.mp hrecord)
  exact ⟨record.verdict, judge_folded h hjudge hlimit',
    Verdict.stays_of_not_isFolded hfolded hlimit'⟩

/-- `evalQuotient` divides twelve by `n`, and `main` calls it with three, with zero and with a
variable. -/
def quotients : Program :=
  Prod.snd <| Build.run do
    let quotient ← Build.declare "evalQuotient" [("n", .int)] .int
    let ratio ← Build.intOp "div" (.int 12) (.read "n" quotient)
    Build.define quotient (.block [.returnFrom quotient ratio])
    let main ← Build.declare "main" [("k", .int)] .int
    Build.define main (.block [.call quotient none [.int 3], .call quotient none [.int 0],
      .returnFrom main (.call quotient none [.read "k" main])])

/-- Of the three calls the first is folded. A second pass looks at the other two and leaves them. -/
theorem run_again_quotients : ∃ folded, run quotients {} = .ok folded ∧
    folded.records.toList.map (·.verdict) = [.folded (.int 4), .faulty .divisionByZero,
      .ineligible (.foreignVariable "k" ⟨2⟩)] ∧
    ∃ records, run folded.program {} = .ok ⟨folded.program, records⟩ ∧
      ∀ record ∈ records, (∃ reason, record.verdict = .ineligible reason) ∨
        ∃ cause, record.verdict = .faulty cause := by
  obtain ⟨folded, hrun, hverdicts⟩ := exists_folded quotients {}
    (f := (·.records.toList.map (·.verdict))) (a := [.folded (.int 4), .faulty .divisionByZero,
      .ineligible (.foreignVariable "k" ⟨2⟩)]) (by decide +kernel)
  refine ⟨folded, hrun, hverdicts, run_again hrun fun record hmem cause hcause => ?_⟩
  have hverdict : record.verdict ∈ folded.records.toList.map (·.verdict) :=
    List.mem_map_of_mem (Array.mem_toList_iff.mpr hmem)
  rw [hverdicts, hcause] at hverdict
  simp at hverdict

end Folding

end CallFolding
