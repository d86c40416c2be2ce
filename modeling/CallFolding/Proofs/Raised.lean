import CallFolding.Proofs.Children
import CallFolding.Proofs.SecondPass
import CallFolding.Proofs.Threshold

/-!
Passes with greater limits. A second pass over the same program, with the same marker and greater
limits, looks at the same calls. It does not judge the same expressions: with greater limits more
operands are constants by the time the call around them is judged. But they are constants that the
operands evaluate to, so the call judged by the second pass is the one judged by the first with
constant calls replaced (`Folds.raised`). Nothing but a verdict about limits can depend on that
(`judge_raised`).
-/

set_option autoImplicit false

namespace CallFolding

open Setting (IsConstant)

/-! ## One call under two limits -/

namespace Setting

variable {program : Program} {marker : String} {limits limits' : Limits}

/-- Greater limits keep the result of a call that does not run into a limit, and so does replacing
constant calls in its operands. -/
theorem evalCall_raised (hsteps : limits.steps ≤ limits'.steps)
    (hdepth : limits.depth ≤ limits'.depth) {call call' : Call}
    (hcall : Replaced (IsConstant program marker) call.expr call'.expr)
    (hlimit : ∀ cause, evalCall ⟨program, marker, limits⟩ call ≠ .error (.limit cause)) :
    evalCall ⟨program, marker, limits'⟩ call' = evalCall ⟨program, marker, limits⟩ call := by
  have hraised : evalCall ⟨program, marker, limits'⟩ call =
      evalCall ⟨program, marker, limits⟩ call := by
    rw [evalCall_eq] at hlimit
    rw [evalCall_eq, evalCall_eq]
    let c := Contrast.relaxed ⟨program, marker, limits⟩ ⟨program, marker, limits'⟩ hsteps
    have hagree := c.agree_alone rfl rfl rfl rfl ⟨hdepth, absurd trivial⟩ call.expr
    exact hagree.result_eq (fun _ h => h) rfl hlimit
  -- The operands are replaced under the greater limits, where the call is not cut off either.
  rw [← hraised] at hlimit ⊢
  rw [evalCall_eq] at hlimit
  rw [evalCall_eq, evalCall_eq]
  have hagree := agree_of_replaced limits' (limits'.room 0) (.refl _ program) hcall {}
    Scope.rooted_empty
  exact hagree.result_eq (fun _ h => h) rfl hlimit

end Setting

/-- What a verdict becomes if the limits are raised: the same, unless it is about limits. A call
that is eligible stays eligible. -/
structure Verdict.Upheld (verdict verdict' : Verdict) : Prop where
  folded : ∀ value, verdict = .folded value → verdict' = .folded value
  faulty : ∀ cause, verdict = .faulty cause → verdict' = .faulty cause
  ineligible : ∀ reason, verdict = .ineligible reason ↔ verdict' = .ineligible reason

theorem Verdict.Upheld.refl (verdict : Verdict) : verdict.Upheld verdict :=
  ⟨fun _ h => h, fun _ h => h, fun _ => Iff.rfl⟩

/-- Two records of one call, the second under greater limits. -/
structure FoldRecord.Upheld (record record' : FoldRecord) : Prop where
  function : record.function = record'.function
  verdict : record.verdict.Upheld record'.verdict

namespace Fold.Each

variable {α β : Type} {P Q : α → β → List FoldRecord → Prop} {as : List α} {bs bs' : List β}
  {new new' : List FoldRecord}

/-- Two passes over the members of one list. -/
theorem upheld {R : β → β → Prop} (h : Each P as bs new) (h' : Each Q as bs' new')
    (hmembers : ∀ a ∈ as, ∀ {b b' : β} {new new' : List FoldRecord}, P a b new → Q a b' new' →
      R b b' ∧ List.Forall₂ FoldRecord.Upheld new new') :
    List.Forall₂ R bs bs' ∧ List.Forall₂ FoldRecord.Upheld new new' := by
  induction h generalizing bs' new' with
  | nil =>
    cases h'
    exact ⟨.nil, .nil⟩
  | cons hfirst _ ih =>
    cases h' with
    | cons hfirst' hrest' =>
      rw [List.forall_mem_cons] at hmembers
      obtain ⟨hb, hnew⟩ := hmembers.1 hfirst hfirst'
      obtain ⟨hbs, hrest⟩ := ih hrest' hmembers.2
      exact ⟨.cons hb hbs, List.rel_append hnew hrest⟩

end Fold.Each

namespace Folding

variable {program : Program} {marker : String} {limits limits' : Limits}

/-- A call is as eligible as it was before its operands were folded. -/
theorem check_of_each {options : Options} {caller : FunctionId} {e : Expr} {es : List Expr}
    {new : List FoldRecord} (h : Fold.Each (Folds program options caller) e.children es new)
    {call call' : Call} (he : e = call.expr) (hnode : e.withChildren es = call'.expr) :
    Eligibility.check program options.marker call' =
      Eligibility.check program options.marker call := by
  have hes : List.Forall₂ (Replaced fun call _ => Eligibility.Passes program options.marker call)
      e.children es := by
    refine h.forall₂.imp fun child child' hfolds => ?_
    obtain ⟨new, hfolds⟩ := hfolds
    exact hfolds.replaced (justifies_passes program options)
  have hreplaced := Replaced.withChildren rfl hes
  rw [Expr.withChildren_children, hnode, he] at hreplaced
  exact Eligibility.check_of_replaced (.refl _ program) (fun h => h) hreplaced

section

variable (options : Options) {call : Call}

theorem judge_of_rejected {reason : Rejection}
    (h : Eligibility.check program options.marker call = .error reason) :
    judge program options call = .ok (.ineligible reason) := by
  unfold judge
  rw [h]

theorem judge_of_limit {cause : LimitExceeded}
    (hcheck : Eligibility.check program options.marker call = .ok ())
    (h : (setting program options).evalCall call = .error (.limit cause)) :
    judge program options call = .ok (.limitExceeded cause) := by
  unfold judge
  rw [hcheck, h]

/-- No eligible call is found ineligible. -/
theorem ne_ineligible_of_judge {verdict : Verdict}
    (hcheck : Eligibility.check program options.marker call = .ok ())
    (h : judge program options call = .ok verdict) (reason : Rejection) :
    verdict ≠ .ineligible reason := by
  unfold judge at h
  simp only [hcheck] at h
  intro hreason
  rw [hreason] at h
  split at h <;> simp at h

/-- A verdict depends on nothing but whether the call is eligible and what it evaluates to. -/
theorem judge_congr (options' : Options) {call' : Call}
    (hcheck : Eligibility.check program options'.marker call' =
      Eligibility.check program options.marker call)
    (heval : (setting program options').evalCall call' = (setting program options).evalCall call) :
    judge program options' call' = judge program options call := by
  unfold judge
  rw [hcheck, heval]

end

section

variable (hsteps : limits.steps ≤ limits'.steps) (hdepth : limits.depth ≤ limits'.depth)

include hsteps hdepth

/-- The verdict on a call under greater limits, with constant calls replaced in its operands. -/
theorem judge_raised {call call' : Call} {verdict verdict' : Verdict}
    (hcheck : Eligibility.check program marker call' = Eligibility.check program marker call)
    (hcall : Replaced (IsConstant program marker) call.expr call'.expr)
    (h : judge program ⟨marker, limits⟩ call = .ok verdict)
    (h' : judge program ⟨marker, limits'⟩ call' = .ok verdict') : verdict.Upheld verdict' := by
  -- What is rejected is rejected under all limits.
  cases heligible : Eligibility.check program marker call with
  | error reason =>
    rw [judge_of_rejected ⟨marker, limits⟩ heligible] at h
    rw [judge_of_rejected ⟨marker, limits'⟩ (hcheck.trans heligible)] at h'
    cases h
    cases h'
    exact .refl _
  | ok _ =>
    by_cases hlimit : ∃ cause,
        Setting.evalCall ⟨program, marker, limits⟩ call = .error (.limit cause)
    · -- Whatever comes of it under greater limits, it does not become ineligible.
      obtain ⟨cause, hcause⟩ := hlimit
      have hnot := ne_ineligible_of_judge ⟨marker, limits'⟩ (hcheck.trans heligible) h'
      rw [judge_of_limit ⟨marker, limits⟩ heligible hcause] at h
      cases h
      refine ⟨fun _ => nofun, fun _ => nofun, fun reason => ⟨nofun, fun hreason => ?_⟩⟩
      exact absurd hreason (hnot reason)
    · have heval := Setting.evalCall_raised hsteps hdepth hcall
        fun cause hcause => hlimit ⟨cause, hcause⟩
      have hsame := judge_congr ⟨marker, limits⟩ ⟨marker, limits'⟩ hcheck heval
      rw [h, h'] at hsame
      cases hsame
      exact .refl _

omit hsteps hdepth in
/-- Whatever takes the place of the call, it is the call with constant calls replaced. -/
theorem replaced_replacement {call₁ call₂ : Call} {verdict : Verdict}
    (hcall : Replaced (IsConstant program marker) call₁.expr call₂.expr)
    (h : judge program ⟨marker, limits'⟩ call₂ = .ok verdict) :
    Replaced (IsConstant program marker) call₁.expr (verdict.replacement call₂) := by
  cases verdict with
  | folded value => exact .value (justifies_isConstant program ⟨marker, limits'⟩ hcall h)
  | ineligible reason => exact hcall
  | limitExceeded cause => exact hcall
  | faulty cause => exact hcall

/-- Two passes at one call, once its operands are folded. -/
theorem Settled.raised {caller : FunctionId} {call₁ call₂ : Call} {e₁ e₂ : Expr}
    {new₁ new₂ : List FoldRecord} (hcheck : Eligibility.check program marker call₂ =
      Eligibility.check program marker call₁) (hcallee : call₂.callee = call₁.callee)
    (hcall : Replaced (IsConstant program marker) call₁.expr call₂.expr)
    (h₁ : Settled program ⟨marker, limits⟩ caller call₁ e₁ new₁)
    (h₂ : Settled program ⟨marker, limits'⟩ caller call₂ e₂ new₂) :
    Replaced (IsConstant program marker) e₁ e₂ ∧ List.Forall₂ FoldRecord.Upheld new₁ new₂ := by
  -- Both passes look at the same calls, since the marker is the same.
  have hcandidate : isCandidate program ⟨marker, limits'⟩ call₂.callee =
      isCandidate program ⟨marker, limits⟩ call₁.callee := by
    rw [hcallee]
    rfl
  cases h₁ with
  | skipped hskipped =>
    cases h₂ with
    | skipped _ => exact ⟨hcall, .nil⟩
    | judged hlooked _ => exact absurd (hcandidate ▸ hlooked) hskipped
  | @judged verdict₁ hlooked hjudge₁ =>
    cases h₂ with
    | skipped hskipped => exact absurd (hcandidate ▸ hlooked) hskipped
    | @judged verdict₂ _ hjudge₂ =>
      have hupheld := judge_raised hsteps hdepth hcheck hcall hjudge₁ hjudge₂
      refine ⟨?_, .cons ⟨rfl, hupheld⟩ .nil⟩
      have hright := replaced_replacement hcall hjudge₂
      -- If the first pass has a value the second has the same. Otherwise the second may have found
      -- one.
      cases verdict₁ with
      | folded value =>
        rw [hupheld.folded value rfl]
        exact .const value
      | ineligible reason => exact hright
      | limitExceeded cause => exact hright
      | faulty cause => exact hright

/-- **Two passes over one expression.** What the second makes of it is what the first makes of it
with constant calls replaced, and the records of the first are upheld by the second. -/
theorem Folds.raised {caller : FunctionId} {e e₁ e₂ : Expr} {new₁ new₂ : List FoldRecord}
    (h₁ : Folds program ⟨marker, limits⟩ caller e e₁ new₁)
    (h₂ : Folds program ⟨marker, limits'⟩ caller e e₂ new₂) :
    Replaced (IsConstant program marker) e₁ e₂ ∧ List.Forall₂ FoldRecord.Upheld new₁ new₂ := by
  induction e using Expr.induction_on_children generalizing e₁ e₂ new₁ new₂ with
  | h e ih =>
    obtain ⟨es₁, first₁, last₁, heach₁, rfl, hcompletes₁⟩ := h₁.exists_children
    obtain ⟨es₂, first₂, last₂, heach₂, rfl, hcompletes₂⟩ := h₂.exists_children
    obtain ⟨hes, hfirst⟩ := heach₁.upheld heach₂ fun child hmem => ih child hmem
    have hnode : Replaced (IsConstant program marker) (e.withChildren es₁) (e.withChildren es₂) :=
      .withChildren heach₁.length_eq hes
    cases hcompletes₁ with
    | kept hcall =>
      cases hcompletes₂ with
      | kept _ => exact ⟨hnode, List.rel_append hfirst .nil⟩
      | settled heq _ _ _ =>
        rw [heq] at hcall
        cases hcall
    | settled heq₁ hnode₁ hcallee₁ hsettled₁ =>
      cases hcompletes₂ with
      | kept hcall =>
        rw [heq₁] at hcall
        cases hcall
      | settled heq₂ hnode₂ hcallee₂ hsettled₂ =>
        obtain rfl := Call.expr_injective (heq₁.symm.trans heq₂)
        -- Either call passes the walk exactly if the call as it is written does.
        have hcheck := (check_of_each heach₂ heq₂ hnode₂).trans
          (check_of_each heach₁ heq₁ hnode₁).symm
        rw [hnode₁, hnode₂] at hnode
        obtain ⟨hreplaced, hlast⟩ := hsettled₁.raised hsteps hdepth hcheck
          (hcallee₂.trans hcallee₁.symm) hnode hsettled₂
        exact ⟨hreplaced, List.rel_append hfirst hlast⟩

theorem FoldsOption.raised {caller : FunctionId} {e e₁ e₂ : Option Expr}
    {new₁ new₂ : List FoldRecord} (h₁ : FoldsOption program ⟨marker, limits⟩ caller e e₁ new₁)
    (h₂ : FoldsOption program ⟨marker, limits'⟩ caller e e₂ new₂) :
    List.Forall₂ FoldRecord.Upheld new₁ new₂ := by
  cases h₁ with
  | none =>
    cases h₂
    exact .nil
  | some h₁ =>
    cases h₂ with
    | some h₂ => exact (h₁.raised hsteps hdepth h₂).2

/-- **Raising the limits only adds folds.** Two passes over one program, the second with no smaller
limits, put the same calls on record. What was folded is folded to the same value, what would throw
would throw the same, and what is ineligible is so for the same reason; only a verdict about limits
may become another. -/
theorem run_raised {folded folded' : Folded} (h : run program ⟨marker, limits⟩ = .ok folded)
    (h' : run program ⟨marker, limits'⟩ = .ok folded') :
    List.Forall₂ FoldRecord.Upheld folded.records.toList folded'.records.toList := by
  refine ((folds_run program _ h).upheld (R := fun _ _ => True) (folds_run program _ h') ?_).2
  rintro function - _ _ new new' ⟨body, -, hbody⟩ ⟨body', -, hbody'⟩
  exact ⟨trivial, hbody.raised hsteps hdepth hbody'⟩

end

/-- `evalDouble` takes a step for each of the `n` times it adds two, `evalQuotient` divides twelve
by `n`. In `main`, both are called with what `evalDouble` gives. -/
def ladder : Program :=
  Prod.snd <| Build.run do
    let double ← Build.declare "evalDouble" [("n", .int)] .int
    let loop ← Build.newLoop
    let positive ← Build.intTest "less" (.int 0) (.read "n" double)
    let add ← Build.addTo double "s" (.int 2)
    let next ← Build.addTo double "n" (.int (-1))
    Build.define double (.block
      [.declare "s" .int (some (.int 0)),
        .loop .testFirst loop none positive (some (.block [add, next])),
        .returnFrom double (.read "s" double)])
    let quotient ← Build.declare "evalQuotient" [("n", .int)] .int
    let ratio ← Build.intOp "div" (.int 12) (.read "n" quotient)
    Build.define quotient (.block [.returnFrom quotient ratio])
    let main ← Build.declare "main" [("k", .int)] .int
    Build.define main (.block [.call double none [.call double none [.int 2]],
      .call quotient none [.call double none [.int 0]],
      .returnFrom main (.call quotient none [.read "k" main])])

/-- With one step, two of the five calls run into the limit. With four steps these two are folded,
and nothing else changes. -/
theorem run_raised_ladder : ∃ folded folded',
    run ladder { limits := ⟨1, 1⟩ } = .ok folded ∧ run ladder { limits := ⟨4, 1⟩ } = .ok folded' ∧
    folded.records.toList.map (·.verdict) = [.limitExceeded (.steps 1), .limitExceeded (.steps 1),
      .folded (.int 0), .faulty .divisionByZero, .ineligible (.foreignVariable "k" ⟨5⟩)] ∧
    folded'.records.toList.map (·.verdict) = [.folded (.int 4), .folded (.int 8),
      .folded (.int 0), .faulty .divisionByZero, .ineligible (.foreignVariable "k" ⟨5⟩)] ∧
    List.Forall₂ FoldRecord.Upheld folded.records.toList folded'.records.toList := by
  obtain ⟨folded, hrun, hverdicts⟩ := exists_folded ladder { limits := ⟨1, 1⟩ }
    (f := (·.records.toList.map (·.verdict))) (a := [.limitExceeded (.steps 1),
      .limitExceeded (.steps 1), .folded (.int 0), .faulty .divisionByZero,
      .ineligible (.foreignVariable "k" ⟨5⟩)]) (by decide +kernel)
  obtain ⟨folded', hrun', hverdicts'⟩ := exists_folded ladder { limits := ⟨4, 1⟩ }
    (f := (·.records.toList.map (·.verdict))) (a := [.folded (.int 4), .folded (.int 8),
      .folded (.int 0), .faulty .divisionByZero, .ineligible (.foreignVariable "k" ⟨5⟩)])
    (by decide +kernel)
  exact ⟨folded, folded', hrun, hrun', hverdicts, hverdicts',
    run_raised (by decide) (by decide) hrun hrun'⟩

end Folding

end CallFolding
