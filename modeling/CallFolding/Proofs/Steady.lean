import CallFolding.Proofs.RunRelation
import CallFolding.Proofs.Scope

/-!
What every evaluation keeps.

However a run ends, it leaves the activations that were open, and never takes back a step. Started
inside an activation it leaves a continuation of the scope it found, and never fails for want of a
frame. Started with nothing open it either fails or leaves the scope as it was: a block, a branch or
a loop fails there because its frame cannot be closed, and a declaration because there is none.
-/

set_option autoImplicit false

namespace CallFolding

/-- Nothing takes a failure. -/
def Exit.IsFailure : Exit → Prop
  | .failed _ => True
  | _ => False

namespace Outcome

variable {α : Type}

/-- A frame could not be closed, or there was none to bind in. -/
def IsUnscoped : Outcome α → Prop
  | .ok _ _ => False
  | .error exit _ => exit.IsUnscoped

/-- The run failed: nothing will take its exit. -/
def IsFailure : Outcome α → Prop
  | .ok _ _ => False
  | .error exit _ => exit.IsFailure

@[simp] theorem isUnscoped_withScope (x : Outcome α) (scope : Scope Literal) :
    (x.withScope scope).IsUnscoped ↔ x.IsUnscoped := by
  cases x <;> rfl

@[simp] theorem isFailure_withScope (x : Outcome α) (scope : Scope Literal) :
    (x.withScope scope).IsFailure ↔ x.IsFailure := by
  cases x <;> rfl

end Outcome

/-- What a run that starts in `m` and ends like `x` has kept. -/
structure Keeps {α : Type} (m : Machine) (x : Outcome α) : Prop where
  activations : x.machine.scope.activations = m.scope.activations
  steps : m.steps ≤ x.machine.steps
  continues : m.scope.Anchored → m.scope.Continues x.machine.scope
  inScope : m.scope.Anchored → ¬ x.IsUnscoped
  bare : m.scope.Bare → x.IsFailure ∨ x.machine.scope = m.scope

namespace Keeps

variable {α β : Type} {m m' : Machine}

/-- A value in the state of the start keeps everything. -/
theorem value (a : α) (m : Machine) : Keeps m (.ok a m) :=
  ⟨rfl, Nat.le_refl _, fun _ => .refl _, fun _ => not_false, fun _ => .inr rfl⟩

theorem exit {x : Exit} (h : ¬ x.IsUnscoped) (m : Machine) : Keeps m (.error x m : Outcome α) :=
  ⟨rfl, Nat.le_refl _, fun _ => .refl _, fun _ => h, fun _ => .inr rfl⟩

/-- As many activations are open at the end as at the start. -/
theorem depth_eq {x : Outcome α} (h : Keeps m x) : x.machine.scope.depth = m.scope.depth := by
  rw [Scope.depth, Scope.depth, h.activations]

theorem rooted {x : Outcome α} (h : Keeps m x) (hm : m.scope.Rooted) : x.machine.scope.Rooted := by
  by_cases hd : m.scope.depth = 0
  · exact Scope.rooted_of_depth_zero (h.depth_eq.trans hd)
  · have ha := hm.anchored hd
    exact ((h.continues ha).anchored ha).rooted

/-- One run after another that ended with a value. -/
theorem trans {a : α} {y : Outcome β} (h : Keeps m (.ok a m' : Outcome α)) (h' : Keeps m' y) :
    Keeps m y where
  activations := h'.activations.trans h.activations
  steps := Nat.le_trans h.steps h'.steps
  continues ha := (h.continues ha).trans (h'.continues ((h.continues ha).anchored ha))
  inScope ha := h'.inScope ((h.continues ha).anchored ha)
  bare hb := by
    -- With nothing open the first run left the scope as it was, since it did not fail.
    have hsame : m'.scope = m.scope := (h.bare hb).resolve_left not_false
    rcases h'.bare (by rw [hsame]; exact hb) with hfail | hscope
    · exact .inl hfail
    · exact .inr (hscope.trans hsame)

/-- Another way to end in the same state, if it is not worse. -/
theorem relabel {x : Outcome α} {y : Outcome β} (h : Keeps m x) (hm : y.machine = x.machine)
    (hu : y.IsUnscoped → x.IsUnscoped) (hf : x.IsFailure → y.IsFailure) : Keeps m y where
  activations := by rw [hm]; exact h.activations
  steps := by rw [hm]; exact h.steps
  continues ha := by rw [hm]; exact h.continues ha
  inScope ha hy := h.inScope ha (hu hy)
  bare hb := by
    rw [hm]
    exact (h.bare hb).imp_left hf

end Keeps

/-- The run keeps what it should wherever it starts. -/
def Run.Steady {α : Type} (r : Run α) : Prop :=
  ∀ m, Keeps m (r m)

namespace Run.Steady

variable {α β : Type}

/-- What a steady run has kept when it has a value. -/
theorem keeps_of_ok {r : Run α} (h : Steady r) {a : α} {m m' : Machine} (hr : r m = .ok a m') :
    Keeps m (.ok a m' : Outcome α) := by
  have hkept := h m
  rwa [hr] at hkept

/-- A run that ends with a value leaves the activation it started in. -/
theorem anchored_of_ok {r : Run α} (h : Steady r) {a : α} {m m' : Machine} (hr : r m = .ok a m')
    (hm : m.scope.Anchored) : m'.scope.Anchored :=
  ((h.keeps_of_ok hr).continues hm).anchored hm

/-- Steady runs one after the other are steady. -/
theorem bind {r : Run α} {f : α → Run β} (h : Steady r) (hf : ∀ a, Steady (f a)) :
    Steady (r >>= f) := by
  intro m
  have hr := h m
  cases hx : r m with
  | ok a m' =>
    rw [hx] at hr
    rw [Run.bind_of_ok hx]
    exact hr.trans (hf a m')
  | error exit m' =>
    rw [hx] at hr
    rw [Run.bind_of_error hx]
    exact hr.relabel rfl id id

theorem inOrder {run : Expr → Run Literal} (h : ∀ e, Steady (run e)) : ∀ (es : List Expr) last,
    Steady (Run.inOrder last (es.map run))
  | [], last => fun m => .value last m
  | e :: es, _ => (h e).bind fun value => inOrder h es value

theorem values {run : Expr → Run Literal} (h : ∀ e, Steady (run e)) (es : List Expr) :
    Steady (Run.values (es.map run)) := by
  induction es with
  | nil => exact .value []
  | cons e es ih => exact (h e).bind fun value => ih.bind fun rest => .value (value :: rest)

/-! ## Variables and steps -/

/-- Introducing a variable continues the scope, and fails for want of a frame only where none is
open. -/
theorem define (name : String) (value : Literal) : Steady (Run.define name value) := by
  intro m
  rw [Run.define_eq]
  cases h : m.scope.define name value with
  | ok scope =>
    have hc : m.scope.Continues scope := .of_define h
    refine ⟨hc.activations, Nat.le_refl _, fun _ => hc, fun _ => not_false, fun hb => ?_⟩
    simp [Scope.define, hb.2] at h
  | error cause =>
    refine ⟨rfl, Nat.le_refl _, fun _ => .refl _, fun ha hu => ?_, fun _ => .inr rfl⟩
    -- The first frame of the activation is there to bind in.
    obtain ⟨first, _, hlt⟩ := ha
    have hne : m.scope.frames.back? ≠ none := by
      rw [Ne, Array.back?_eq_none_iff]
      intro hempty
      simp [hempty] at hlt
    cases cause with
    | noScope =>
      simp only [Scope.define] at h
      split at h
      · rename_i hnone
        exact hne hnone
      · split at h <;> cases h
    | _ => exact hu

/-- An assignment inside an activation finds it, whether or not it finds the variable. -/
theorem assign (name : String) (value : Literal) : Steady (Run.assign name value) := by
  intro m
  rw [Run.assign_eq]
  cases h : m.scope.assign name value with
  | ok scope =>
    have hc : m.scope.Continues scope := .of_assign h
    refine ⟨hc.activations, Nat.le_refl _, fun _ => hc, fun _ => not_false, fun hb => ?_⟩
    simp [Scope.assign, Scope.activationStart?, hb.1] at h
  | error cause =>
    refine ⟨rfl, Nat.le_refl _, fun _ => .refl _, fun ha hu => ?_, fun _ => .inr rfl⟩
    -- The activation is there, so the only thing that can be missing is the variable.
    obtain ⟨start, hstart⟩ := ha.activationStart?
    cases cause with
    | noScope =>
      simp only [Scope.assign, hstart] at h
      split at h <;> cases h
    | _ => exact hu

theorem read (name : String) : Steady (Run.read name) := by
  intro m
  unfold Run.read
  cases m.scope.lookup name with
  | some value => exact .value value m
  | none =>
    refine .exit ?_ m
    exact not_false

/-- Counting touches the count alone, which only grows. -/
theorem tally (limits : Limits) : Steady (Run.tally limits) := by
  intro m
  unfold Run.tally Limits.tally
  split
  · rename_i h
    split at h
    · cases h
    · cases h
      exact ⟨rfl, Nat.le_succ _, fun _ => .refl _, fun _ => not_false, fun _ => .inr rfl⟩
  · rename_i h
    split at h
    · cases h
      exact ⟨rfl, Nat.le_succ _, fun _ => .refl _, fun _ => not_false, fun _ => .inr rfl⟩
    · cases h

/-! ## Frames and activations -/

/-- Where there is no activation, a frame can be opened but not closed. -/
theorem inFrame_of_depth_zero {r : Run α} (h : Steady r) {m : Machine} (hd : m.scope.depth = 0) :
    r.inFrame m =
      .error (.failed (.defect (.pop .noActivation))) (Outcome.machine (r m.framed)) := by
  have hdepth : (Outcome.machine (r m.framed)).scope.depth = 0 := (h m.framed).depth_eq.trans hd
  rw [Run.inFrame_eq_close, Outcome.closeFrame_of_error (Scope.popFrame_of_depth_zero hdepth)]

/-- Inside an activation, a frame that is opened is closed again. -/
theorem inFrame_of_anchored {r : Run α} (h : Steady r) {m : Machine} (ha : m.scope.Anchored) :
    ∃ t, (Outcome.machine (r m.framed)).scope.popFrame = .ok t ∧ m.scope.Continues t ∧
      r.inFrame m = Outcome.withScope (r m.framed) t := by
  obtain ⟨t, hpop, hc⟩ := Scope.popFrame_of_continues ha ((h m.framed).continues ha.pushFrame)
  exact ⟨t, hpop, hc, Run.inFrame_of_popFrame hpop⟩

/-- A frame around a steady run leaves it steady. -/
theorem inFrame {r : Run α} (h : Steady r) : Steady r.inFrame := by
  intro m
  have hr := h m.framed
  -- Closing takes one frame away or none, so the activations stay whether or not it fails.
  constructor
  · rw [Run.inFrame_eq_close]
    cases hpop : (Outcome.machine (r m.framed)).scope.popFrame with
    | ok t =>
      rw [Outcome.closeFrame_of_ok hpop, Outcome.machine_withScope]
      exact (Scope.activations_of_popFrame hpop).trans hr.activations
    | error cause =>
      rw [Outcome.closeFrame_of_error hpop]
      exact hr.activations
  · rw [Run.inFrame_eq_close, Outcome.steps_close]
    exact hr.steps
  · intro ha
    obtain ⟨t, _, hc, heq⟩ := h.inFrame_of_anchored ha
    rw [heq, Outcome.machine_withScope]
    exact hc
  · intro ha
    obtain ⟨t, _, _, heq⟩ := h.inFrame_of_anchored ha
    rw [heq, Outcome.isUnscoped_withScope]
    exact hr.inScope ha.pushFrame
  -- With nothing open, closing fails.
  · intro hb
    have hd : m.scope.depth = 0 := by rw [Scope.depth, hb.1]; rfl
    rw [h.inFrame_of_depth_zero hd]
    exact .inl trivial

/-- An activation is gone without a trace when it is closed. -/
theorem inActivation_eq {r : Run α} (h : Steady r) (m : Machine) :
    r.inActivation m = Outcome.withScope (r m.activated) m.scope :=
  Run.inActivation_of_popActivation (Scope.popActivation_of_continues
    ((h m.activated).continues (Scope.anchored_pushActivation m.scope)))

theorem inActivation {r : Run α} (h : Steady r) : Steady r.inActivation := by
  intro m
  have hr := h m.activated
  rw [h.inActivation_eq]
  refine ⟨?_, ?_, fun _ => ?_, fun _ => ?_, fun _ => .inr ?_⟩
  · rw [Outcome.machine_withScope]
  · rw [Outcome.machine_withScope]
    exact hr.steps
  · rw [Outcome.machine_withScope]
    exact .refl _
  · rw [Outcome.isUnscoped_withScope]
    exact hr.inScope (Scope.anchored_pushActivation m.scope)
  · rw [Outcome.machine_withScope]

/-! ## Exits that are taken -/

/-- Taking a jump keeps what the pass has kept. -/
theorem pass (id : LoopId) {runs : List (Run Literal)} (h : Steady (Run.inOrder .unit runs)) :
    Steady (Run.pass id runs) := by
  intro m
  have hr := h m
  unfold Run.pass
  cases hx : Run.inOrder .unit runs m with
  | ok value m' =>
    rw [hx] at hr
    exact hr.relabel rfl (fun hu => hu) (fun hf => hf)
  | error exit m' =>
    rw [hx] at hr
    cases exit with
    | broke target =>
      rw [Run.endOfPass]
      split <;> exact hr.relabel rfl (fun hu => hu) (fun hf => hf)
    | continued target =>
      rw [Run.endOfPass]
      split <;> exact hr.relabel rfl (fun hu => hu) (fun hf => hf)
    | _ => exact hr.relabel rfl (fun hu => hu) (fun hf => hf)

/-- So does taking a return. A missing one is a failure, but not of the scope. -/
theorem catchReturn (function : Function) {r : Run Literal} (h : Steady r) :
    Steady (Setting.catchReturn function r) := by
  intro m
  have hr := h m
  unfold Setting.catchReturn
  cases hx : r m with
  | ok value m' =>
    rw [hx] at hr
    rw [Run.endOfCall]
    split <;> exact hr.relabel rfl (fun hu => hu) (fun hf => False.elim hf)
  | error exit m' =>
    rw [hx] at hr
    cases exit with
    | returned target value =>
      rw [Run.endOfCall]
      split <;> exact hr.relabel rfl (fun hu => hu) (fun hf => hf)
    | _ => exact hr.relabel rfl (fun hu => hu) (fun hf => hf)

/-! ## Loops -/

theorem repeatWhile (limits : Limits) {r : Run Bool} (h : Steady r) :
    ∀ n, Steady (Run.repeatWhile limits r n)
  | 0 => fun m => by
    refine .exit ?_ m
    exact not_false
  | n + 1 => by
    refine h.bind fun again => ?_
    cases again with
    | false => exact fun m => .value () m
    | true => exact repeatWhile limits h n

theorem loop (limits : Limits) {r : Run Bool} (h : Steady r) : Steady (Run.loop limits r) :=
  fun m => (h.repeatWhile limits _).bind (fun _ m => .value Literal.unit m) m

/-- Asking for a truth value may fail, but not for want of a frame. -/
theorem condition {r : Run Literal} (h : Steady r) : Steady r.condition := by
  refine h.bind fun value => ?_
  unfold Run.truth
  cases value.boolean? with
  | some b => exact fun m => .value b m
  | none =>
    intro m
    refine .exit ?_ m
    exact not_false

/-- A choice between steady arms is steady. -/
theorem firstTrue {run : Expr → Run Literal} (h : ∀ e, Steady (run e)) :
    ∀ arms : List (Expr × Expr),
      Steady (Run.firstTrue (arms.map fun arm => (run arm.1, run arm.2)))
  | [] => fun m => .value Literal.unit m
  | arm :: arms => by
    refine (h arm.1).condition.bind fun holds => ?_
    cases holds with
    | false => exact firstTrue h arms
    | true => exact h arm.2

/-- A round that tests first, from its test and its statements. -/
theorem firstPass (limits : Limits) (id : LoopId) {test : Run Literal} {runs : List (Run Literal)}
    (htest : Steady test) (hruns : Steady (Run.inOrder .unit runs)) :
    Steady (Run.firstPass limits id test runs) := by
  refine htest.condition.bind fun holds => ?_
  cases holds with
  | false => exact fun m => .value false m
  | true =>
    refine (pass id hruns).inFrame.bind fun through => ?_
    cases through with
    | false => exact fun m => .value false m
    | true => exact (tally limits).bind fun _ m => .value true m

theorem passAndTest (limits : Limits) (id : LoopId) {test : Run Literal}
    {runs : List (Run Literal)} (htest : Steady test) (hruns : Steady (Run.inOrder .unit runs)) :
    Steady (Run.passAndTest limits id test runs) := by
  refine (pass id hruns).bind fun through => ?_
  cases through with
  | false => exact fun m => .value false m
  | true => exact (tally limits).bind fun _ => htest.condition

theorem lastPass (limits : Limits) (id : LoopId) {test : Run Literal} {runs : List (Run Literal)}
    (htest : Steady test) (hruns : Steady (Run.inOrder .unit runs)) :
    Steady (Run.lastPass limits id test runs) :=
  (passAndTest limits id htest hruns).inFrame

end Run.Steady

/-! ## Evaluation -/

/-- Being steady, as a relation of which only the left side matters. -/
def Run.steadyRelation (setting : Setting) : RunRelation setting setting where
  Rel r _ := Run.Steady r
  Roomy a b := a = b
  value a m := .value a m
  exit _ h _ m := .exit h m
  andThen h hf := h.bind hf
  define := .define
  assign := .assign
  read := .read
  inFrame h := h.inFrame
  inActivation h := h.inActivation
  catchReturn function _ _ h := h.catchReturn function
  testFirst id _ _ _ _ htest hruns := (htest.firstPass setting.limits id hruns).loop setting.limits
  testLast id _ _ _ _ htest hruns := (htest.lastPass setting.limits id hruns).loop setting.limits
  roomy_succ := RunRelation.exists_room_eq
  refuse _ _ _ _ _ m := by
    refine .exit ?_ m
    exact not_false

namespace Setting

/-- **Every evaluation is steady.** -/
theorem steady_evalAt (setting : Setting) (room : Nat) (e : Expr) :
    (setting.evalAt room e).Steady := by
  have hcompatible : (Run.steadyRelation setting).Compatible fun _ _ => False :=
    ⟨rfl, .refl _ _, fun h => h.elim⟩
  exact RunRelation.evalAt _ hcompatible rfl (.refl _ e)

/-- A call of a marked function is steady, given that its operands are. -/
theorem steady_callMarked (setting : Setting) (room : Nat) (function : Function)
    {runs runs' : List (Run Literal)} (h : List.Forall₂ (fun r _ => r.Steady) runs runs') :
    (setting.callMarked (setting.below room) function runs).Steady := by
  have hbelow : (Run.steadyRelation setting).RelatesBelow (fun _ _ => False) room room :=
    fun {c _} _ _ _ {e _} _ => setting.steady_evalAt c e
  exact (Run.steadyRelation setting).callMarked rfl hbelow function (.refl _ _) h

end Setting

end CallFolding
