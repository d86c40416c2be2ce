import CallFolding.Proofs.Layout
import CallFolding.Proofs.Steady

/-!
Evaluation leaves the variables in balance. Whatever an expression is and however its evaluation
ends, the frames and activations it opened are closed again and no others are. Of the bindings that
were there, those of callers are untouched, and those of the current activation have at most other
values; what was added is in the innermost frame.

Most of this is true wherever an activation has its first frame open (`Keeps.continues`). Only to
say which frame the new bindings are in, the layout of the scope matters.
-/

set_option autoImplicit false

namespace CallFolding

/-- What may become of the scope `s` in the course of an evaluation in its current activation. -/
structure Scope.Balanced {α : Type} (s s' : Scope α) : Prop where
  activations : s'.activations = s.activations
  frames : s'.frames = s.frames
  /-- Bindings below the current activation are the same. -/
  callers : ∃ start, s.activationStart? = some start ∧
    ∀ i, i < start → s'.bindings[i]? = s.bindings[i]?
  /-- Older bindings have their names and places. -/
  older : ∀ (i : Nat) (name : String) (value : α), s.bindings[i]? = some (name, value) →
    ∃ value', s'.bindings[i]? = some (name, value')
  /-- Newer bindings are in the innermost frame. -/
  newer : ∀ i, s.bindings.size ≤ i → i < s'.bindings.size → s'.Holds (s'.frames.size - 1) i

/-- A continuation is balanced. The order of the scope it starts from is what tells the bindings of
callers from those of the current activation, and new ones from those of outer frames. -/
theorem Scope.Continues.balanced {α : Type} {s s' : Scope α} (h : s.Continues s')
    (hordered : s.Ordered) (hanchored : s.Anchored) : s.Balanced s' where
  activations := h.activations
  frames := h.frames
  callers := by
    obtain ⟨start, hstart⟩ := hanchored.activationStart?
    refine ⟨start, hstart, fun i hi => ?_⟩
    -- The current activation does not start beyond the bindings.
    have hsize : start ≤ s.bindings.size := hordered.activationStart?_le hstart
    exact h.below start hstart i hi (Nat.lt_of_lt_of_le hi hsize)
  older i name value hget := by
    obtain ⟨hi, -⟩ := Array.getElem?_eq_some_iff.mp hget
    have hname := h.names i hi
    rw [hget, Option.map_some] at hname
    obtain ⟨⟨name', value'⟩, hget', rfl⟩ := Option.map_eq_some_iff.mp hname
    exact ⟨value', hget'⟩
  newer i hnew hi := by
    obtain ⟨first, -, hlt⟩ := hanchored
    have hopen : s.frames ≠ #[] := Array.size_pos_iff.mp (Nat.zero_lt_of_lt hlt)
    exact hordered.holds_innermost hopen h hnew hi

namespace Setting

/-- **Every evaluation leaves the variables in balance**, in any scope that has an activation, and
however it ends. -/
theorem balanced_eval (setting : Setting) (e : Expr) (m : Machine) (hreach : m.scope.Reachable)
    (hopen : 0 < m.scope.depth) : m.scope.Balanced (Outcome.machine (setting.eval e m)).scope := by
  have hordered := hreach.ordered
  have hanchored := hordered.rooted.anchored (Nat.ne_of_gt hopen)
  have hkept := setting.steady_evalAt (setting.limits.room m.scope.depth) e m
  exact (hkept.continues hanchored).balanced hordered hanchored

/-- A caller with the variable `a`, and a callee with `n` in its first frame and `t` in a second. -/
def nested : Scope Literal :=
  ⟨#[("a", .int 1), ("n", .int 3), ("t", .int 0)], #[0, 1, 2], #[0, 1]⟩

/-- A return whose value is that of a new variable `u`, which is set to what is written to `n`. -/
def writingReturn : Expr :=
  .returnFrom ⟨0⟩ (.declare "u" .int (some (.assign "n" ⟨0⟩ (.const (.int 5)))))

/-- The exit leaves `n` with another value and `u` in the second frame of the callee. -/
theorem balanced_eval_writingReturn : let setting : Setting := ⟨{}, "eval", {}⟩
    nested.Reachable ∧ 0 < nested.depth ∧
    setting.eval writingReturn { scope := nested } = .error (.returned ⟨0⟩ (.int 5))
      { scope := ⟨#[("a", .int 1), ("n", .int 5), ("t", .int 0), ("u", .int 5)], #[0, 1, 2],
        #[0, 1]⟩ } ∧
    nested.Balanced (Outcome.machine (setting.eval writingReturn { scope := nested })).scope := by
  intro setting
  have hcaller : Scope.Reachable ⟨#[("a", Literal.int 1)], #[0], #[0]⟩ :=
    (Relation.ReflTransGen.single (.pushActivation .empty)).tail
      (.define (show Scope.define _ "a" (Literal.int 1) = .ok _ from rfl))
  have hcallee : Scope.Reachable ⟨#[("a", Literal.int 1), ("n", .int 3)], #[0, 1], #[0, 1]⟩ :=
    (hcaller.tail (.pushActivation _)).tail
      (.define (show Scope.define _ "n" (Literal.int 3) = .ok _ from rfl))
  have hnested : nested.Reachable :=
    (hcallee.tail (.pushFrame _)).tail
      (.define (show Scope.define _ "t" (Literal.int 0) = .ok _ from rfl))
  have hopen : 0 < nested.depth := by decide
  exact ⟨hnested, hopen, rfl, balanced_eval setting writingReturn { scope := nested } hnested hopen⟩

end Setting

end CallFolding
