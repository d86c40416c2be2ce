import CallFolding.Program.Builder
import CallFolding.Proofs.Constant
import CallFolding.Proofs.Pass

/-!
Folding keeps the meaning of a program. What a pass puts in the place of a call is the value the
call has on its own, so a folded program is the program it was made from with constant calls
replaced (`Folding.replaced_run`). No evaluation that stays within its limits can tell the two
apart.
-/

set_option autoImplicit false

namespace CallFolding

namespace Folding

open Setting (IsConstant)

variable (program : Program) (options : Options)

/-- The operands of a call are folded first, so it is the call with folded operands that was found
to have a value; but then the call as it was is constant too. -/
theorem justifies_isConstant :
    Justifies program options (IsConstant program options.marker) := by
  intro call call' value hcall hjudge
  have hconst := Setting.isConstant_of_evalCall (evalCall_of_judge program options hjudge)
  exact Setting.isConstant_of_replaced hcall hconst

/-- **A folded program is the program with constant calls replaced.** -/
theorem replaced_run {folded : Folded} (h : run program options = .ok folded) :
    program.Replaced (IsConstant program options.marker) folded.program :=
  replaced_of_justifies (justifies_isConstant program options) h

/-- **Folding keeps the meaning of a program.** Any call that is evaluated without running into a
limit has the same result in the folded program, be it a value or a failure. -/
theorem evalCall_run {folded : Folded} (h : run program options = .ok folded) (limits : Limits)
    (call : Call) (hlimit : ∀ cause,
      Setting.evalCall ⟨program, options.marker, limits⟩ call ≠ .error (.limit cause)) :
    Setting.evalCall ⟨folded.program, options.marker, limits⟩ call =
      Setting.evalCall ⟨program, options.marker, limits⟩ call :=
  Setting.evalCall_of_replaced limits call (replaced_run program options h) hlimit

/-- `evalSum` adds up the numbers from `n` down to one in a loop, and `evalSums` calls it once with
a constant and once with a variable. -/
def sums : Program :=
  Prod.snd <| Build.run do
    let sum ← Build.declare "evalSum" [("n", .int)] .int
    let loop ← Build.newLoop
    let positive ← Build.intTest "less" (.int 0) (.read "n" sum)
    let add ← Build.addTo sum "s" (.read "n" sum)
    let next ← Build.addTo sum "n" (.int (-1))
    Build.define sum (.block
      [.declare "s" .int (some (.int 0)),
        .loop .testFirst loop none positive (some (.block [add, next])),
        .returnFrom sum (.read "s" sum)])
    let both ← Build.declare "evalSums" [("k", .int)] .int
    Build.define both (.block [.returnFrom both
      (← Build.intOp "plus" (.call sum none [.int 3]) (.call sum none [.read "k" both]))])

/-- One of the two calls in `evalSums` is folded, and the result of `evalSums` stays the same. -/
theorem evalCall_run_sums : ∃ folded, run sums {} = .ok folded ∧ folded.count = 1 ∧
    Setting.evalCall ⟨folded.program, "eval", {}⟩ ⟨⟨3⟩, none, [.int 2]⟩ = .ok (.int 9) := by
  have hvalue : Setting.evalCall ⟨sums, "eval", {}⟩ ⟨⟨3⟩, none, [.int 2]⟩ = .ok (.int 9) := by
    decide +kernel
  obtain ⟨folded, hrun, hcount⟩ := exists_folded sums {} (f := Folded.count) (a := 1)
    (by decide +kernel)
  refine ⟨folded, hrun, hcount, ?_⟩
  rw [← hvalue]
  refine evalCall_run sums {} hrun {} _ fun cause => ?_
  show Setting.evalCall ⟨sums, "eval", {}⟩ _ ≠ _
  rw [hvalue]
  exact nofun

end Folding

end CallFolding
