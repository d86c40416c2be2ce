/-!
How much an evaluation may do. A step is one finished pass through the body of a loop; a call costs
no step, but calls nest only so deep. Both limits are inclusive: exactly that many steps, and
exactly that many open activations, are fine.

Steps are counted in 64 bits (`charge`). After the greatest number such a counter starts again, so
with that number as the limit there is no limit at all. The evaluator has to end under every limit
and counts on (`tally`). The two are the same under every limit but the greatest.
-/

set_option autoImplicit false

namespace CallFolding

/-- The ceilings of one evaluation. -/
structure Limits where
  /-- The greatest number of steps. -/
  steps : Nat := 1000000
  /-- The greatest number of open activations. -/
  depth : Nat := 1000
deriving DecidableEq

/-- The ceiling that was hit, with its value. -/
inductive LimitExceeded where
  | steps (limit : Nat)
  | depth (limit : Nat)
deriving DecidableEq

def LimitExceeded.message : LimitExceeded → String
  | steps limit => "evaluation exceeded the step limit of " ++ toString limit
  | depth limit => "evaluation exceeded the call depth limit of " ++ toString limit

namespace Limits

/-- Counts one more step. The count goes up even if that is one too many, and starts again at zero
after the greatest number of 64 bits. -/
@[inline] def charge (limits : Limits) : EStateM LimitExceeded UInt64 Unit := fun count =>
  if limits.steps < (count + 1).toNat then .error (.steps limits.steps) (count + 1)
  else .ok () (count + 1)

/-- Counts one more step, and never starts again. -/
def tally (limits : Limits) : EStateM LimitExceeded Nat Unit := fun count =>
  if limits.steps < count + 1 then .error (.steps limits.steps) (count + 1) else .ok () (count + 1)

/-- How many activations can still be opened when `depth` are open. -/
def room (limits : Limits) (depth : Nat) : Nat :=
  limits.depth - depth

/-- Refuses a call when there is no room for its activation. -/
def enter (limits : Limits) (depth : Nat) : Except LimitExceeded Unit :=
  if limits.room depth = 0 then .error (.depth limits.depth) else .ok ()

/-- How many passes a loop can make once `count` steps are counted. The last of them fails to be
charged, so a loop never gets beyond it. -/
def passes (limits : Limits) (count : Nat) : Nat :=
  limits.steps - count + 1

end Limits

end CallFolding
