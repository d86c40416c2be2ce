import CallFolding.Expr

/-!
The functions and loops that a walk through a program is inside of, innermost first. It says which
functions need not be entered again, and what variables, returns and jumps can refer to.
-/

set_option autoImplicit false

namespace CallFolding

/-- Something that encloses the place a walk has reached. -/
inductive Enclosing where
  | function (id : FunctionId)
  | loop (id : LoopId)
deriving DecidableEq

/-- What encloses a place, innermost first. -/
abbrev Trail := List Enclosing

namespace Trail

/-- The nearest function around. -/
def currentFunction? : Trail → Option FunctionId
  | [] => none
  | .function id :: _ => some id
  | .loop _ :: rest => currentFunction? rest

/-- Whether the loop is around, with no function in between. -/
def isInLoop (id : LoopId) : Trail → Bool
  | [] => false
  | .function _ :: _ => false
  | .loop other :: rest => other == id || isInLoop id rest

end Trail

end CallFolding
