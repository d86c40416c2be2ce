/-!
Variables during evaluation.

All bindings stand in one array, oldest first. Two more arrays mark where things begin: `frames`
holds, for each frame, the position of its first binding, and `activations` holds, for each
activation, the number of its first frame.

```text
bindings:     m=7 | k=3  t=1 | m=2 | u=0
frames:       0     1          3     4
activations:  0                2
```

A name is looked up in the current activation only, newest binding first: a callee does not see
the locals of its caller, and an inner declaration hides an outer one until its frame is closed.
A frame may be opened before there is any activation; nothing can be looked up in it.

What may fail is an edit: it ends with an error or not, and leaves a scope in either case.
-/

set_option autoImplicit false

namespace CallFolding

/-- Why a variable could not be introduced or written. -/
inductive BindError where
  | noScope
  | alreadyDefined (name : String)
  | undefined (name : String)
deriving DecidableEq

def BindError.message : BindError → String
  | noScope => "no scope to bind in"
  | alreadyDefined name => "variable '" ++ name ++ "' is already defined in the current scope"
  | undefined name => "variable '" ++ name ++ "' is not defined"

/-- Why a frame or an activation could not be closed. -/
inductive PopError where
  | noActivation
  | activationBoundary
deriving DecidableEq

def PopError.message : PopError → String
  | noActivation => "no activation to pop"
  | activationBoundary => "cannot pop the outermost frame of an activation"

structure Scope (α : Type) where
  bindings : Array (String × α) := #[]
  /-- The first binding of each frame. -/
  frames : Array Nat := #[]
  /-- The first frame of each activation. -/
  activations : Array Nat := #[]

namespace Scope

variable {α : Type}

/-- No activation, no frame and no binding. -/
def empty : Scope α := {}

/-- The number of open activations. -/
def depth (s : Scope α) : Nat :=
  s.activations.size

/-! ## Opening and closing -/

/-- Opens an empty frame. -/
@[inline] def pushFrame (s : Scope α) : Scope α :=
  { s with frames := s.frames.push s.bindings.size }

/-- Opens an activation with one empty frame. -/
@[inline] def pushActivation (s : Scope α) : Scope α :=
  { s with activations := s.activations.push s.frames.size }.pushFrame

/-! ## Variables -/

/-- The position of the newest binding of `name` among those from `floor` up to below the last
argument. -/
def newest (bindings : Array (String × α)) (name : String) (floor : Nat) : Nat → Option Nat
  | 0 => none
  | i + 1 =>
    if i < floor then none
    else if bindings[i]?.any (·.1 == name) then some i
    else newest bindings name floor i

/-- The first binding of the current activation. -/
@[inline] def activationStart? (s : Scope α) : Option Nat :=
  s.activations.back?.bind (s.frames[·]?)

/-- The position of the binding that `name` stands for. -/
@[inline] def position? (s : Scope α) (name : String) : Option Nat :=
  s.activationStart?.bind (newest s.bindings name · s.bindings.size)

/-- The value of `name`. -/
@[inline] def lookup (s : Scope α) (name : String) : Option α :=
  (s.position? name).bind (s.bindings[·]?.map (·.2))

/-! ## Edits -/

/-- Operations that may fail. A scope is left also if they do. -/
abbrev Edit (ε α : Type) := EStateM ε (Scope α)

namespace Edit

/-- Closes the innermost frame of the current activation, unless it is the only one. -/
@[inline] def popFrame : Edit PopError α Unit := fun s =>
  match s.activations.back? with
  | none => .error .noActivation s
  | some first =>
    if s.frames.size ≤ first + 1 then .error .activationBoundary s
    else
      let start := s.frames.back?.getD s.bindings.size
      .ok () { s with frames := s.frames.pop, bindings := s.bindings.shrink start }

/-- Closes the current activation with every frame it opened. -/
@[inline] def popActivation : Edit PopError α Unit := fun s =>
  let last? := s.activations.back?
  -- The mark is taken off before it is known whether there was one.
  let s := { s with activations := s.activations.pop }
  match last? with
  | none => .error .noActivation s
  | some first =>
    let start := s.frames[first]?.getD s.bindings.size
    .ok () { s with frames := s.frames.shrink first, bindings := s.bindings.shrink start }

/-- Introduces `name` in the innermost frame. -/
@[inline] def define (name : String) (value : α) : Edit BindError α Unit := fun s =>
  match s.frames.back? with
  | none => .error .noScope s
  | some start =>
    if (newest s.bindings name start s.bindings.size).isSome then .error (.alreadyDefined name) s
    else .ok () { s with bindings := s.bindings.push (name, value) }

/-- Gives the binding that `name` stands for another value. -/
@[inline] def assign (name : String) (value : α) : Edit BindError α Unit := fun s =>
  match s.activationStart? with
  | none => .error .noScope s
  | some start =>
    match newest s.bindings name start s.bindings.size with
    | none => .error (.undefined name) s
    | some i => .ok () { s with bindings := s.bindings.setIfInBounds i (name, value) }

end Edit

end Scope

end CallFolding
