import CallFolding.Evaluation.Limits

/-!
Options of a folding pass. Each can be set from text, and an option that is set twice keeps the
last value.
-/

set_option autoImplicit false

namespace CallFolding

structure Options where
  /-- What the names of functions whose calls may be folded start with. -/
  marker : String := "eval"
  limits : Limits := {}
deriving DecidableEq

/-- Why an option could not be set. -/
inductive OptionError where
  | unknownKey (key : String)
  | invalidValue (key value expected : String)
deriving DecidableEq

def OptionError.message : OptionError → String
  | unknownKey key => "unknown option '" ++ key ++ "'"
  | invalidValue key value expected =>
    "invalid value '" ++ value ++ "' for option '" ++ key ++ "': expected " ++ expected

/-- Reads a number below `2 ^ 64`: decimal digits, at most one plus sign before them. -/
def parseWord? (s : String) : Option Nat :=
  let digits :=
    match s.toList with
    | '+' :: rest => rest
    | cs => cs
  let value := digits.foldl (fun n c => 10 * n + (c.toNat - '0'.toNat)) 0
  if !digits.isEmpty && digits.all Char.isDigit && value < UInt64.size then some value else none

namespace Options

def prefixKey : String := "prefix"
def stepLimitKey : String := "step-limit"
def stackLimitKey : String := "stack-limit"

/-- Sets one option from its text. There are options left also if that fails. -/
def set (key value : String) : EStateM OptionError Options Unit := fun options =>
  if key = prefixKey then
    if value.isEmpty then .error (.invalidValue key value "a non-empty prefix") options
    else .ok () { options with marker := value }
  else if key = stepLimitKey then
    match parseWord? value with
    | some n => .ok () { options with limits := { options.limits with steps := n } }
    | none => .error (.invalidValue key value "a non-negative integer") options
  else if key = stackLimitKey then
    match parseWord? value with
    | some n => .ok () { options with limits := { options.limits with depth := n } }
    | none => .error (.invalidValue key value "a non-negative integer") options
  else .error (.unknownKey key) options

/-- What the defaults become, if nothing fails. -/
def ofChange (change : EStateM OptionError Options Unit) : Except OptionError Options :=
  match change {} with
  | .ok () options => .ok options
  | .error error _ => .error error

/-- Sets the options of a list in turn, up to the first that cannot be set. -/
def setEach : List (String × String) → EStateM OptionError Options Unit
  | [] => pure ()
  | (key, value) :: rest => do
    set key value
    setEach rest

/-- The defaults, with each option of a list set in turn. -/
def ofPairs (pairs : List (String × String)) : Except OptionError Options :=
  ofChange (setEach pairs)

end Options

end CallFolding
