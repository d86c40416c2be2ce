import CallFolding.Literal.Text
import CallFolding.Operation.Numeric

/-!
Primitive operations, found by name and operands.

A call arrives with its operands in order, the receiver first, each with the type its callee
declares for it. Every operand has to hold a value of its declared kind; after that the kinds of
the values decide which operation a name stands for. `none` always means that there is no such
operation, and never depends on more than the kinds.
-/

set_option autoImplicit false

namespace CallFolding

/-- One argument of an operation. -/
structure Operand where
  /-- The type the callee declares at this place. -/
  type : Ty
  value : Literal

/-- An operand declared with the type of its value. -/
def Operand.ofLiteral (value : Literal) : Operand :=
  ⟨value.type, value⟩

/-- Whether the value is one of the declared kind. No literal belongs to a class. -/
def Operand.isWellTyped (operand : Operand) : Bool :=
  match operand.type.kind with
  | .any => true
  | .named _ => false
  | kind => operand.value.kind == kind

/-- Why an operation gave no value. -/
inductive OperationError where
  | unsupportedArity (name : String) (arity : Nat)
  | unknownSignature (name signature : String)
  | operandMismatch (declared found : String)
  | fault (cause : Fault)
deriving DecidableEq

def OperationError.message : OperationError → String
  | unsupportedArity name arity =>
    "builtin " ++ name ++ " called with " ++ toString arity
      ++ " operands; only 1 to 3 are supported"
  | unknownSignature name signature =>
    "no builtin operation " ++ name ++ "(" ++ signature ++ ")"
  | operandMismatch declared found =>
    "operand declared as " ++ declared ++ " holds " ++ found
  | fault cause => cause.message

/-! ## Text -/

namespace Literal

/-- Sameness of two literals: the same kind and value, where a floating-point number is the same as
another by its bits and all NaNs are one. -/
def same : Literal → Literal → Bool
  | float x, float y => x.same y
  | double x, double y => x.same y
  | a, b => a == b

/-- The unit at an index. -/
def charAt (s : String) (index : Int32) : Except Fault Literal :=
  let length := Int32.ofNat (Text.length s)
  if index.toInt < 0 then .error (.indexOutOfBounds index length)
  else
    match (Text.units s)[index.toInt.toNat]? with
    | some u => .ok (.char u)
    | none => .error (.indexOutOfBounds index length)

/-- The units from one index up to another. The start is looked at before the end. -/
def subSequence (s : String) (start stop : Int32) : Except Fault Literal :=
  let length := Int32.ofNat (Text.length s)
  if start < 0 ∨ length < start then .error (.indexOutOfBounds start length)
  else if stop < start ∨ length < stop then .error (.indexOutOfBounds stop length)
  else .ok (.string (Text.slice s start.toInt.toNat stop.toInt.toNat))

end Literal

/-! ## Operations by name -/

/-- Operations on one operand. -/
inductive UnaryOp where
  | not
  | negate
  | affirm
  | invert
  | display
  | length
  | convert (target : Conversion)
deriving DecidableEq

namespace UnaryOp

def ofName? : String → Option UnaryOp
  | "not" => some not
  | "unaryMinus" => some negate
  | "unaryPlus" => some affirm
  | "inv" => some invert
  | "toString" => some display
  | "length" => some length
  | "toChar" => some (convert .char)
  | "toByte" => some (convert (.integral .byte))
  | "toShort" => some (convert (.integral .short))
  | "toInt" => some (convert (.integral .int))
  | "toLong" => some (convert (.integral .long))
  | "toFloat" => some (convert .float)
  | "toDouble" => some (convert .double)
  | _ => none

def result? (op : UnaryOp) (a : Literal) : Option Literal :=
  match op with
  | not => a.boolean?.map fun b => .boolean (!b)
  | negate => a.negate?
  | affirm => a.affirm?
  | invert => a.invert?
  | display => some (.string a.display)
  | length => a.string?.map fun s => .int (Int32.ofNat (Text.length s))
  | convert target => a.convert? target

end UnaryOp

/-- Operations on two operands. -/
inductive BinaryOp where
  | arith (op : Arith)
  | compare (test : Comparison)
  /-- Sameness. -/
  | same
  /-- Numerical equality. -/
  | equal
  /-- On truth values or on the bits of integers. -/
  | bitwise (op : Bitwise)
  /-- On truth values only. -/
  | logical (op : Bitwise)
  | shift (direction : Shift)
  | compareTo
  | charAt
deriving DecidableEq

namespace BinaryOp

def ofName? : String → Option BinaryOp
  | "plus" => some (arith .plus)
  | "minus" => some (arith .minus)
  | "times" => some (arith .times)
  | "div" => some (arith .div)
  | "rem" => some (arith .rem)
  | "less" => some (compare .less)
  | "lessOrEqual" => some (compare .lessOrEqual)
  | "greater" => some (compare .greater)
  | "greaterOrEqual" => some (compare .greaterOrEqual)
  | "equals" => some same
  | "EQEQ" => some same
  | "ieee754equals" => some equal
  | "and" => some (bitwise .and)
  | "or" => some (bitwise .or)
  | "xor" => some (bitwise .xor)
  | "ANDAND" => some (logical .and)
  | "OROR" => some (logical .or)
  | "shl" => some (shift .left)
  | "shr" => some (shift .right)
  | "ushr" => some (shift .unsignedRight)
  | "compareTo" => some compareTo
  | "get" => some charAt
  | _ => none

/-- Arithmetic. A string takes anything behind it, and characters are moved by integers or measured
against each other. -/
def applyArith (op : Arith) (a b : Literal) : Except Fault (Option Literal) :=
  match op, a, b with
  | .plus, .string s, other => .ok (some (.string (s ++ other.display)))
  | .plus, .char c, .int n => .ok (some (.char (UInt16.ofInt (c.toNat + n.toInt))))
  | .minus, .char c, .int n => .ok (some (.char (UInt16.ofInt (c.toNat - n.toInt))))
  | .minus, .char c, .char d => .ok (some (.int (Int32.ofInt (c.toNat - d.toNat))))
  | op, a, b =>
    match a.numberPair? b with
    | some pair => (pair.arith op).map some
    | none => .ok none

/-- An order test, on characters or numbers. It is false where there is no order. -/
def applyCompare? (test : Comparison) (a b : Literal) : Option Literal :=
  match a, b with
  | .char x, .char y => some (.boolean (test.holds (Ord.compare x y)))
  | a, b => (a.numberPair? b).map fun pair => .boolean (pair.compare?.any test.holds)

/-- The order of two values as an integer. For strings it is a difference of units or lengths. -/
def applyCompareTo? (a b : Literal) : Option Literal :=
  match a, b with
  | .boolean x, .boolean y => some (.int (Int32.ofInt (orderingSign (Ord.compare x y))))
  | .char x, .char y => some (.int (Int32.ofInt (orderingSign (Ord.compare x y))))
  | .string s, .string t =>
    some (.int (Int32.ofInt (Text.difference (Text.units s) (Text.units t))))
  | a, b => (a.numberPair? b).map fun pair => .int (Int32.ofInt (orderingSign pair.totalCompare))

def result (op : BinaryOp) (a b : Literal) : Except Fault (Option Literal) :=
  match op with
  | arith op => applyArith op a b
  | compare test => .ok (applyCompare? test a b)
  | same => .ok (some (.boolean (a.same b)))
  | equal => .ok ((a.numberPair? b).map fun pair => .boolean (pair.compare? == some .eq))
  | bitwise op =>
    match a, b with
    | .boolean x, .boolean y => .ok (some (.boolean (op.onBool x y)))
    | a, b => .ok (a.bitwise? op b)
  | logical op =>
    match a, b with
    | .boolean x, .boolean y => .ok (some (.boolean (op.onBool x y)))
    | _, _ => .ok none
  | shift direction => .ok (a.shift? direction b)
  | compareTo => .ok (applyCompareTo? a b)
  | charAt =>
    match a, b with
    | .string s, .int index => (Literal.charAt s index).map some
    | _, _ => .ok none

end BinaryOp

/-- The one operation on three operands. -/
def applyTernary (name : String) (a b c : Literal) : Except Fault (Option Literal) :=
  match name, a, b, c with
  | "subSequence", .string s, .int start, .int stop => (Literal.subSequence s start stop).map some
  | _, _, _, _ => .ok none

/-! ## Dispatch -/

/-- Whether the operand is declared to be anything. -/
def Operand.isLoose (operand : Operand) : Bool :=
  match operand.type.kind with
  | .any => true
  | _ => false

/-- Operands that are declared to be anything only exist for sameness and for appending to a
string. -/
def allowsLoose (name : String) (operands : List Operand) : Bool :=
  if operands.any Operand.isLoose then
    match operands with
    | [receiver, _] =>
      name == "equals" || name == "EQEQ" || (name == "plus" && receiver.type.isString)
    | _ => false
  else true

/-- The declared types as they are listed in messages. -/
def signatureText (operands : List Operand) : String :=
  ", ".intercalate (operands.map (·.type.qualifiedName))

/-- Looks up the operation that a name and operands stand for and applies it. -/
def applyByName (name : String) (operands : List Operand) :
    Except OperationError (Option Literal) :=
  if allowsLoose name operands then
    match operands with
    | [a] => .ok ((UnaryOp.ofName? name).bind (·.result? a.value))
    | [a, b] =>
      match BinaryOp.ofName? name with
      | some op => (op.result a.value b.value).mapError .fault
      | none => .ok none
    | [a, b, c] => (applyTernary name a.value b.value c.value).mapError .fault
    | _ => .error (.unsupportedArity name operands.length)
  else .ok none

/-- Applies the operation `name` to `operands`. -/
def dispatch (name : String) (operands : List Operand) : Except OperationError Literal :=
  match operands.find? (!·.isWellTyped) with
  | some operand =>
    .error (.operandMismatch operand.type.qualifiedName operand.value.inspection)
  | none =>
    match applyByName name operands with
    | .ok (some value) => .ok value
    | .ok none => .error (.unknownSignature name (signatureText operands))
    | .error error => .error error

end CallFolding
