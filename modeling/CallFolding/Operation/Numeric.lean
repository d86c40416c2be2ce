import CallFolding.Binary.Arith
import CallFolding.Literal.Basic

/-!
Operators, comparisons and conversions of numbers.

Two numbers are combined in a common type. Integers narrower than 32 bits count as 32 bits wide,
the wider of two integer types wins, and an integer next to a floating-point number becomes one.
Signed numbers and unsigned integers never mix. After that an integer operation is the exact one,
reduced into the range of the common type, and a floating-point operation is the exact one, rounded
once.
-/

set_option autoImplicit false

namespace CallFolding

/-- An operation that would throw if it ran. -/
inductive Fault where
  | divisionByZero
  | indexOutOfBounds (index length : Int32)
deriving DecidableEq

def Fault.message : Fault → String
  | divisionByZero => "division by zero"
  | indexOutOfBounds index length =>
    "index " ++ toString index.toInt ++ " out of bounds for length " ++ toString length.toInt

/-- The five operators of arithmetic. -/
inductive Arith where
  | plus
  | minus
  | times
  | div
  | rem
deriving DecidableEq

/-- The four order tests. -/
inductive Comparison where
  | less
  | lessOrEqual
  | greater
  | greaterOrEqual
deriving DecidableEq

/-- Whether a test holds of two things in this order. -/
def Comparison.holds : Comparison → Ordering → Bool
  | less, order => order == .lt
  | lessOrEqual, order => order != .gt
  | greater, order => order == .gt
  | greaterOrEqual, order => order != .lt

/-- An order as an integer: negative, zero or positive. -/
def orderingSign : Ordering → Int
  | .lt => -1
  | .eq => 0
  | .gt => 1

/-- The operators that work bit by bit. -/
inductive Bitwise where
  | and
  | or
  | xor
deriving DecidableEq

namespace Bitwise

def onBool : Bitwise → Bool → Bool → Bool
  | and, x, y => x && y
  | or, x, y => x || y
  | xor, x, y => x != y

def onPattern : Bitwise → Nat → Nat → Nat
  | and, x, y => x &&& y
  | or, x, y => x ||| y
  | xor, x, y => x ^^^ y

end Bitwise

/-- The shifts: to the left, and to the right with or without the sign. -/
inductive Shift where
  | left
  | right
  | unsignedRight
deriving DecidableEq

/-! ## Numbers in a common type -/

/-- A number, whatever its type. -/
inductive Number where
  | integral (kind : IntegralKind) (value : Int)
  | single (value : Binary .single)
  | double (value : Binary .double)

/-- The number a literal is. Characters and truth values are none. -/
def Literal.number? : Literal → Option Number
  | .byte v => some (.integral .byte v.toInt)
  | .short v => some (.integral .short v.toInt)
  | .int v => some (.integral .int v.toInt)
  | .long v => some (.integral .long v.toInt)
  | .uByte v => some (.integral .uByte v.toNat)
  | .uShort v => some (.integral .uShort v.toNat)
  | .uInt v => some (.integral .uInt v.toNat)
  | .uLong v => some (.integral .uLong v.toNat)
  | .float x => some (.single x)
  | .double x => some (.double x)
  | _ => none

/-- Two numbers of one type. -/
inductive NumberPair where
  | integral (kind : IntegralKind) (x y : Int)
  | single (x y : Binary .single)
  | double (x y : Binary .double)

/-- Brings two numbers to their common type, if they have one. -/
def Number.pair? : Number → Number → Option NumberPair
  | .integral k x, .integral l y =>
    if k.isSigned = l.isSigned then some (.integral (k.common l) x y) else none
  | .integral k x, .single y => if k.isSigned then some (.single (.ofInt x) y) else none
  | .integral k x, .double y => if k.isSigned then some (.double (.ofInt x) y) else none
  | .single x, .integral l y => if l.isSigned then some (.single x (.ofInt y)) else none
  | .single x, .single y => some (.single x y)
  | .single x, .double y => some (.double x.convert y)
  | .double x, .integral l y => if l.isSigned then some (.double x (.ofInt y)) else none
  | .double x, .single y => some (.double x y.convert)
  | .double x, .double y => some (.double x y)

/-- Two literals as numbers of one type. -/
def Literal.numberPair? (a b : Literal) : Option NumberPair :=
  match a.number?, b.number? with
  | some x, some y => x.pair? y
  | _, _ => none

namespace NumberPair

/-- An operator on floating-point numbers. -/
def real {f : BinaryFormat} (op : Arith) (x y : Binary f) : Binary f :=
  match op with
  | .plus => x.add y
  | .minus => x.sub y
  | .times => x.mul y
  | .div => x.div y
  | .rem => x.rem y

/-- An operator on two integers, exact. Division truncates toward zero, the remainder has the sign
of the dividend, and neither is defined for the divisor zero. -/
def whole (op : Arith) (x y : Int) : Except Fault Int :=
  match op with
  | .plus => .ok (x + y)
  | .minus => .ok (x - y)
  | .times => .ok (x * y)
  | .div => if y = 0 then .error .divisionByZero else .ok (x.tdiv y)
  | .rem => if y = 0 then .error .divisionByZero else .ok (x.tmod y)

def arith (op : Arith) : NumberPair → Except Fault Literal
  | integral kind x y => (whole op x y).map kind.literal
  | single x y => .ok (.float (real op x y))
  | double x y => .ok (.double (real op x y))

/-- The order of two numbers, which a NaN does not have. -/
def compare? : NumberPair → Option Ordering
  | integral _ x y => some (compare x y)
  | single x y => x.compare? y
  | double x y => x.compare? y

/-- The total order of two numbers. -/
def totalCompare : NumberPair → Ordering
  | integral _ x y => compare x y
  | single x y => x.totalCompare y
  | double x y => x.totalCompare y

end NumberPair

/-! ## Operators on one number -/

namespace Literal

/-- The negated number, at least 32 bits wide. Unsigned integers have none. -/
def negate? (a : Literal) : Option Literal :=
  match a.number? with
  | some (.integral kind n) =>
    if kind.isSigned then some ((kind.common kind).literal (-n)) else none
  | some (.single x) => some (.float x.neg)
  | some (.double x) => some (.double x.neg)
  | none => none

/-- The number itself, at least 32 bits wide. Unsigned integers have no sign to keep. -/
def affirm? (a : Literal) : Option Literal :=
  match a.number? with
  | some (.integral kind n) =>
    if kind.isSigned then some ((kind.common kind).literal n) else none
  | some _ => some a
  | none => none

/-- The integer with every bit inverted. -/
def invert? (a : Literal) : Option Literal :=
  a.integral?.map fun (kind, n) => kind.literal (-n - 1)

/-! ## Bits -/

/-- An operator on the bits of two integers of one kind. -/
def bitwise? (a : Literal) (op : Bitwise) (b : Literal) : Option Literal :=
  match a.integral?, b.integral? with
  | some (k, x), some (l, y) =>
    if k = l then some (k.literal (op.onPattern (k.pattern x) (k.pattern y))) else none
  | _, _ => none

/-- A shift of an integer of 32 or 64 bits by a count taken modulo the width. Shifting an unsigned
integer to the right needs no second form. -/
def shift? (a : Literal) (direction : Shift) (b : Literal) : Option Literal :=
  match a.integral?, b with
  | some (kind, x), .int count =>
    if kind.width < 32 then none
    else
      let places := (count.toInt % kind.width).toNat
      match direction with
      | .left => some (kind.literal (x * (1 <<< places : Nat)))
      | .right => some (kind.literal (x / (1 <<< places : Nat)))
      | .unsignedRight =>
        if kind.isSigned then some (kind.literal (kind.pattern x >>> places : Nat)) else none
  | _, _ => none

end Literal

/-! ## Conversions -/

/-- The types a number can be converted to. -/
inductive Conversion where
  | char
  | integral (kind : IntegralKind)
  | float
  | double
deriving DecidableEq

namespace Conversion

/-- An integer in the target type, reduced modulo the width if that is an integral one. -/
def ofInt : Conversion → Int → Literal
  | char, n => .char (UInt16.ofInt n)
  | integral kind, n => kind.literal n
  | float, n => .float (.ofInt n)
  | double, n => .double (.ofInt n)

/-- A floating-point number in the target type. Toward an integer the fraction is dropped and the
value held within 64 bits for the widest target and 32 bits for all others, which then reduce it
further. -/
def ofBinary {f : BinaryFormat} (x : Binary f) : Conversion → Literal
  | char => .char (UInt16.ofInt (x.truncate Int32.minValue.toInt Int32.maxValue.toInt))
  | integral kind =>
    if kind.width = 64 then kind.literal (x.truncate Int64.minValue.toInt Int64.maxValue.toInt)
    else kind.literal (x.truncate Int32.minValue.toInt Int32.maxValue.toInt)
  | float => .float x.convert
  | double => .double x.convert

end Conversion

/-- The literal converted to another type; only numbers and characters can be. -/
def Literal.convert? (a : Literal) (target : Conversion) : Option Literal :=
  match a with
  | .char u => some (target.ofInt u.toNat)
  | _ =>
    match a.number? with
    | some (.integral _ n) => some (target.ofInt n)
    | some (.single x) => some (target.ofBinary x)
    | some (.double x) => some (target.ofBinary x)
    | none => none

end CallFolding
