import CallFolding.Binary.Basic
import CallFolding.Text.Units
import CallFolding.Ty

/-!
Literals: the values a variable can hold during evaluation, and what a folded call turns into.

The eight integral kinds are looked at through their value in `Int`: `Literal.integral?` reads it
and `IntegralKind.literal` writes it back, reduced into the range of the kind. Operations on
integers are stated on that value, so there is one rule for all widths.
-/

set_option autoImplicit false

namespace CallFolding

/-- A compile-time constant. A character is a single 16-bit unit of text, so half of a pair is a
character too. -/
inductive Literal where
  /-- No value: what loops, empty blocks and branches without a true arm give. -/
  | unit
  | boolean (value : Bool)
  | char (unit : UInt16)
  | byte (value : Int8)
  | short (value : Int16)
  | int (value : Int32)
  | long (value : Int64)
  | uByte (value : UInt8)
  | uShort (value : UInt16)
  | uInt (value : UInt32)
  | uLong (value : UInt64)
  | float (value : Binary .single)
  | double (value : Binary .double)
  | string (value : String)
deriving DecidableEq

namespace Literal

instance : Inhabited Literal := ⟨.unit⟩

/-- The kind of the values written like this. -/
def kind : Literal → Kind
  | unit => .unit
  | boolean _ => .boolean
  | char _ => .char
  | byte _ => .byte
  | short _ => .short
  | int _ => .int
  | long _ => .long
  | uByte _ => .uByte
  | uShort _ => .uShort
  | uInt _ => .uInt
  | uLong _ => .uLong
  | float _ => .float
  | double _ => .double
  | string _ => .string

/-- The type a literal is declared with when nothing else is said. -/
def type (value : Literal) : Ty :=
  ⟨value.kind, false⟩

def isUnit : Literal → Bool
  | unit => true
  | _ => false

def boolean? : Literal → Option Bool
  | boolean value => some value
  | _ => none

def int? : Literal → Option Int32
  | int value => some value
  | _ => none

def string? : Literal → Option String
  | string value => some value
  | _ => none

/-- The first unit of a character. -/
def ofChar (c : Char) : Literal :=
  char ((Text.charUnits c).headD 0)

end Literal

/-! ## Integral kinds -/

/-- The kinds of integers: four widths, signed and unsigned. -/
inductive IntegralKind where
  | byte
  | short
  | int
  | long
  | uByte
  | uShort
  | uInt
  | uLong
deriving DecidableEq

namespace IntegralKind

def isSigned : IntegralKind → Bool
  | byte | short | int | long => true
  | uByte | uShort | uInt | uLong => false

/-- Bits of a value. -/
def width : IntegralKind → Nat
  | byte | uByte => 8
  | short | uShort => 16
  | int | uInt => 32
  | long | uLong => 64

/-- The literal of this kind whose value is congruent to `n` modulo `2 ^ width`. -/
def literal : IntegralKind → Int → Literal
  | byte, n => .byte (Int8.ofInt n)
  | short, n => .short (Int16.ofInt n)
  | int, n => .int (Int32.ofInt n)
  | long, n => .long (Int64.ofInt n)
  | uByte, n => .uByte (UInt8.ofInt n)
  | uShort, n => .uShort (UInt16.ofInt n)
  | uInt, n => .uInt (UInt32.ofInt n)
  | uLong, n => .uLong (UInt64.ofInt n)

/-- The bit pattern of a value of this kind, as a number. -/
def pattern (kind : IntegralKind) (n : Int) : Nat :=
  (BitVec.ofInt kind.width n).toNat

/-- The kind in which two integers are combined: at least 32 bits wide. -/
def common (k l : IntegralKind) : IntegralKind :=
  if k.width = 64 ∨ l.width = 64 then (if k.isSigned then .long else .uLong)
  else if k.isSigned then .int else .uInt

end IntegralKind

/-- The kind and value of an integer. Characters are not integers. -/
def Literal.integral? : Literal → Option (IntegralKind × Int)
  | .byte v => some (.byte, v.toInt)
  | .short v => some (.short, v.toInt)
  | .int v => some (.int, v.toInt)
  | .long v => some (.long, v.toInt)
  | .uByte v => some (.uByte, v.toNat)
  | .uShort v => some (.uShort, v.toNat)
  | .uInt v => some (.uInt, v.toNat)
  | .uLong v => some (.uLong, v.toNat)
  | _ => none

end CallFolding
