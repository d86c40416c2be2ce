/-!
Binary floating-point numbers as bit patterns, for any precision and exponent width.

A pattern is a sign bit above a magnitude. Magnitudes below `BinaryFormat.infinity` are the finite
values in increasing order, then comes infinity, and everything above it is a NaN. So the order of
two numbers is the order of two integers, and rounding can be done on exact fractions: the result
of an operation is `round` of the number it denotes.
-/

set_option autoImplicit false

namespace CallFolding

/-- A binary interchange format. -/
structure BinaryFormat where
  /-- Bits of a full significand, its leading one included. -/
  precision : Nat
  /-- Bits of the exponent field. -/
  exponentBits : Nat
deriving DecidableEq

namespace BinaryFormat

def single : BinaryFormat := ⟨24, 8⟩
def double : BinaryFormat := ⟨53, 11⟩

/-- Bits of a pattern. The sign takes the place of the leading one, which is not stored. -/
def width (f : BinaryFormat) : Nat :=
  f.precision + f.exponentBits

/-- The exponent of the last bit of the least significand. -/
def minExponent (f : BinaryFormat) : Int :=
  3 - (1 <<< (f.exponentBits - 1) : Nat) - f.precision

/-- The magnitude of infinity: all ones in the exponent field and nothing below it. -/
def infinity (f : BinaryFormat) : Nat :=
  ((1 <<< f.exponentBits) - 1) <<< (f.precision - 1)

end BinaryFormat

/-- A number in a binary format, by its bit pattern. -/
structure Binary (f : BinaryFormat) where
  bits : BitVec f.width
deriving DecidableEq

/-- What a bit pattern denotes. A finite value is `significand * 2 ^ exponent`, with a sign that
zero has too. -/
inductive Unpacked where
  | nan
  | infinite (negative : Bool)
  | finite (negative : Bool) (significand : Nat) (exponent : Int)
deriving DecidableEq

namespace Binary

variable {f : BinaryFormat}

def isNegative (x : Binary f) : Bool :=
  x.bits.msb

/-- The pattern without its sign. -/
def magnitude (x : Binary f) : Nat :=
  x.bits.toNat % (1 <<< (f.width - 1))

def isNaN (x : Binary f) : Bool :=
  f.infinity < x.magnitude

/-- The number with this sign and magnitude. -/
def pack (negative : Bool) (magnitude : Nat) : Binary f :=
  ⟨BitVec.ofNat f.width ((negative.toNat <<< (f.width - 1)) + magnitude)⟩

/-- The quiet NaN with no other payload. -/
def nan : Binary f :=
  pack false (f.infinity + (1 <<< (f.precision - 2)))

def infinity (negative : Bool) : Binary f :=
  pack negative f.infinity

def zero (negative : Bool) : Binary f :=
  pack negative 0

/-- What the pattern denotes. The leading one of the significand is there exactly when the
exponent field is not zero, and fields zero and one share an exponent. -/
def unpack (x : Binary f) : Unpacked :=
  if x.isNaN then .nan
  else if x.magnitude = f.infinity then .infinite x.isNegative
  else
    let leadingOne := 1 <<< (f.precision - 1)
    let field := x.magnitude / leadingOne
    let fraction := x.magnitude % leadingOne
    if field = 0 then .finite x.isNegative fraction f.minExponent
    else .finite x.isNegative (leadingOne + fraction) (f.minExponent + field - 1)

/-! ## Rounding

The exponent of the result is fixed first, then the quotient is rounded to an integer. Adding that
integer to the shifted exponent gives the magnitude: a significand that was rounded up to the next
power of two carries into the exponent field, which is what it should do. -/

/-- The exponent of the leading bit of `n / d`, for `n` and `d` not zero. -/
def leadingExponent (n d : Nat) : Int :=
  let estimate : Int := (Nat.log2 n : Int) - Nat.log2 d
  if d <<< estimate.toNat ≤ n <<< (-estimate).toNat then estimate else estimate - 1

/-- The integer nearest to `n / d`; of two, the even one. -/
def roundQuotient (n d : Nat) : Nat :=
  let quotient := n / d
  let rest := 2 * (n % d)
  if d < rest ∨ (rest = d ∧ quotient % 2 = 1) then quotient + 1 else quotient

/-- The magnitude of the number nearest to `n / d`. -/
def roundMagnitude (f : BinaryFormat) (n d : Nat) : Nat :=
  if n = 0 then 0
  else
    let exponent := max (leadingExponent n d - (f.precision - 1)) f.minExponent
    let significand := roundQuotient (n <<< (-exponent).toNat) (d <<< exponent.toNat)
    min (((exponent - f.minExponent).toNat <<< (f.precision - 1)) + significand) f.infinity

/-- The number nearest to `n / d` with the given sign; of two, the one with an even significand.
Beyond the largest finite number it is infinity. -/
def round (negative : Bool) (n d : Nat) : Binary f :=
  pack negative (roundMagnitude f n d)

/-- The number nearest to `n * 2 ^ exponent` with the given sign. -/
def roundScaled (negative : Bool) (n : Nat) (exponent : Int) : Binary f :=
  round negative (n <<< exponent.toNat) (1 <<< (-exponent).toNat)

/-- The number nearest to an integer. -/
def ofInt (n : Int) : Binary f :=
  roundScaled (n < 0) n.natAbs 0

/-- The same value in another format, rounded if it has to be. -/
def convert {g : BinaryFormat} (x : Binary f) : Binary g :=
  match x.unpack with
  | .nan => nan
  | .infinite negative => infinity negative
  | .finite negative significand exponent => roundScaled negative significand exponent

/-- The value without its fraction, held between two bounds. A NaN counts as zero. -/
def truncate (lo hi : Int) (x : Binary f) : Int :=
  match x.unpack with
  | .nan => 0
  | .infinite negative => if negative then lo else hi
  | .finite negative significand exponent =>
    let whole : Int := ((significand <<< exponent.toNat) >>> (-exponent).toNat : Nat)
    max lo (min hi (if negative then -whole else whole))

end Binary

end CallFolding
