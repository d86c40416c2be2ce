import CallFolding.Binary.Basic

/-!
The shortest decimal that reads back.

All reals that round to a given number form an interval around it, closed exactly when the
significand is even. Among the multiples of a power of ten the two next to the number are the only
ones worth testing: if any multiple lies in the interval, one of these does. So the powers of ten
are tried from a coarse one downwards, and the first hit has the fewest digits. Of two hits the
nearer one is taken, and the upper one if both are as near.
-/

set_option autoImplicit false

namespace CallFolding

/-- The number `digits * 10 ^ exponent`. -/
structure Decimal where
  digits : Nat
  exponent : Int
deriving DecidableEq

/-- The reals that round to a number, as fractions with a common denominator: those between
`low / scale` and `high / scale`, the ends included or not, around `middle / scale`. -/
structure RoundingInterval where
  low : Nat
  middle : Nat
  high : Nat
  scale : Nat
  closed : Bool

namespace RoundingInterval

/-- The interval of `significand * 2 ^ exponent`. Its ends are halfway to the neighbours; below a
power of two the neighbour is half as far away. -/
def of (f : BinaryFormat) (significand : Nat) (exponent : Int) : RoundingInterval :=
  let shift := (exponent - 2).toNat
  let narrow := significand = 1 <<< (f.precision - 1) ∧ f.minExponent < exponent
  { low := (4 * significand - if narrow then 1 else 2) <<< shift
    middle := (4 * significand) <<< shift
    high := (4 * significand + 2) <<< shift
    scale := 1 <<< (2 - exponent).toNat
    closed := significand % 2 = 0 }

/-- Whether `n / d` lies in the interval. -/
def contains (i : RoundingInterval) (n d : Nat) : Bool :=
  if i.closed then i.low * d ≤ n * i.scale && n * i.scale ≤ i.high * d
  else i.low * d < n * i.scale && n * i.scale < i.high * d

/-- The multiple of `10 ^ exponent` in the interval that is next to its middle. -/
def gridPoint? (i : RoundingInterval) (exponent : Int) : Option Nat :=
  let up := Nat.pow 10 exponent.toNat
  let down := Nat.pow 10 (-exponent).toNat
  let below := i.middle * down / (i.scale * up)
  let rest := i.middle * down % (i.scale * up)
  match i.contains (below * up) down, i.contains ((below + 1) * up) down with
  | true, true => some (if 2 * rest < i.scale * up then below else below + 1)
  | true, false => some below
  | false, true => some (below + 1)
  | false, false => none

/-- The first power of ten with a multiple in the interval, going down from `exponent`. -/
def search (i : RoundingInterval) : Nat → Int → Decimal
  | 0, exponent => ⟨0, exponent⟩
  | tries + 1, exponent =>
    match i.gridPoint? exponent with
    | some digits => ⟨digits, exponent⟩
    | none => search i tries (exponent - 1)

/-- A power of ten that is at least the upper end. -/
def startExponent (i : RoundingInterval) : Int :=
  if i.scale ≤ i.high then (Nat.toDigits 10 (i.high / i.scale)).length
  else 1 - ((Nat.toDigits 10 (i.scale / i.high)).length : Int)

end RoundingInterval

/-- The shortest decimal that rounds to `significand * 2 ^ exponent`. A significand of `p` bits
never needs more than `p` powers of ten to be told from its neighbours. -/
def Decimal.shortest (f : BinaryFormat) (significand : Nat) (exponent : Int) : Decimal :=
  let interval := RoundingInterval.of f significand exponent
  interval.search (f.precision + 1) interval.startExponent

end CallFolding
