import CallFolding.Binary.Basic

/-!
Arithmetic and order of binary floating-point numbers.

Every operation on finite numbers computes its exact result and rounds once. The remainder is the
one of truncating division: it takes the sign of the dividend and is never rounded.
-/

set_option autoImplicit false

namespace CallFolding.Binary

variable {f : BinaryFormat}

/-- The number with the other sign. -/
def neg (x : Binary f) : Binary f :=
  pack (!x.isNegative) x.magnitude

/-- A signed integer from a sign and a magnitude. -/
def signed (negative : Bool) (n : Nat) : Int :=
  if negative then -(n : Int) else n

/-- The sum. Zero comes out positive unless both terms are negative. -/
def add (x y : Binary f) : Binary f :=
  match x.unpack, y.unpack with
  | .nan, _ | _, .nan => nan
  | .infinite a, .infinite b => if a = b then infinity a else nan
  | .infinite a, .finite _ _ _ => infinity a
  | .finite _ _ _, .infinite b => infinity b
  | .finite a m e, .finite b n k =>
    let low := min e k
    let sum := signed a (m <<< (e - low).toNat) + signed b (n <<< (k - low).toNat)
    if sum = 0 then zero (a && b) else roundScaled (sum < 0) sum.natAbs low

def sub (x y : Binary f) : Binary f :=
  x.add y.neg

def mul (x y : Binary f) : Binary f :=
  match x.unpack, y.unpack with
  | .nan, _ | _, .nan => nan
  | .infinite a, .infinite b => infinity (a != b)
  | .infinite a, .finite b n _ => if n = 0 then nan else infinity (a != b)
  | .finite a m _, .infinite b => if m = 0 then nan else infinity (a != b)
  | .finite a m e, .finite b n k => roundScaled (a != b) (m * n) (e + k)

def div (x y : Binary f) : Binary f :=
  match x.unpack, y.unpack with
  | .nan, _ | _, .nan => nan
  | .infinite _, .infinite _ => nan
  | .infinite a, .finite b _ _ => infinity (a != b)
  | .finite a _ _, .infinite b => zero (a != b)
  | .finite a m e, .finite b n k =>
    if n = 0 then (if m = 0 then nan else infinity (a != b))
    else round (a != b) (m <<< (e - k).toNat) (n <<< (k - e).toNat)

/-- The remainder of truncating division. -/
def rem (x y : Binary f) : Binary f :=
  match x.unpack, y.unpack with
  | .nan, _ | _, .nan => nan
  | .infinite _, _ => nan
  | .finite _ _ _, .infinite _ => x
  | .finite a m e, .finite _ n k =>
    if n = 0 then nan
    else
      let low := min e k
      roundScaled a ((m <<< (e - low).toNat) % (n <<< (k - low).toNat)) low

/-- The order of the values: both zeros are equal, and a NaN is not ordered. -/
def compare? (x y : Binary f) : Option Ordering :=
  if x.isNaN || y.isNaN then none
  else some (compare (signed x.isNegative x.magnitude) (signed y.isNegative y.magnitude))

/-- The place of a number that is no NaN among all patterns, with the negative zero just below the
positive one. -/
def rank (x : Binary f) : Int :=
  if x.isNegative then -(x.magnitude : Int) - 1 else x.magnitude

/-- The total order: the negative zero below the positive one, and above everything the NaNs, all
of them equal. -/
def totalCompare (x y : Binary f) : Ordering :=
  match x.isNaN, y.isNaN with
  | true, true => .eq
  | true, false => .gt
  | false, true => .lt
  | false, false => compare x.rank y.rank

/-- Sameness: the same pattern, or two NaNs. -/
def same (x y : Binary f) : Bool :=
  (x.isNaN && y.isNaN) || x == y

end CallFolding.Binary
