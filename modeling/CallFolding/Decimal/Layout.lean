import CallFolding.Decimal.Shortest

/-!
How the shortest decimal of a number is written down. A layout says for which sizes the digits are
written positionally and how the rest looks; the digits are the same in every layout.
-/

set_option autoImplicit false

namespace CallFolding

/-- The decisions of one way to write floating-point numbers. -/
structure Layout where
  /-- The least exponent of a leading digit that is written positionally. -/
  positionalFrom : Int
  /-- The first exponent of a leading digit that is no longer written positionally. -/
  positionalBelow : Int
  /-- Whether a single digit before an exponent is followed by `.0`. -/
  pointAlways : Bool
  /-- What stands before the exponent. -/
  exponentMark : Char
  /-- The text of infinity. -/
  infinity : String

namespace Layout

def zeros (n : Nat) : List Char :=
  List.replicate n '0'

/-- Digits without an exponent, with at least one on either side of the point. -/
def positional (digits : List Char) (exponent : Int) : List Char :=
  if 0 ≤ exponent then digits ++ zeros exponent.toNat ++ ['.', '0']
  else
    let places := (-exponent).toNat
    if places < digits.length then
      digits.take (digits.length - places) ++ '.' :: digits.drop (digits.length - places)
    else '0' :: '.' :: zeros (places - digits.length) ++ digits

/-- One digit before the point, and the exponent of that digit. -/
def scientific (layout : Layout) (digits : List Char) (leading : Int) : List Char :=
  let point :=
    match digits.drop 1 with
    | [] => if layout.pointAlways then ['.', '0'] else []
    | rest => '.' :: rest
  digits.take 1 ++ point ++ layout.exponentMark :: (toString leading).toList

/-- A positive decimal. -/
def decimal (layout : Layout) (value : Decimal) : List Char :=
  let digits := Nat.toDigits 10 value.digits
  let leading := value.exponent + digits.length - 1
  if layout.positionalFrom ≤ leading ∧ leading < layout.positionalBelow then
    positional digits value.exponent
  else layout.scientific digits leading

/-- A number, with a minus sign in front if it is negative; the negative zero is. -/
def number {f : BinaryFormat} (layout : Layout) (x : Binary f) : String :=
  let sign (negative : Bool) : String := if negative then "-" else ""
  match x.unpack with
  | .nan => "NaN"
  | .infinite negative => sign negative ++ layout.infinity
  | .finite negative significand exponent =>
    if significand = 0 then sign negative ++ "0.0"
    else sign negative ++ String.ofList (layout.decimal (.shortest f significand exponent))

/-- The text of a number at run time: positional from `0.001` up to below ten million. -/
def display : Layout := ⟨-3, 7, true, 'E', "Infinity"⟩

/-- The text of a number quoted in a message: positional from `0.0001` up to below `10 ^ 16`. -/
def inspection : Layout := ⟨-4, 16, false, 'e', "inf"⟩

end Layout

end CallFolding
