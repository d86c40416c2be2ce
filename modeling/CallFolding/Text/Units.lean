/-!
Text as 16-bit units. Lengths, indices and the order of strings are counted in these units: a
character up to `U+FFFF` is one unit, any other is two, a high and a low surrogate.

`ofUnits` goes the other way and is total: a surrogate without its partner becomes the replacement
character. On the units of a string it gives the string back.
-/

set_option autoImplicit false

namespace CallFolding.Text

/-- What stands for a unit that no character has. -/
def replacement : Char := '\uFFFD'

/-- The units of one character. -/
def charUnits (c : Char) : List UInt16 :=
  if c.toNat < 0x10000 then [UInt16.ofNat c.toNat]
  else
    [UInt16.ofNat (0xD800 + (c.toNat - 0x10000) / 0x400),
      UInt16.ofNat (0xDC00 + (c.toNat - 0x10000) % 0x400)]

/-- The units of a string, in order. -/
def units (s : String) : List UInt16 :=
  s.toList.flatMap charUnits

/-- The length of a string in units. -/
def length (s : String) : Nat :=
  (units s).length

def isHigh (u : UInt16) : Bool :=
  0xD800 ≤ u && u < 0xDC00

def isLow (u : UInt16) : Bool :=
  0xDC00 ≤ u && u < 0xE000

/-- The character with this single unit; half of a pair has none. -/
def ofUnit (u : UInt16) : Char :=
  if isHigh u || isLow u then replacement else Char.ofNat u.toNat

/-- The character of a high and a low surrogate. -/
def ofPair (high low : UInt16) : Char :=
  Char.ofNat (0x10000 + (high.toNat - 0xD800) * 0x400 + (low.toNat - 0xDC00))

/-- The characters of a sequence of units, lone surrogates replaced. -/
def charsOfUnits : List UInt16 → List Char
  | [] => []
  | [u] => [ofUnit u]
  | u :: v :: rest =>
    if isHigh u && isLow v then ofPair u v :: charsOfUnits rest
    else ofUnit u :: charsOfUnits (v :: rest)

/-- The string of a sequence of units, lone surrogates replaced. -/
def ofUnits (us : List UInt16) : String :=
  String.ofList (charsOfUnits us)

/-- The units from `start` up to `stop`, as a string. -/
def slice (s : String) (start stop : Nat) : String :=
  ofUnits (((units s).take stop).drop start)

/-- The difference of the first units that differ, or of the lengths where one sequence begins
with the other. Its sign is the order of the two. -/
def difference : List UInt16 → List UInt16 → Int
  | u :: us, v :: vs => if u = v then difference us vs else (u.toNat : Int) - v.toNat
  | us, vs => (us.length : Int) - vs.length

end CallFolding.Text
