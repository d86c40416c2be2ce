import CallFolding.Decimal.Layout
import CallFolding.Literal.Basic
import CallFolding.Text.Escape

/-!
The three texts of a literal: what it looks like at run time, in source code, and when a message
has to show which value it is talking about.
-/

set_option autoImplicit false

namespace CallFolding.Literal

/-- The text of the value at run time. -/
def display : Literal → String
  | unit => "kotlin.Unit"
  | boolean b => if b then "true" else "false"
  | char u => String.singleton (Text.ofUnit u)
  | byte v => toString v.toInt
  | short v => toString v.toInt
  | int v => toString v.toInt
  | long v => toString v.toInt
  | uByte v => toString v.toNat
  | uShort v => toString v.toNat
  | uInt v => toString v.toNat
  | uLong v => toString v.toNat
  | float x => Layout.display.number x
  | double x => Layout.display.number x
  | string s => s

/-- The expression that denotes the value in source code. -/
def source : Literal → String
  | unit => "Unit"
  | boolean b => (boolean b).display
  | char u => "'" ++ String.ofList (Text.escapeForSource (Text.ofUnit u)) ++ "'"
  | byte v => (byte v).display ++ ".toByte()"
  | short v => (short v).display ++ ".toShort()"
  | int v => (int v).display
  | long v => (long v).display ++ "L"
  | uByte v => (uByte v).display ++ "u.toUByte()"
  | uShort v => (uShort v).display ++ "u.toUShort()"
  | uInt v => (uInt v).display ++ "u"
  | uLong v => (uLong v).display ++ "uL"
  | float x => (float x).display ++ "f"
  | double x => (double x).display
  | string s => Text.quoteForSource s

/-- The kind and the value, for messages that ask what an operand holds. -/
def inspection : Literal → String
  | unit => "Unit"
  | boolean b => "Boolean(" ++ (boolean b).display ++ ")"
  | char u => "Char(" ++ toString u.toNat ++ ")"
  | byte v => "Byte(" ++ (byte v).display ++ ")"
  | short v => "Short(" ++ (short v).display ++ ")"
  | int v => "Int(" ++ (int v).display ++ ")"
  | long v => "Long(" ++ (long v).display ++ ")"
  | uByte v => "UByte(" ++ (uByte v).display ++ ")"
  | uShort v => "UShort(" ++ (uShort v).display ++ ")"
  | uInt v => "UInt(" ++ (uInt v).display ++ ")"
  | uLong v => "ULong(" ++ (uLong v).display ++ ")"
  | float x => "Float(" ++ Layout.inspection.number x ++ ")"
  | double x => "Double(" ++ Layout.inspection.number x ++ ")"
  | string s => "String(" ++ Text.quoteForInspection s ++ ")"

end CallFolding.Literal
