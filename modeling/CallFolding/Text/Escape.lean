import CallFolding.Text.Visible

/-!
Two ways to write a character so that it can stand between quotes.

The source form is pure ASCII: it is what a literal looks like in rendered code. The inspection
form keeps every visible character and is used where a value is quoted inside a message. Both
fall back on `\u` with the code point in hexadecimal, no padding.
-/

set_option autoImplicit false

namespace CallFolding.Text

/-- The code point in lowercase hexadecimal between braces. -/
def escapeCodePoint (c : Char) : List Char :=
  '\\' :: 'u' :: '\x7b' :: Nat.toDigits 16 c.toNat ++ ['\x7d']

/-- Printable ASCII as it is, with both quotes and the backslash marked; all else escaped. -/
def escapeForSource (c : Char) : List Char :=
  if c = '\t' then ['\\', 't']
  else if c = '\r' then ['\\', 'r']
  else if c = '\n' then ['\\', 'n']
  else if c = '\'' ∨ c = '"' ∨ c = '\\' then ['\\', c]
  else if 0x20 ≤ c.toNat ∧ c.toNat ≤ 0x7E then [c]
  else escapeCodePoint c

/-- Visible characters as they are, with the double quote and the backslash marked. A character
that would be drawn onto the one before it is escaped too. -/
def escapeForInspection (c : Char) : List Char :=
  if c = '\x00' then ['\\', '0']
  else if c = '\t' then ['\\', 't']
  else if c = '\r' then ['\\', 'r']
  else if c = '\n' then ['\\', 'n']
  else if c = '"' ∨ c = '\\' then ['\\', c]
  else if isExtending c || !isVisible c then escapeCodePoint c
  else [c]

/-- A string between double quotes, in the source form. -/
def quoteForSource (s : String) : String :=
  "\"" ++ String.ofList (s.toList.flatMap escapeForSource) ++ "\""

/-- A string between double quotes, in the inspection form. -/
def quoteForInspection (s : String) : String :=
  "\"" ++ String.ofList (s.toList.flatMap escapeForInspection) ++ "\""

end CallFolding.Text
