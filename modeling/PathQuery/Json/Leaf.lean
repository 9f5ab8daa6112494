import PathQuery.Binary64.Layout

/-!
# Leaves of compact JSON text

How strings and doubles are written where no blank is spent. In a string only the double quote, the
backslash and control characters are escaped. A double is written positionally from 10 ^ -5 up to
but not including 10 ^ 16, a whole one with a point and a zero, and with an exponent otherwise; what
has no digits is null.
-/

namespace PathQuery.Json

/-- A digit in base sixteen. -/
def hexDigit (n : Nat) : Char := Nat.digitChar (n % 16)

/-- A character as it is written in a string. -/
def escapeChar : Char → List Char
  | '"' => ['\\', '"']
  | '\\' => ['\\', '\\']
  | '\x08' => ['\\', 'b']
  | '\x0c' => ['\\', 'f']
  | '\n' => ['\\', 'n']
  | '\r' => ['\\', 'r']
  | '\t' => ['\\', 't']
  | c =>
    if c.toNat < 0x20 then ['\\', 'u', '0', '0', hexDigit (c.toNat / 16), hexDigit c.toNat]
    else [c]

/-- A string in its quotes. -/
def writeString (s : String) : List Char := '"' :: s.toList.flatMap escapeChar ++ ['"']

/-- How the digits of a double are set out. -/
def layout : Binary64.Layout := ⟨fun e => -5 ≤ e && e < 16, ['.', '0'], .even⟩

/-- The null value as text. -/
def writeNull : List Char := ['n', 'u', 'l', 'l']

/-- A truth value as text. -/
def writeBool : Bool → List Char
  | true => ['t', 'r', 'u', 'e']
  | false => ['f', 'a', 'l', 's', 'e']

/-- A double as text. -/
def writeFloat (x : Binary64) : List Char := if x.isFinite then layout.write x else writeNull

/-- Parts between brackets, with commas between them. -/
def writeArray (elements : List (List Char)) : List Char :=
  '[' :: [','].intercalate elements ++ [']']

/-- Parts with names between braces, with commas between them. -/
def writeObject (members : List (String × List Char)) : List Char :=
  '\x7b' :: [','].intercalate (members.map fun m => writeString m.1 ++ ':' :: m.2) ++ ['\x7d']

end PathQuery.Json
