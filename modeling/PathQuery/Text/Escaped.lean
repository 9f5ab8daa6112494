import PathQuery.Text.Hidden

/-!
# Writing text in double quotes

Between the quotes each character stands for itself, but for the double quote and the backslash,
which follow a backslash, the four controls that have a letter of their own, and characters that
are hidden or join the one before: those are written by number.
-/

namespace PathQuery.Text

/-- A character as it is written between double quotes. -/
def escapeChar : Char → List Char
  | '"' => ['\\', '"']
  | '\\' => ['\\', '\\']
  | '\n' => ['\\', 'n']
  | '\r' => ['\\', 'r']
  | '\t' => ['\\', 't']
  | '\x00' => ['\\', '0']
  | c =>
    if isCombining c || isHidden c then ['\\', 'u', '\x7b'] ++ Nat.toDigits 16 c.toNat ++ ['\x7d']
    else [c]

/-- A text in double quotes. -/
def writeQuoted (text : List Char) : List Char := '"' :: text.flatMap escapeChar ++ ['"']

end PathQuery.Text
