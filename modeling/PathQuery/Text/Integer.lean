/-!
# Integers of 64 bits in decimal

An integer is read with an optional sign of either kind and at least one ASCII digit; leading zeros
are allowed, and the value must fit 64 bits. It is written with a minus sign if it is negative and
without leading zeros.
-/

namespace PathQuery.Text

/-- The first integer beyond 64 bits with a sign, 2 ^ 63. -/
abbrev int64Limit : Int := 9223372036854775808

/-- The integer `n` as a signed one of 64 bits, if it fits. -/
def int64? (n : Int) : Option Int64 :=
  if -int64Limit ≤ n ∧ n < int64Limit then some (Int64.ofInt n) else none

/-- The natural number that a text of at least one ASCII digit writes. -/
def readNat? (digits : List Char) : Option Nat :=
  if digits ≠ [] ∧ digits.all Char.isDigit then some (Nat.ofDigitChars 10 digits 0) else none

/-- The integer that an optional sign and at least one digit write, if it fits 64 bits. Reference:
the parse in `parse_integer` and `QueryScanner.parse_integer`. -/
def readInt64? : List Char → Option Int64
  | '-' :: digits => (readNat? digits).bind fun n => int64? (-n)
  | '+' :: digits => (readNat? digits).bind fun n => int64? n
  | digits => (readNat? digits).bind fun n => int64? n

/-- The decimal digits of an integer, behind a minus sign if it is negative. -/
def writeInt (n : Int) : List Char :=
  if n < 0 then '-' :: Nat.toDigits 10 n.natAbs else Nat.toDigits 10 n.natAbs

/-- The decimal digits of a signed integer of 64 bits. -/
def writeInt64 (n : Int64) : List Char := writeInt n.toInt

end PathQuery.Text
