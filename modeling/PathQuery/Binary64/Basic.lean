/-!
# Doubles

A double is its 64 bits: a sign, eleven bits of exponent and fifty-two of fraction. Every finite
double is a whole number of *units* of 2 ^ -1074, the smallest positive one, so that `units` and
integer arithmetic say exactly what a double is and how two of them compare. An infinity has more
units than every finite double of its sign, which lets `compare?` treat it like one. A double that
is not a number is not ordered against anything, itself included.
-/

namespace PathQuery

/-- Two to the power `k`. -/
abbrev twoPow (k : Nat) : Nat := Nat.pow 2 k

/-- A double-precision binary floating-point number, as its bits. -/
structure Binary64 where
  bits : UInt64
  deriving DecidableEq, Repr

namespace Binary64

/-- The bits below the sign. -/
def magnitude (x : Binary64) : Nat := x.bits.toNat % twoPow 63

/-- Whether the sign bit is set; it can be set on a zero too. -/
def isNegative (x : Binary64) : Bool := twoPow 63 ≤ x.bits.toNat

/-- The magnitude of an infinity: all exponent bits and no fraction. -/
def infiniteMagnitude : Nat := 2047 * twoPow 52

/-- Whether the bits stand for no number: all exponent bits and some fraction. -/
def isNaN (x : Binary64) : Bool := infiniteMagnitude < x.magnitude

/-- Whether the bits stand for a number that is no infinity. -/
def isFinite (x : Binary64) : Bool := x.magnitude < infiniteMagnitude

/-- Either zero. -/
def isZero (x : Binary64) : Bool := x.magnitude == 0

/-- The double of a sign and a magnitude. -/
def ofMagnitude (negative : Bool) (magnitude : Nat) : Binary64 :=
  ⟨UInt64.ofNat (if negative then twoPow 63 + magnitude else magnitude)⟩

/-- The units that a magnitude stands for. With exponent bits `e` above zero the fraction has a
leading one and is scaled by 2 ^ (e - 1); without any it stands for itself. -/
def unitsOfMagnitude (m : Nat) : Nat :=
  if m < twoPow 52 then m
  else (twoPow 52 + m % twoPow 52) * twoPow (m / twoPow 52 - 1)

/-- The value of a finite double, counted in units of 2 ^ -1074. -/
def units (x : Binary64) : Int :=
  if x.isNegative then -(unitsOfMagnitude x.magnitude : Int) else unitsOfMagnitude x.magnitude

/-- The number of units in one. -/
def one : Nat := twoPow 1074

/-- The order of two doubles, where both are numbers. The two zeros are equal. -/
def compare? (x y : Binary64) : Option Ordering :=
  if x.isNaN || y.isNaN then none else some (compare x.units y.units)

end Binary64

end PathQuery
