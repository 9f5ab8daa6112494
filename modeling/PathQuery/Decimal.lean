import PathQuery.Binary64.Rounding

/-!
# Decimal fractions

A decimal fraction is an integer times a power of ten. It is what a number with a point or an
exponent is read as, before it is rounded to a double: `toBinary64` rounds once, from the exact
value. The two guards in it only keep numbers small that round to an infinity or to zero anyway.
-/

namespace PathQuery

/-- Ten to the power `k`. -/
abbrev tenPow (k : Nat) : Nat := Nat.pow 10 k

/-- The number `digits * 10 ^ exponent` with a sign, which a zero can have too. -/
structure Decimal where
  negative : Bool
  digits : Nat
  exponent : Int
  deriving DecidableEq, Repr

namespace Decimal

/-- The decimal fraction with the digits `whole`, a point, the digits `fraction`, and a power of
ten behind them. -/
def ofParts (negative : Bool) (whole fraction : List Char) (exponent : Int) : Decimal :=
  ⟨negative, Nat.ofDigitChars 10 (whole ++ fraction) 0, exponent - fraction.length⟩

/-- The number of decimal digits of `n`, which bounds it from above by a power of ten. -/
def digitCount (n : Nat) : Nat := (Nat.toDigits 10 n).length

/-- The nearest double, of two equally near ones the one with an even fraction. From 10 ^ 309 up
that is an infinity, and below 10 ^ -324 a zero. -/
def toBinary64 (d : Decimal) : Binary64 :=
  if d.digits = 0 then .ofMagnitude d.negative 0
  else if 309 ≤ d.exponent then .ofMagnitude d.negative Binary64.infiniteMagnitude
  else if digitCount d.digits + d.exponent ≤ -324 then .ofMagnitude d.negative 0
  else if 0 ≤ d.exponent then .ofRatio d.negative (d.digits * tenPow d.exponent.toNat) 1
  else .ofRatio d.negative d.digits (tenPow (-d.exponent).toNat)

end Decimal

end PathQuery
