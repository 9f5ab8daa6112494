import PathQuery.Binary64.Basic

/-!
# Rounding to a double

`ofRatio` gives the double nearest to a fraction of natural numbers with a sign, of two equally near
ones the one with an even fraction; what is out of range becomes an infinity. A magnitude is one
more than the magnitude below it, across powers of two as well, so the fraction of a carry needs no
care: rounding `q` units down to `r * 2 ^ k` gives the magnitude `k * 2 ^ 52 + r`.
-/

namespace PathQuery.Binary64

/-- The natural number nearest to `num / den`, of two equally near ones the even one. -/
def roundHalfEven (num den : Nat) : Nat :=
  let q := num / den
  let r := num % den
  if 2 * r < den then q else if den < 2 * r then q + 1 else q + q % 2

/-- The magnitude of the double nearest to `num / den` units. -/
def nearestMagnitude (num den : Nat) : Nat :=
  let k := (num / den).log2 - 52
  min (k * twoPow 52 + roundHalfEven num (den * twoPow k)) infiniteMagnitude

/-- The double nearest to `num / den`, with the given sign. -/
def ofRatio (negative : Bool) (num den : Nat) : Binary64 :=
  ofMagnitude negative (nearestMagnitude (num * one) den)

/-- The double nearest to an integer. -/
def ofInt (n : Int) : Binary64 := ofRatio (decide (n < 0)) n.natAbs 1

end PathQuery.Binary64
