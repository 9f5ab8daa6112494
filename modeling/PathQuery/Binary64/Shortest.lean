import PathQuery.Decimal

/-!
# The fewest digits that read back

The text of a double shows as few decimal digits as name it and no other double, and of the numbers
with that many digits the one nearest to it. `shortest` looks at grids of decimal fractions, from
one digit to seventeen: on each it tries the two neighbours of the double, and keeps one that
`Decimal.toBinary64` reads back as the double. Seventeen digits always do.
-/

namespace PathQuery.Binary64

/-- Which of two equally near decimal fractions is taken. -/
inductive Tie where
  /-- The larger one. -/
  | up
  /-- The one with an even last digit. -/
  | even
  deriving DecidableEq, Repr

/-- The size of a finite double in multiples of 10 ^ `exponent`, as a fraction. -/
def scaled (x : Binary64) (exponent : Int) : Nat × Nat :=
  let units := unitsOfMagnitude x.magnitude
  if 0 ≤ exponent then (units, one * tenPow exponent.toNat)
  else (units * tenPow (-exponent).toNat, one)

/-- The power of ten of the first digit of a double. The smallest positive double exceeds
10 ^ -324, so that its multiple by 10 ^ 324 has digits to count. -/
def leadingExponent (x : Binary64) : Int :=
  let (num, den) := x.scaled (-324)
  (Decimal.digitCount (num / den) : Int) - 325

/-- The multiple of 10 ^ `exponent` that reads back as the double `x`: one of the two next to `x`,
of both the nearer one. -/
def onGrid? (tie : Tie) (x : Binary64) (exponent : Int) : Option Nat :=
  let (num, den) := x.scaled exponent
  let low := num / den
  let readsBack (n : Nat) : Bool := (Decimal.mk x.isNegative n exponent).toBinary64 == x
  match readsBack low, readsBack (low + 1) with
  | false, false => none
  | true, false => some low
  | false, true => some (low + 1)
  | true, true =>
    match compare (2 * num) ((2 * low + 1) * den), tie with
    | .lt, _ => some low
    | .gt, _ => some (low + 1)
    | .eq, .up => some (low + 1)
    | .eq, .even => some (low + low % 2)

/-- The shortest decimal fraction that reads back as the finite double `x`. -/
def shortest (tie : Tie) (x : Binary64) : Decimal :=
  let found := (List.range 17).findSome? fun (n : Nat) =>
    let exponent := x.leadingExponent - (n : Int)
    (x.onGrid? tie exponent).map fun digits => Decimal.mk x.isNegative digits exponent
  found.getD ⟨x.isNegative, 0, 0⟩

end PathQuery.Binary64
