import PathQuery.Binary64.Layout
import PathQuery.Text.Integer

/-!
# Numbers

A number is a signed integer of 64 bits or a double. The two kinds are compared by value and never
by rounding the integer: a double is first held against the limits of the integers, then its whole
part against the integer, and only if these agree does the sign of its fraction decide. `compare?`
is the order, `equal` the equality it induces; a double that is not a number has neither.
-/

namespace PathQuery

/-- A number of a document or of a filter. Reference: `Number`. -/
inductive Number where
  | int (n : Int64)
  | float (x : Binary64)
  deriving DecidableEq, Repr

namespace Number

/-- The double nearest to a number. Reference: `Number.as_f64`. -/
def toBinary64 : Number → Binary64
  | .int n => .ofInt n.toInt
  | .float x => x

/-- The integer that a number is kept as, if it is. Reference: `Number.as_i64`. -/
def toInt64? : Number → Option Int64
  | .int n => some n
  | .float _ => none

/-- A zero of either kind and sign; what is not a number counts as one. Reference:
`Number.is_zero`. -/
def isZero : Number → Bool
  | .int n => n == 0
  | .float x => x.isZero || x.isNaN

/-- The units in the first integer beyond 64 bits. Reference: `LIMIT` in `cmp_int_float`. -/
def intLimit : Int := Text.int64Limit * Binary64.one

/-- The whole part of a double within the limits of the integers, towards zero. -/
def wholePart (x : Binary64) : Int64 := Int64.ofInt (x.units.tdiv Binary64.one)

/-- What a double has beyond its whole part, in units, with the sign of the double. -/
def fraction (x : Binary64) : Int := x.units - x.units.tdiv Binary64.one * Binary64.one

/-- The order of an integer and a double. Reference: `cmp_int_float`. -/
def compareIntFloat? (n : Int64) (x : Binary64) : Option Ordering :=
  if x.isNaN then none
  else if intLimit ≤ x.units then some .lt
  else if x.units < -intLimit then some .gt
  else
    match compare n.toInt (wholePart x).toInt with
    | .eq => some (compare 0 (fraction x))
    | unequal => some unequal

/-- The order of two numbers by value, where both are numbers. Reference: `Number.partial_cmp`. -/
def compare? : Number → Number → Option Ordering
  | .int m, .int n => some (compare m.toInt n.toInt)
  | .float x, .float y => x.compare? y
  | .int n, .float x => compareIntFloat? n x
  | .float x, .int n => (compareIntFloat? n x).map Ordering.swap

/-- Whether two numbers have the same value. Reference: `Number.eq`. -/
def equal (a b : Number) : Bool := a.compare? b == some .eq

/-- A finite double in a path is written with all its zeros and never with an exponent. -/
def layout : Binary64.Layout := ⟨fun _ => true, [], .up⟩

/-- The text of a double in a path. Reference: `Number.fmt`. -/
def writeFloat (x : Binary64) : List Char :=
  if x.isNaN then ['N', 'a', 'N']
  else if x.isFinite then layout.write x
  else if x.isNegative then ['-', 'i', 'n', 'f']
  else ['i', 'n', 'f']

/-- The text of a number in a path. Reference: `Number.fmt`. -/
def written : Number → List Char
  | .int n => Text.writeInt64 n
  | .float x => writeFloat x

end Number

end PathQuery
