import PathQuery.Number
import PathQuery.Text.Escaped

/-!
# Scalars and their comparison

A scalar is a value without parts. The six comparisons of a filter order numbers by value and
strings by their characters. Booleans and nulls know only equality; scalars of two kinds are
unequal and unordered; and so is a number that is not one, even against itself.
-/

namespace PathQuery

/-- A value without parts. Reference: `Scalar`. -/
inductive Scalar where
  | null
  | bool (b : Bool)
  | number (n : Number)
  | string (s : String)
  deriving DecidableEq, Repr

/-- The comparisons of a filter. Reference: `ComparisonOp`. -/
inductive Comparison where
  | eq
  | ne
  | lt
  | le
  | gt
  | ge
  deriving DecidableEq, Repr

namespace Comparison

/-- The sign of a comparison. Reference: `ComparisonOp.as_str`. -/
def sign : Comparison → List Char
  | .eq => ['=', '=']
  | .ne => ['!', '=']
  | .lt => ['<']
  | .le => ['<', '=']
  | .gt => ['>']
  | .ge => ['>', '=']

/-- Whether the comparison holds of two things in the given order. Reference: the end of
`compare_scalar`. -/
def holdsOf : Comparison → Ordering → Bool
  | .eq, o => o == .eq
  | .ne, o => o != .eq
  | .lt, o => o == .lt
  | .le, o => o != .gt
  | .gt, o => o == .gt
  | .ge, o => o != .lt

/-- Whether the comparison holds of two things that may be equal but have no order. Reference:
`equality`. -/
def holdsOfUnordered : Comparison → Bool → Bool
  | .eq, equal => equal
  | .ne, equal => !equal
  | _, _ => false

end Comparison

namespace Scalar

/-- Whether the comparison `op` holds between two scalars. Reference: `compare_scalar`. -/
def compares : Scalar → Comparison → Scalar → Bool
  | .number a, op, .number b =>
    match a.compare? b with
    | some o => op.holdsOf o
    | none => op.holdsOfUnordered false
  | .string a, op, .string b => op.holdsOf (compare a b)
  | .bool a, op, .bool b => op.holdsOfUnordered (a == b)
  | .null, op, .null => op.holdsOfUnordered true
  | _, op, _ => op.holdsOfUnordered false

/-- Whether two scalars are the same value: numbers may differ in kind. Reference: `Scalar.eq`. -/
def equal : Scalar → Scalar → Bool
  | .null, .null => true
  | .bool a, .bool b => a == b
  | .number a, .number b => a.equal b
  | .string a, .string b => a == b
  | _, _ => false

/-- Whether a scalar counts as something: nulls, false, zeros and the empty string do not.
Reference: `Scalar.is_truthy`. -/
def isTruthy : Scalar → Bool
  | .null => false
  | .bool b => b
  | .number n => !n.isZero
  | .string s => s != ""

/-- The name of a scalar's kind. Reference: `Scalar.type_name`. -/
def kind : Scalar → String
  | .null => "null"
  | .bool _ => "boolean"
  | .number _ => "number"
  | .string _ => "string"

/-- The text of a scalar in a path. Reference: `Scalar.fmt`. -/
def written : Scalar → List Char
  | .null => ['n', 'u', 'l', 'l']
  | .bool true => ['t', 'r', 'u', 'e']
  | .bool false => ['f', 'a', 'l', 's', 'e']
  | .number n => n.written
  | .string s => Text.writeQuoted s.toList

end Scalar

end PathQuery
