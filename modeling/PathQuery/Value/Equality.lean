import PathQuery.Value.Basic

/-!
# Equality of values

Two objects are equal if they have the same names, whatever their order, with equal members; two
arrays, if they are equal element by element; two scalars, if they are the same value; and two host
objects, if they are one and the same. What is not a number is not equal to itself, nor is a value
that holds it.
-/

namespace PathQuery.Value

mutual

/-- Whether two values are equal. Reference: `Value.eq`, `DynamicHandle.eq`. -/
def equal : Value → Value → Bool
  | .object ms, .object ns => ms.length == ns.length && equalMembers ms ns
  | .array xs, .array ys => equalElements xs ys
  | .scalar s, .scalar t => s.equal t
  | .host i _, .host j _ => i == j
  | _, _ => false

/-- Whether each of the members `ms` has an equal of its name among the members `ns`. -/
def equalMembers : List (String × Value) → List (String × Value) → Bool
  | [], _ => true
  | (name, v) :: rest, ns =>
    (match member? ns name with
      | some w => equal v w
      | none => false) && equalMembers rest ns

/-- Whether two lists of elements are equal one by one. -/
def equalElements : List Value → List Value → Bool
  | [], [] => true
  | x :: xs, y :: ys => equal x y && equalElements xs ys
  | _, _ => false

end

end PathQuery.Value
