import PathQuery.Scalar

/-!
# Values

A value is an object with members in a fixed order, an array, a scalar, or a host object. Of a host
object nothing is known but which one it is and what it answers to a name; it has no members to
list. `children` lists what is directly below a value, in order.

The answers of a host object are values that are there before it. One whose answers lead back to
itself without end, as a program may have it, is no value here. No proof makes use of that: where a
value is taken apart to the end, it is by its children, and a host object has none.
-/

namespace PathQuery

/-- A document or a part of one. Reference: `Value`, `DynamicHandle`. -/
inductive Value where
  /-- Members with their names, which are distinct, in order. -/
  | object (members : List (String × Value))
  | array (elements : List Value)
  | scalar (s : Scalar)
  /-- A host object: which one it is, and what it answers to a name. No chain of answers goes on
  without end. -/
  | host (identity : Nat) (answer : String → Option Value)

namespace Value

/-- The null value. Reference: `Value.null`. -/
def null : Value := .scalar .null

instance : Inhabited Value := ⟨null⟩

/-- The member of the given name. -/
def member? (members : List (String × Value)) (name : String) : Option Value :=
  (members.find? fun m => m.1 == name).map Prod.snd

/-- What is directly below a value: members in their order, elements by position. Reference:
`children`. -/
def children : Value → List Value
  | .object members => members.map Prod.snd
  | .array elements => elements
  | .scalar _ => []
  | .host _ _ => []

/-- Objects and arrays, empty ones included. Reference: `Value.is_container`. -/
def isContainer : Value → Bool
  | .object _ => true
  | .array _ => true
  | .scalar _ => false
  | .host _ _ => false

/-- Whether a value counts as something: empty containers do not, host objects do. Reference:
`Value.is_truthy`. -/
def isTruthy : Value → Bool
  | .object members => !members.isEmpty
  | .array elements => !elements.isEmpty
  | .scalar s => s.isTruthy
  | .host _ _ => true

/-- The name of a value's kind. Reference: `Value.type_name`. -/
def kind : Value → String
  | .object _ => "object"
  | .array _ => "array"
  | .scalar s => s.kind
  | .host _ _ => "dynamic"

mutual

/-- The number of values in a tree, its root included; a host object is one. -/
def size : Value → Nat
  | .object members => 1 + sizeMembers members
  | .array elements => 1 + sizeElements elements
  | .scalar _ => 1
  | .host _ _ => 1

/-- The number of values at and below a list of members. -/
def sizeMembers : List (String × Value) → Nat
  | [] => 0
  | (_, v) :: rest => size v + sizeMembers rest

/-- The number of values at and below a list of elements. -/
def sizeElements : List Value → Nat
  | [] => 0
  | v :: rest => size v + sizeElements rest

end

/-- Members count as what they hold. -/
theorem sizeMembers_eq (members : List (String × Value)) :
    sizeMembers members = sizeElements (members.map Prod.snd) := by
  induction members with
  | nil => simp [sizeMembers, sizeElements]
  | cons m rest ih => simp [sizeMembers, sizeElements, ih]

/-- Two lists count together as each by itself. -/
theorem sizeElements_append (xs ys : List Value) :
    sizeElements (xs ++ ys) = sizeElements xs + sizeElements ys := by
  induction xs with
  | nil => simp [sizeElements]
  | cons v rest ih => simp [sizeElements, ih, Nat.add_assoc]

/-- A tree is its root and the trees below it. -/
theorem size_eq (v : Value) : v.size = 1 + sizeElements v.children := by
  cases v with
  | object members => simp [size, children, sizeMembers_eq]
  | array elements => simp [size, children]
  | scalar _ => simp [size, children, sizeElements]
  | host _ _ => simp [size, children, sizeElements]

end Value

end PathQuery
