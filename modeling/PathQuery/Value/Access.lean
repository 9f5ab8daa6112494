import PathQuery.Config
import PathQuery.Key
import PathQuery.Value.Basic

/-!
# Reaching into a value

A name picks a member of an object and a position an element of an array; a host object is asked for
a name only if the configuration allows it. Nothing else is found: names do not apply to arrays nor
positions to objects, and a scalar has no parts.
-/

namespace PathQuery

/-- A length as a signed integer of 64 bits, if it fits. -/
def lengthInt64? (length : Nat) : Option Int64 :=
  if length < 9223372036854775808 then some (Int64.ofNat length) else none

/-- The place of a position in an array of the given length, if it is in range. Reference:
`resolve_index`. -/
def resolvePosition? (length : Nat) (i : Int64) : Option Nat :=
  (lengthInt64? length).bind fun n =>
    let place := if i < 0 then n + i else i
    if 0 ≤ place ∧ place < n then some place.toInt.toNat else none

namespace Value

/-- What a key picks from a value. Reference: `get`, `child`. -/
def get? (config : Config) : Value → Key → Option Value
  | .array elements, .position i => (resolvePosition? elements.length i).bind (elements[·]?)
  | .object members, .name n => member? members n
  | .host _ answer, .name n => if config.allowDynamic then answer n else none
  | _, _ => none

/-- What a path leads to from a value; the empty path leads to the value itself. Reference:
`resolve_path`. -/
def resolve? (config : Config) : Value → List Key → Option Value
  | v, [] => some v
  | v, key :: path => (v.get? config key).bind fun w => resolve? config w path

end Value

end PathQuery
