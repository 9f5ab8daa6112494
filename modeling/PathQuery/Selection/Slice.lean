import PathQuery.Selector
import PathQuery.Value.Access

/-!
# Slices

A slice picks every element from one bound up to but not including another, at a fixed distance.
Bounds that count from the end are resolved against the length, and a bound beyond either end of
the array is moved to that end. A distance that leads nowhere picks nothing.
-/

namespace PathQuery

/-- The numbers from `start` up to but not including `stop`, at the distance `step`. -/
def progression (start stop step : Nat) : List Nat :=
  (List.range ((stop - start + (step - 1)) / step)).map fun k => start + step * k

namespace Slice

/-- A bound within an array of the length `n`. Reference: `normalize` in `slice_positions`. -/
def clampBound (n bound : Int64) : Nat :=
  let place := if bound < 0 then max (n + bound) 0 else min bound n
  place.toInt.toNat

/-- The positions that a slice picks from an array of the given length. Reference:
`slice_positions`. -/
def places (s : Slice) (length : Nat) : List Nat :=
  match lengthInt64? length with
  | none => []
  | some n =>
    let step := s.step.getD 1
    if step ≤ 0 then []
    else
      let start := (s.start.map (clampBound n)).getD 0
      let stop := (s.stop.map (clampBound n)).getD length
      progression start stop step.toInt.toNat

/-- The elements that a slice picks from a value. Reference: `FilterEvaluator.apply_slice`. -/
def elements (s : Slice) : Value → List Value
  | .array xs => (s.places xs.length).filterMap (xs[·]?)
  | _ => []

end Slice

end PathQuery
