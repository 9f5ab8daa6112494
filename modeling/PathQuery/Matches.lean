import PathQuery.Config
import PathQuery.Value.Equality
import PathQuery.Value.Json

/-!
# Matches

What a query finds: values in the order in which they were found, and the configuration they were
found with, under which they can be searched further.
-/

namespace PathQuery

/-- The values that a query found, with its configuration. Reference: `ResultCollection`. -/
structure Matches where
  values : List Value := []
  config : Config := {}

namespace Matches

/-- Only the first match, if there is one. Reference: `ResultCollection.first`. -/
def first (found : Matches) : Matches := { found with values := found.values.head?.toList }

/-- Only the last match, if there is one. Reference: `ResultCollection.last`. -/
def last (found : Matches) : Matches := { found with values := found.values.getLast?.toList }

/-- The number of matches. Reference: `ResultCollection.len`. -/
def size (found : Matches) : Nat := found.values.length

/-- Whether nothing was found. Reference: `ResultCollection.is_empty`. -/
def isEmpty (found : Matches) : Bool := found.values.isEmpty

/-- The match at a place, if there are enough. Reference: `ResultCollection.get`. -/
def get? (found : Matches) (place : Nat) : Option Value := found.values[place]?

/-- The match at a place within the matches. Reference: `ResultCollection.index`. -/
def get (found : Matches) (place : Nat) (h : place < found.size) : Value :=
  found.values.get ⟨place, h⟩

/-- Matches are equal if they were found with the same configuration and are equal one by one.
Reference: `ResultCollection.eq`. -/
def equal (a b : Matches) : Bool :=
  Value.equalElements a.values b.values && a.config == b.config

/-- The matches as a JSON array. Reference: `ResultCollection.to_json`. -/
def toJson (found : Matches) : Json := .array (found.values.map Value.toJson)

/-- Hands the array of the matches to a sink. Reference: `ResultCollection.serialize`. -/
def encode {α : Type} (sink : Json.Sink α) (found : Matches) : α :=
  sink.array (found.values.map (Value.encode sink))

/-- The compact JSON text of the array of the matches. -/
def toText (found : Matches) : String := String.ofList (found.encode Json.compactText)

end Matches

end PathQuery
