import PathQuery.Json.Basic
import PathQuery.Json.Leaf
import PathQuery.Text.Integer

/-!
# Compact JSON text

The text of a JSON value without a blank between its parts, with members in their order.
-/

namespace PathQuery.Json

mutual

/-- The text of a value. -/
def compact : Json → List Char
  | .null => writeNull
  | .bool b => writeBool b
  | .int n => Text.writeInt n
  | .float x => writeFloat x
  | .string s => writeString s
  | .array elements => writeArray (compactElements elements)
  | .object members => writeObject (compactMembers members)

/-- The texts of elements. -/
def compactElements : List Json → List (List Char)
  | [] => []
  | j :: rest => compact j :: compactElements rest

/-- The texts of members, with their names. -/
def compactMembers : List (String × Json) → List (String × List Char)
  | [] => []
  | (name, j) :: rest => (name, compact j) :: compactMembers rest

end

/-- The text of a value as a string. -/
def toText (j : Json) : String := String.ofList j.compact

end PathQuery.Json
