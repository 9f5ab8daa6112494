import PathQuery.Text.Integer

/-!
# Keys

A key picks one part of a value: the member of an object by its name, or the element of an array by
its position, where -1 is the last one. A list of keys is a path from one value into its depth.
-/

namespace PathQuery

/-- The name of a member or the position of an element. Reference: `PathKey`. -/
inductive Key where
  | name (n : String)
  /-- A position; a negative one counts from the end. -/
  | position (i : Int64)
  deriving DecidableEq, Repr

namespace Key

/-- The position that a key is, if it is one. -/
def position? : Key → Option Int64
  | .name _ => none
  | .position i => some i

/-- A character of a name between single quotes: only that quote is escaped. Reference:
`PathKey.fmt`. -/
def escapeQuote (c : Char) : List Char := if c = '\'' then ['\\', '\''] else [c]

/-- The text of a key between brackets. Reference: `PathKey.fmt`. -/
def written : Key → List Char
  | .name n => '\'' :: n.toList.flatMap escapeQuote ++ ['\'']
  | .position i => Text.writeInt64 i

end Key

/-- The text of a path that starts at the current value. Reference: `QueryPath.fmt`. -/
def writePath (path : List Key) : List Char :=
  '@' :: path.flatMap fun key => '[' :: key.written ++ [']']

end PathQuery
