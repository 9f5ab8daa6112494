import PathQuery.Key
import PathQuery.Scalar

/-!
# Selectors

An expression is a list of selectors, each of which turns a list of nodes into the next one.
`Selector.written` is the text of a selector, which is in brackets wherever brackets can say it.
-/

namespace PathQuery

/-- What a filter asks of a value. Reference: `QueryExpression`. -/
inductive Condition where
  /-- The path leads to something that counts. -/
  | present (path : List Key)
  /-- The path leads to a value that compares with the literal. -/
  | compares (path : List Key) (op : Comparison) (literal : Scalar)
  deriving DecidableEq, Repr

/-- The bounds of a run of elements, each of which may be left out. Reference: the bounds of
`Token.Slice`. -/
structure Slice where
  /-- The first position; a negative one counts from the end. -/
  start : Option Int64
  /-- The position behind the last one; a negative one counts from the end. -/
  stop : Option Int64
  /-- The distance from one element to the next. -/
  step : Option Int64
  deriving DecidableEq, Repr

/-- One step of an expression. Reference: `Token`. -/
inductive Selector where
  /-- Starts again at the root of the document. -/
  | root
  /-- The member of a name. -/
  | member (name : String)
  /-- The members and elements of several keys. -/
  | keys (ks : List Key)
  /-- The elements at several positions. -/
  | positions (places : List Int64)
  /-- A run of elements. -/
  | slice (bounds : Slice)
  /-- All members or elements. -/
  | children
  /-- A node and all below it, or of all these the member of a name. -/
  | descent (name : Option String)
  /-- The members or elements that satisfy a condition. -/
  | filter (condition : Condition)
  /-- The element at a position computed from the length. -/
  | script (text : String)
  deriving DecidableEq, Repr

/-- The text of a condition. Reference: `QueryExpression.fmt`. -/
def Condition.written : Condition → List Char
  | .present path => writePath path
  | .compares path op literal => writePath path ++ ' ' :: op.sign ++ ' ' :: literal.written

namespace Selector

/-- The text of a bound that may be left out. Reference: `part` in `Token.fmt`. -/
def writeBound : Option Int64 → List Char
  | none => []
  | some n => Text.writeInt64 n

/-- The text of a slice between the brackets: a step that is left out takes its colon along.
Reference: the slice of `Token.fmt`. -/
def writeSlice (s : Slice) : List Char :=
  writeBound s.start ++ ':' :: writeBound s.stop ++
    match s.step with
    | none => []
    | some n => ':' :: Text.writeInt64 n

/-- The text of a selector. Reference: `Token.fmt`. -/
def written : Selector → List Char
  | .root => ['$']
  | .member name => '[' :: (Key.name name).written ++ [']']
  | .keys ks => '[' :: [','].intercalate (ks.map Key.written) ++ [']']
  | .positions places => '[' :: [','].intercalate (places.map Text.writeInt64) ++ [']']
  | .slice bounds => '[' :: writeSlice bounds ++ [']']
  | .children => ['[', '*', ']']
  | .descent none => ['.', '.']
  | .descent (some name) => '.' :: '.' :: '[' :: (Key.name name).written ++ [']']
  | .filter condition => '[' :: '?' :: '(' :: condition.written ++ [')', ']']
  | .script text => '[' :: '(' :: text.toList ++ [')', ']']

end Selector

instance : ToString Selector := ⟨fun s => String.ofList s.written⟩

end PathQuery
