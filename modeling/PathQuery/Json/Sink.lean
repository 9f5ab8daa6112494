import PathQuery.Json.Basic
import PathQuery.Json.Leaf
import PathQuery.Text.Integer

/-!
# Where encoded values go

Encoding a value means handing its parts to a sink, leaves first. `tree` builds a JSON value from
them, and `compactText` their compact text at once, without a tree in between.
-/

namespace PathQuery.Json

/-- What is made of each part of a value. -/
structure Sink (α : Type) where
  null : α
  bool : Bool → α
  int : Int64 → α
  float : Binary64 → α
  string : String → α
  array : List α → α
  object : List (String × α) → α

/-- The sink that builds a JSON value. A double that is not finite has none but null. -/
def tree : Sink Json where
  null := .null
  bool := .bool
  int n := .int n.toInt
  float x := if x.isFinite then .float x else .null
  string := .string
  array := .array
  object := .object

/-- The sink that writes compact text. -/
def compactText : Sink (List Char) where
  null := writeNull
  bool := writeBool
  int := Text.writeInt64
  float := writeFloat
  string := writeString
  array := writeArray
  object := writeObject

end PathQuery.Json
