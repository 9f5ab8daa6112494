import PathQuery.Json.Form
import PathQuery.Json.Sink
import PathQuery.Value.Basic

/-!
# Values and JSON

`ofJson` makes a value of a JSON value: an integer that fits a signed integer of 64 bits stays one,
and every other number becomes a double. `toJson` goes back; a host object and a double that is not
finite become null. `encode` hands a value to a sink part by part, in the order of the document.
-/

namespace PathQuery.Value

/-- The number of a JSON integer. Reference: `Number.from`. -/
def numberOfInt (n : Int) : Number :=
  match Text.int64? n with
  | some i => .int i
  | none => .float (.ofInt n)

mutual

/-- The value of a JSON value. Reference: `Value.from`. -/
def ofJson : Json → Value
  | .null => .scalar .null
  | .bool b => .scalar (.bool b)
  | .int n => .scalar (.number (numberOfInt n))
  | .float x => .scalar (.number (.float x))
  | .string s => .scalar (.string s)
  | .array elements => .array (ofJsonElements elements)
  | .object members => .object (ofJsonMembers members)

/-- The values of JSON elements. -/
def ofJsonElements : List Json → List Value
  | [] => []
  | j :: rest => ofJson j :: ofJsonElements rest

/-- The values of JSON members, with their names. -/
def ofJsonMembers : List (String × Json) → List (String × Value)
  | [] => []
  | (name, j) :: rest => (name, ofJson j) :: ofJsonMembers rest

end

/-- A scalar as a JSON value. Reference: `from` of a `Scalar`. -/
def scalarJson : Scalar → Json
  | .null => .null
  | .bool b => .bool b
  | .number (.int n) => .int n.toInt
  | .number (.float x) => if x.isFinite then .float x else .null
  | .string s => .string s

mutual

/-- A value as a JSON value. Reference: `from` of a `Value`. -/
def toJson : Value → Json
  | .object members => .object (membersJson members)
  | .array elements => .array (elementsJson elements)
  | .scalar s => scalarJson s
  | .host _ _ => .null

/-- Elements as JSON values. -/
def elementsJson : List Value → List Json
  | [] => []
  | v :: rest => toJson v :: elementsJson rest

/-- Members as JSON values, with their names. -/
def membersJson : List (String × Value) → List (String × Json)
  | [] => []
  | (name, v) :: rest => (name, toJson v) :: membersJson rest

end

/-- Hands a scalar to a sink. Reference: `Scalar.serialize`. -/
def encodeScalar {α : Type} (sink : Json.Sink α) : Scalar → α
  | .null => sink.null
  | .bool b => sink.bool b
  | .number (.int n) => sink.int n
  | .number (.float x) => sink.float x
  | .string s => sink.string s

mutual

/-- Hands a value to a sink. Reference: `Value.serialize`. -/
def encode {α : Type} (sink : Json.Sink α) : Value → α
  | .object members => sink.object (encodeMembers sink members)
  | .array elements => sink.array (encodeElements sink elements)
  | .scalar s => encodeScalar sink s
  | .host _ _ => sink.null

/-- Hands elements to a sink. -/
def encodeElements {α : Type} (sink : Json.Sink α) : List Value → List α
  | [] => []
  | v :: rest => encode sink v :: encodeElements sink rest

/-- Hands members to a sink. -/
def encodeMembers {α : Type} (sink : Json.Sink α) : List (String × Value) → List (String × α)
  | [] => []
  | (name, v) :: rest => (name, encode sink v) :: encodeMembers sink rest

end

/-- The compact JSON text of a value. -/
def toText (v : Value) : String := String.ofList (v.encode Json.compactText)

/-- The value of a JSON text, as a reader of JSON reads it. -/
def ofText? (text : String) (reader : Json.Reader := Json.read?) : Option Value :=
  (reader text.toList).map ofJson

end PathQuery.Value
